import ArcVideo.Player.Clock
import ArcVideo.Player.Ending

/-!
# A play that does not start

* `LibraryLoader` : the static `loaded` flag and the methods that set it, which decide whether the native library is
  there for `play` and for the constructor of the decoder;
* `Host`, `host` : a player and the flag; every sequence of operations, and of loads by others;
* `PlayCall`, `Player.playCall` : the call of `play` an operation makes, itself or in the looping branch of `update`;
* `Undisturbed`, `Stopped` : what such a call leaves when it is refused and when it fails later;
* `failed_play_defined` : it leaves one of the two in every reachable state.
-/

namespace ArcVideo
open Conc

variable {φ : Type}

/-! ## The native library -/

inductive LibraryOutcome
  | loaded
  /-- It throws an `Exception`, which `loadLibraries` catches. -/
  | exception
  /-- It throws an `Error`, which `loadLibraries` does not catch. -/
  | error
  deriving DecidableEq

namespace LibraryLoader

/-- `loadLibraries`: what it returns, `none` where an `Error` leaves it, and the flag after. -/
def loadLibraries (loaded : Bool) (outcome : LibraryOutcome) : Option Bool × Bool :=
  if loaded then (some true, true)
  else
    match outcome with
    | .loaded => (some true, true)
    | .exception => (some false, false)
    | .error => (none, false)

/-- `setDebugLogging`: whether it returns, and the flag after. -/
def setDebugLogging (loaded : Bool) (outcome : LibraryOutcome) : Bool × Bool :=
  if !loaded then ((loadLibraries loaded outcome).1.isSome, (loadLibraries loaded outcome).2) else (true, true)

/-- `play`: load the library if it is not loaded, by two attempts; whether that returns, and the flag after. -/
def prepare (loaded : Bool) (first second : LibraryOutcome) : Bool × Bool :=
  if !loaded then
    match loadLibraries loaded first with
    | (none, loaded) => (false, loaded)
    | (some _, loaded) => setDebugLogging loaded second
  else (true, true)

theorem prepare_loaded (first second : LibraryOutcome) : prepare true first second = (true, true) := rfl

theorem not_loaded_of_error {loaded : Bool} {first second : LibraryOutcome}
    (h : (prepare loaded first second).1 = false) : loaded = false := by
  cases loaded with
  | true => cases h
  | false => rfl

end LibraryLoader

/-- What the calls in `play` answer agrees with the library: the constructor of the decoder throws where it is not
loaded. -/
def PlayEnv.agrees (e : PlayEnv) (r : Bool × Bool) : Bool := e.libraries == r.1 && e.decoder.isSome == r.2

/-! ## The calls of `play` -/

/-- A call of `play`: the player before it and its arguments. -/
structure PlayCall where
  player : Player
  file : Option Fi
  env : PlayEnv

namespace PlayCall

variable (φ) in
def step (c : PlayCall) : Step φ Bool := c.player.play c.file c.env

/-- The call comes to the library. -/
def loads (c : PlayCall) : Bool := c.file.isSome && c.env.fileExists

end PlayCall

/-- The call of `play` an operation makes. -/
def Player.playCall (p : Player) : Op φ → Option PlayCall
  | .play file e => some ⟨p, file, e⟩
  | .update e =>
    if p.restarts && e.videoData.isNone then
      some ⟨(p.startClock e).1, (p.startClock e).1.currentFile, e.play⟩
    else none
  | _ => none

/-! ## A player and the library -/

structure Host where
  player : Player
  /-- `LibraryLoader.loaded` -/
  loaded : Bool

inductive HostAct (φ : Type)
  /-- An operation on the player; the outcomes are for the attempts to load the library in it. -/
  | call (op : Op φ) (first second : LibraryOutcome)
  /-- Someone else calls `LibraryLoader.loadLibraries`. -/
  | loadLibraries (outcome : LibraryOutcome)

namespace Host

def flag (s : Host) (op : Op φ) (first second : LibraryOutcome) : Bool :=
  match s.player.playCall op with
  | some c => if c.loads then (LibraryLoader.prepare s.loaded first second).2 else s.loaded
  | none => s.loaded

/-- What the environment answers in an operation agrees with the library. -/
def agrees (s : Host) (op : Op φ) (first second : LibraryOutcome) : Bool :=
  match s.player.playCall op with
  | some c => !c.loads || c.env.agrees (LibraryLoader.prepare s.loaded first second)
  | none => true

def step (s : Host) : HostAct φ → Option Host
  | .call op first second =>
    if s.agrees op first second then some ⟨(s.player.apply op).player, s.flag op first second⟩ else none
  | .loadLibraries outcome => some { s with loaded := (LibraryLoader.loadLibraries s.loaded outcome).2 }

end Host

/-- **A new player and every sequence of operations on it.** -/
def host (φ : Type) : System Host (HostAct φ) where
  init s := ∃ looping size completion, s.player = Player.new looping size completion
  step := Host.step

def NoSuccess (s : Host) : HostAct φ → Prop
  | .call op _ _ => ∀ c, s.player.playCall op = some c → (c.step φ).result ≠ .ok true
  | .loadLibraries _ => True

def PlayCall.Refused (φ : Type) (c : PlayCall) : Prop :=
  c.file = none ∧ (c.step φ).result = .ok false ∨ ∃ message, (c.step φ).result = .error (.fileNotFound message)

/-- A call that was refused left the player and the library as they were, and called nothing. -/
def Undisturbed (φ : Type) (s : Host) (c : PlayCall) (t : Host) : Prop :=
  t = ⟨c.player, s.loaded⟩ ∧ (c.step φ).events = []

/-- A call that failed later, in an operation that made the calls `es`, closed the decoder of the video before and
stopped it. Until a play succeeds every update returns false, makes no call and leaves every field alone. -/
structure Stopped (φ : Type) (c : PlayCall) (es : List (Event φ)) (t : Host) : Prop where
  closed : ∀ d, c.player.decoder = some d → Event.disposeDecoder d ∈ es
  playing : t.player.isPlaying = false
  idle : ∀ h u, (host φ).Path NoSuccess t h u → ∀ p ∈ h, ∀ e first second, p.2 = .call (.update e) first second →
    p.1.player.update e = ⟨.ok false, p.1.player, []⟩

/-! ## How a play fails -/

namespace Player

/-- **Every way a play does not return true**: it is refused, an `Error` leaves the loading of the library, or it comes
to stop the video before. -/
theorem play_failed {p : Player} {file : Option Fi} {e : PlayEnv} (h : (p.play (φ := φ) file e).result ≠ .ok true) :
    (PlayCall.Refused φ ⟨p, file, e⟩ ∧ (PlayCall.mk p file e).loads = false ∧
      (p.play (φ := φ) file e).player = p ∧ (p.play (φ := φ) file e).events = []) ∨
    ((PlayCall.mk p file e).loads = true ∧ e.libraries = false ∧
      (p.play (φ := φ) file e).result = .error .linkage ∧
      (p.play (φ := φ) file e).player = p ∧ (p.play (φ := φ) file e).events = []) ∨
    (¬ PlayCall.Refused φ ⟨p, file, e⟩ ∧ (PlayCall.mk p file e).loads = true ∧
      (p.play (φ := φ) file e).player.playing = (p.clean (φ := φ)).1.playing ∧
      ∃ es, (p.play (φ := φ) file e).events = p.clean.2 ++ es) := by
  unfold PlayCall.Refused PlayCall.step PlayCall.loads
  revert h
  unfold play
  cases file with
  | none => exact fun _ => Or.inl ⟨Or.inl ⟨rfl, rfl⟩, rfl, rfl, rfl⟩
  | some f =>
      dsimp only
      cases he : e.fileExists with
      | false => exact fun _ => Or.inl ⟨Or.inr ⟨_, rfl⟩, rfl, rfl, rfl⟩
      | true =>
          cases hl : e.libraries with
          | false => exact fun _ => Or.inr (Or.inl ⟨rfl, rfl, rfl, rfl, rfl⟩)
          | true =>
              intro h
              refine Or.inr (Or.inr ?_)
              revert h
              cases hr : e.read with
              | none => exact fun _ => ⟨by simp, rfl, rfl, [], by simp⟩
              | some stream =>
                  cases hd : e.decoder with
                  | none => exact fun _ => ⟨by simp, rfl, rfl, _, rfl⟩
                  | some decoder =>
                      cases hb : e.load with
                      | null => exact fun _ => ⟨by simp, rfl, rfl, _, rfl⟩
                      | exception => exact fun _ => ⟨by simp, rfl, rfl, _, rfl⟩
                      | buffers b => exact fun h => absurd rfl h

theorem clean_stops {p : Player} (h : p.decoder = none → p.playing = false) :
    (p.clean (φ := φ)).1.playing = false ∧ ∀ d, p.decoder = some d → Event.disposeDecoder (φ := φ) d ∈ p.clean.2 := by
  unfold clean
  cases hd : p.decoder with
  | none => exact ⟨h hd, nofun⟩
  | some d =>
      refine ⟨rfl, fun d' hd' => ?_⟩
      cases hd'
      simp [stop, hd]

/-! ## The operations and their call of `play` -/

theorem restart_events (p : Player) (e : UpdateEnv φ) :
    ∃ after, (p.restart e).events = (p.play p.currentFile e.play).events ++ after := by
  unfold restart
  dsimp only
  split
  · exact ⟨_, rfl⟩
  · exact ⟨[], (List.append_nil _).symm⟩
  · exact ⟨[], (List.append_nil _).symm⟩

theorem update_restarts {p : Player} {e : UpdateEnv φ} (hr : p.restarts = true) (hv : e.videoData = none) :
    (p.update e).player = ((p.startClock e).1.play (φ := φ) (p.startClock e).1.currentFile e.play).player ∧
      ∃ before after, (p.update e).events =
        before ++ ((p.startClock e).1.play (p.startClock e).1.currentFile e.play).events ++ after := by
  rw [restarts, Bool.and_eq_true, Bool.and_eq_true, Bool.not_eq_true'] at hr
  obtain ⟨⟨hf, hfirst⟩, hlooping⟩ := hr
  obtain ⟨ha, hs⟩ := active_of_fetches hf
  obtain ⟨d, -, hu⟩ := update_of_active ha e
  have hadvance : (p.startClock e).1.advance d e =
      ⟨((p.startClock e).1.restart e).result, ((p.startClock e).1.restart e).player,
        [.nextVideoFrame d] ++ ((p.startClock e).1.restart e).events⟩ := by
    have hsame : (p.startClock e).1.showAlreadyDecodedFrame = false ∧ (p.startClock e).1.isFirstFrame = false ∧
        (p.startClock e).1.looping = true := by
      rw [startClock_eq]
      exact ⟨hs, hfirst, hlooping⟩
    unfold advance noFrame
    simp only [hsame.1, hsame.2.1, hsame.2.2, hv, Bool.not_false, if_true, Bool.false_eq_true, if_false]
  obtain ⟨after, hafter⟩ := restart_events (p.startClock e).1 e
  rw [hu, hadvance]
  refine ⟨restart_player _ e, (p.startClock e).2 ++ [.nextVideoFrame d], after, ?_⟩
  dsimp only
  rw [hafter]
  simp only [List.append_assoc]

/-- The calls of an operation are those of its call of `play` and some around them. -/
theorem apply_playCall {p : Player} {op : Op φ} {c : PlayCall} (h : p.playCall op = some c) :
    (p.apply op).player = (c.step φ).player ∧
      ∃ before after, (p.apply op).events = before ++ (c.step φ).events ++ after := by
  cases op with
  | play file e =>
      cases h
      exact ⟨rfl, [], [], by simp [apply, answer, PlayCall.step]⟩
  | update e =>
      obtain ⟨hr, h⟩ := Option.ite_none_right_eq_some.mp h
      cases h
      rw [Bool.and_eq_true, Option.isNone_iff_eq_none] at hr
      exact update_restarts hr.1 hr.2
  | _ => cases h

theorem playCall_player {p : Player} {op : Op φ} {c : PlayCall} (h : p.playCall op = some c) :
    c.player.decoder = p.decoder ∧ c.player.playing = p.playing := by
  cases op with
  | play file e =>
      cases h
      exact ⟨rfl, rfl⟩
  | update e =>
      obtain ⟨-, h⟩ := Option.ite_none_right_eq_some.mp h
      cases h
      dsimp only
      rw [startClock_eq]
      exact ⟨rfl, rfl⟩
  | _ => cases h

theorem apply_no_playCall {p : Player} {op : Op φ} (h : p.playCall op = none) :
    ((p.apply op).player.playing = true → p.playing = true) ∧
      ((p.apply op).player.decoder.isSome = true → p.decoder.isSome = true) := by
  cases hb : op.between with
  | true =>
      obtain ⟨hplaying, hdecoder, -, -⟩ := samePlay_between p hb
      exact ⟨fun hplay => hplaying ▸ hplay, fun hd => hdecoder ▸ hd⟩
  | false =>
      cases op with
      | play file e => cases h
      | update e =>
          have hnot : ¬ (p.restarts = true ∧ e.videoData.isNone = true) := fun hr => by
            simp [playCall, hr] at h
          have hq := update_advances hnot
          refine ⟨fun hplay => ?_, fun hd => ?_⟩
          · rcases hq.playing with hsame | ⟨ha, -⟩
            · exact hsame ▸ hplay
            · unfold active at ha
              exact (Bool.and_eq_true_iff.mp ha).2
          · exact hq.decoder ▸ hd
      | stop => exact ⟨nofun, nofun⟩
      | dispose => exact ⟨nofun, nofun⟩
      | _ => cases hb

end Player

theorem PlayCall.decoder_of_step {c : PlayCall} (h : (c.step φ).player.decoder.isSome = true) :
    c.player.decoder.isSome = true ∨ c.loads = true ∧ c.env.decoder.isSome = true := by
  have hp : Player.Played φ c.player c.file c.env _ _ := c.player.play_cases c.file c.env
  change (c.player.play c.file c.env).player.decoder.isSome = true at h
  generalize (c.player.play (φ := φ) c.file c.env).player = q at hp h
  generalize (c.player.play (φ := φ) c.file c.env).result = r at hp
  have hclean := Player.clean_decoder (φ := φ) c.player
  have hmade : ∀ f decoder, c.file = some f → c.env.fileExists = true → c.env.decoder = some decoder →
      c.loads = true ∧ c.env.decoder.isSome = true := by
    intro f decoder hf he hd
    rw [PlayCall.loads, hf, he, hd]
    exact ⟨rfl, rfl⟩
  cases hp with
  | null | notFound | linkage => exact Or.inl h
  | notRead | notLoaded =>
      rw [show _ = none from hclean] at h
      cases h
  | notOpened f stream decoder hf he _ _ hd => exact Or.inr (hmade f decoder hf he hd)
  | started f stream decoder b t hf he _ _ hd => exact Or.inr (hmade f decoder hf he hd)

/-! ## Every run -/

/-- The player and its objects go together, and a decoder is only there when the library is. -/
structure Host.Ready (s : Host) : Prop where
  sound : ∃ w, Sound s.player w
  loaded : s.player.decoder.isSome = true → s.loaded = true

theorem Host.flag_of_loaded {s : Host} (h : s.loaded = true) (op : Op φ) (first second : LibraryOutcome) :
    s.flag op first second = true := by
  unfold flag
  rw [h, LibraryLoader.prepare_loaded]
  split
  · split <;> rfl
  · rfl

theorem Host.agrees_of_loads {s : Host} {op : Op φ} {first second : LibraryOutcome} {c : PlayCall}
    (hc : s.player.playCall op = some c) (hl : c.loads = true) (ha : s.agrees op first second = true) :
    c.env.libraries = (LibraryLoader.prepare s.loaded first second).1 ∧
      c.env.decoder.isSome = s.flag op first second := by
  unfold agrees at ha
  unfold flag
  simp only [hc, hl, Bool.not_true, Bool.false_or, PlayEnv.agrees, Bool.and_eq_true, beq_iff_eq] at ha
  refine ⟨ha.1, ha.2.trans ?_⟩
  simp only [hc, hl, if_true]

theorem Host.flag_of_not_loads {s : Host} {op : Op φ} {c : PlayCall} (hc : s.player.playCall op = some c)
    (hl : c.loads = false) (first second : LibraryOutcome) : s.flag op first second = s.loaded := by
  unfold flag
  simp only [hc, hl, Bool.false_eq_true, if_false]

theorem Host.Ready.call {s : Host} (h : s.Ready) {op : Op φ} {first second : LibraryOutcome}
    (ha : s.agrees op first second = true) : Host.Ready ⟨(s.player.apply op).player, s.flag op first second⟩ := by
  obtain ⟨w, hw⟩ := h.sound
  obtain ⟨u, -, hu⟩ := Player.leads_apply s.player op w hw
  refine ⟨⟨u, hu⟩, fun hd => ?_⟩
  have hkept : s.player.decoder.isSome = true → s.flag op first second = true := fun hd =>
    Host.flag_of_loaded (h.loaded hd) op first second
  cases hc : s.player.playCall op with
  | none => exact hkept ((Player.apply_no_playCall hc).2 hd)
  | some c =>
      have hstep : (c.step φ).player.decoder.isSome = true := (Player.apply_playCall hc).1 ▸ hd
      rcases PlayCall.decoder_of_step hstep with hbefore | ⟨hloads, hmade⟩
      · exact hkept ((Player.playCall_player hc).1 ▸ hbefore)
      · exact (Host.agrees_of_loads hc hloads ha).2 ▸ hmade

theorem Host.ready_of_run {h : List (Host × HostAct φ)} {s : Host} (hr : (host φ).Run h s) :
    s.Ready := by
  refine System.RunWhen.induction (P := fun _ s => s.Ready) ?_ ?_ hr
  · rintro s ⟨looping, size, completion, hs⟩
    refine ⟨⟨Objects.start, ?_⟩, ?_⟩
    · rw [hs]
      exact Player.sound_start looping size completion
    · rw [hs]
      nofun
  · rintro h s a t - hs - hstep
    cases a with
    | call op first second =>
        obtain ⟨hagrees, hstep⟩ := Option.ite_none_right_eq_some.mp hstep
        cases hstep
        exact hs.call hagrees
    | loadLibraries outcome =>
        cases hstep
        refine ⟨hs.sound, fun hd => ?_⟩
        show (LibraryLoader.loadLibraries s.loaded outcome).2 = true
        rw [hs.loaded hd]
        rfl

/-! ## After a play that failed -/

/-- While nothing plays, nothing begins to play without a successful call of `play`. -/
theorem Host.stays_stopped {s t : Host} {a : HostAct φ} (h : s.player.playing = false) (hok : NoSuccess s a)
    (hs : s.step a = some t) : t.player.playing = false := by
  cases a with
  | loadLibraries outcome =>
      cases hs
      exact h
  | call op first second =>
      obtain ⟨-, hs⟩ := Option.ite_none_right_eq_some.mp hs
      cases hs
      cases hc : s.player.playCall op with
      | none => exact Bool.eq_false_iff.mpr fun hp => absurd ((Player.apply_no_playCall hc).1 hp) (by simp [h])
      | some c =>
          have hplaying : c.player.playing = false := (Player.playCall_player hc).2.trans h
          show (s.player.apply op).player.playing = false
          rw [(Player.apply_playCall hc).1]
          rcases Player.play_failed (hok c hc) with ⟨-, -, hsame, -⟩ | ⟨-, -, -, hsame, -⟩ | ⟨-, -, hclean, -⟩
          · exact (congrArg Player.playing hsame).trans hplaying
          · exact (congrArg Player.playing hsame).trans hplaying
          · exact hclean.trans (Player.clean_stops (φ := φ) fun _ => hplaying).1

/-- A stopped player: until a play succeeds every update returns false and does nothing. -/
theorem Host.idle_of_stopped {t u : Host} {h : List (Host × HostAct φ)} (ht : t.player.playing = false)
    (hp : (host φ).Path NoSuccess t h u) : ∀ p ∈ h, ∀ e : UpdateEnv φ,
      p.1.player.update e = ⟨.ok false, p.1.player, []⟩ := by
  intro p hmem e
  have hstopped : p.1.player.playing = false :=
    hp.invariant_before (P := fun s => s.player.playing = false) (fun _ _ _ => Host.stays_stopped) ht p hmem
  refine Player.update_of_inactive ?_ e
  rw [Player.active, hstopped, Bool.and_false]

theorem PlayCall.Refused.failed {c : PlayCall} (h : c.Refused φ) :
    (c.step φ).result ≠ .ok true ∧ (c.step φ).result ≠ .error .linkage := by
  rcases h with ⟨-, hres⟩ | ⟨message, hres⟩
  · rw [hres]
    simp
  · rw [hres]
    simp

section
variable {s : Host} {op : Op φ} {first second : LibraryOutcome} {c : PlayCall}

/-- A play that is refused changes nothing. -/
theorem Host.undisturbed_of_refused (hc : s.player.playCall op = some c) (hrefused : c.Refused φ) :
    Undisturbed φ s c ⟨(s.player.apply op).player, s.flag op first second⟩ := by
  obtain ⟨hfailed, hlinkage⟩ := hrefused.failed
  rcases Player.play_failed hfailed with ⟨-, hloads, hsame, hnone⟩ | ⟨-, -, hres, -, -⟩ | ⟨hnot, -⟩
  · refine ⟨?_, hnone⟩
    rw [Host.flag_of_not_loads hc hloads, (Player.apply_playCall hc).1]
    exact congrArg (Host.mk · s.loaded) hsame
  · exact absurd hres hlinkage
  · exact absurd hrefused hnot

/-- A play that fails later closes the decoder before it, if there was one, and leaves nothing playing. -/
theorem Host.closed_of_failed (hready : s.Ready) (hagrees : s.agrees op first second = true)
    (hc : s.player.playCall op = some c) (hnot : ¬ c.Refused φ) (hfailed : (c.step φ).result ≠ .ok true) :
    (c.step φ).player.playing = false ∧
      ∀ d, c.player.decoder = some d → Event.disposeDecoder d ∈ (c.step φ).events := by
  obtain ⟨hdecoder, hplaying⟩ := Player.playCall_player hc
  have hidle : c.player.decoder = none → c.player.playing = false := by
    obtain ⟨w, hw⟩ := hready.sound
    rw [hdecoder, hplaying]
    exact fun hnone => (Player.sound_idle hw hnone).1
  rcases Player.play_failed hfailed with ⟨hrefused, -⟩ | ⟨hloads, hlib, -, hsame, -⟩ | ⟨-, -, hclean, es, hes⟩
  · exact absurd hrefused hnot
  · -- the library is missing, so there was no decoder and nothing played
    have hreturned : (LibraryLoader.prepare s.loaded first second).1 = false :=
      (Host.agrees_of_loads hc hloads hagrees).1.symm.trans hlib
    have hmissing : s.loaded = false := LibraryLoader.not_loaded_of_error hreturned
    have hnone : c.player.decoder = none := by
      by_contra hsome
      rw [hdecoder, ← ne_eq, Option.ne_none_iff_isSome] at hsome
      exact absurd ((hready.loaded hsome).symm.trans hmissing) Bool.false_ne_true.symm
    refine ⟨(congrArg Player.playing hsame).trans (hidle hnone), fun d hd => ?_⟩
    rw [hnone] at hd
    cases hd
  · obtain ⟨hstop, hclosed⟩ := Player.clean_stops (φ := φ) hidle
    refine ⟨hclean.trans hstop, fun d hd => ?_⟩
    show _ ∈ (c.player.play c.file c.env).events
    rw [hes]
    exact List.mem_append_left _ (hclosed d hd)

end

/-- **A play that does not start leaves a defined state**, in every reachable state and whatever is answered: refused,
it changes nothing; failed later, the video before is stopped and nothing happens until a play succeeds. -/
theorem failed_play_defined {h : List (Host × HostAct φ)} {s t : Host} (hr : (host φ).Run h s)
    {op : Op φ} {first second : LibraryOutcome} (hs : (host φ).step s (.call op first second) = some t)
    {c : PlayCall} (hc : s.player.playCall op = some c) :
    (c.Refused φ → Undisturbed φ s c t) ∧
      (¬ c.Refused φ → (c.step φ).result ≠ .ok true → Stopped φ c (s.player.apply op).events t) := by
  obtain ⟨hagrees, hs⟩ := Option.ite_none_right_eq_some.mp hs
  cases hs
  refine ⟨Host.undisturbed_of_refused hc, fun hnot hfailed => ?_⟩
  obtain ⟨hplaying, hclosed⟩ := Host.closed_of_failed (Host.ready_of_run hr) hagrees hc hnot hfailed
  obtain ⟨hplayer, before, after, hevents⟩ := Player.apply_playCall hc
  have hafter : (s.player.apply op).player.playing = false := hplayer ▸ hplaying
  refine ⟨fun d hd => ?_, hafter, fun h u hp p hmem e _ _ _ => Host.idle_of_stopped hafter hp p hmem e⟩
  rw [hevents]
  exact List.mem_append_left _ (List.mem_append_right _ (hclosed d hd))

def playOf (d : Nat) (load : LoadOutcome) : Op Nat := .play (some ⟨"v"⟩) ⟨true, true, some d, some d, load, none⟩

/-- A video plays, and a second play cannot open its stream. -/
theorem failed_play_stops : ∃ h s t c, (host Nat).Run h s ∧ s.player.playing = true ∧ s.player.decoder = some 0 ∧
    s.player.playCall (playOf 1 .null) = some c ∧ (host Nat).step s (.call (playOf 1 .null) .loaded .loaded) = some t ∧
      Stopped Nat c (s.player.apply (playOf 1 .null)).events t := by
  have he : ∃ r, (host Nat).exec ⟨Player.new false false false, false⟩
      [.call (playOf 0 (.buffers ⟨false, 32, 32, 8⟩)) .loaded .loaded] = some r ∧ r.2.player.playing = true ∧
      r.2.player.decoder = some 0 ∧
      ∃ t, (host Nat).step r.2 (.call (playOf 1 .null) .loaded .loaded) = some t := ⟨_, rfl, rfl, rfl, _, rfl⟩
  obtain ⟨⟨h, s⟩, he, hplaying, hdecoder, t, ht⟩ := he
  have hr : (host Nat).Run h s := System.run_of_exec ⟨false, false, false, rfl⟩ he
  have hc : s.player.playCall (playOf 1 .null) =
      some ⟨s.player, some ⟨"v"⟩, ⟨true, true, some 1, some 1, .null, none⟩⟩ := rfl
  refine ⟨h, s, t, _, hr, hplaying, hdecoder, hc, ht, (failed_play_defined hr ht hc).2 ?_ ?_⟩
  · simp [PlayCall.Refused, PlayCall.step, Player.play]
  · simp [PlayCall.step, Player.play]

end ArcVideo
