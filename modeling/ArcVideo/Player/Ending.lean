import ArcVideo.Player.Calls
import ArcVideo.Player.NewFrames

/-!
# The end of a playback

* `NativeDecoder.drained` : the decoder has ended and all its frames have been delivered, so that `nextVideoFrame`
  returns NULL;
* `EndsWell` : on that NULL `update` restarts the file, or stops playing and calls the completion listener;
* `Playback.Stuck` : the player plays a drained decoder, and no update does anything while the frame on screen stays and
  the clock goes on;
* `Player.EndsIn` : one of a list of updates ends the video; it does once the clock has come to 20 ms before the
  timestamp (`Player.ends_of_due`);
* `keepsEnding` : the condition on a step. A stream does not end without a frame, and a restart succeeds, or fails with
  no listener to be told;
* `ends_visibly` : the condition is enough; `never_ends`, `ends_unnoticed` : runs that break it.
-/

namespace ArcVideo
open Conc

variable {φ π : Type}

/-! ## The property -/

/-- The stream has ended and all its frames have been delivered. -/
def NativeDecoder.drained (n : NativeDecoder φ π) : Bool :=
  n.state.shared.videoOutputEnded && decide (n.state.shared.totalFramesBuffered ≤ n.state.shared.currentFrameDisplayed)

def Player.restartResult (p : Player) (e : UpdateEnv φ) : Except JavaException Bool :=
  (p.play (φ := φ) p.currentFile e.play).result

/-- The update restarts the file with a new decoder, or it stops playing and calls the listener with the file. -/
def EndsWell (p : Player) (e : UpdateEnv φ) : Prop :=
  (p.looping = true ∧ p.restartResult e = .ok true ∧ (p.update e).player.playing = true ∧
    (∃ d, e.play.decoder = some d ∧ (p.update e).player.decoder = some d) ∧ (p.update e).completions = []) ∨
  ((p.looping = false ∨ p.restartResult e = .ok false) ∧ (p.update e).player.playing = false ∧
    ∃ f, p.currentFile = some f ∧ (p.update e).completions = if p.videoCompletionListener then [some f] else [])

/-- An update to which `nextVideoFrame` returns NULL. -/
def UpdateEnv.null (e : UpdateEnv φ) : UpdateEnv φ := { e with videoData := none }

/-- Updates with the frame of timestamp `t` on screen: `nextVideoFrame` returns NULL, the timestamp stays, and the
clock, which reads `now` before them, does not go back. -/
def Waits (t : Int) : Int → List (UpdateEnv φ) → Prop
  | _, [] => True
  | now, e :: es => e.videoData = none ∧ e.timestamp = t ∧ now ≤ e.now ∧ e.now ≤ e.later ∧ Waits t e.later es

theorem Waits.null {t : Int} {es : List (UpdateEnv φ)} : ∀ {now : Int}, Waits t now es →
    ∀ e ∈ es, e.videoData = none := by
  induction es with
  | nil => exact fun _ e he => absurd he List.not_mem_nil
  | cons x es ih =>
      rintro now ⟨hv, -, -, -, hes⟩ e he
      rcases List.mem_cons.mp he with rfl | he
      · exact hv
      · exact ih hes e he

/-- The player goes on playing, with no completion and no new decoder, through all such updates. -/
def Player.idles (φ : Type) (t now : Int) (p : Player) : Prop :=
  ∀ es : List (UpdateEnv φ), Waits t now es → (p.run (es.map Op.update)).playing = true ∧
    ∀ x ∈ p.calls (es.map Op.update), x.completion = none ∧ ∀ d, x ≠ .newDecoder d

/-- The timestamp `getCurrentFrameTimestamp` reads, in the time base of the stream. -/
def NativeDecoder.pts (n : NativeDecoder φ π) : Int := (n.state.shared.rgbFrames n.state.shared.getReadIndex).pts

/-- Between two updates, the player plays, unpaused, a decoder that is drained. -/
structure Playback.Spent (s : Playback φ π) : Prop where
  playing : s.player.playing = true
  unpaused : s.player.paused = false
  between : s.calling = none
  drained : s.native.drained = true

/-- All further updates do nothing; `ms` is `getCurrentTimestamp` of a timestamp of the stream, and the clock reads
`now`. -/
structure Playback.Stuck (s : Playback φ π) (ms : Int → Int) (now : Int) : Prop where
  spent : s.Spent
  idles : s.player.idles (Shown φ) (ms s.native.pts) now

/-- The frame on screen is not more than 20 ms ahead of the clock when the update shows it again. -/
def Player.due (p : Player) (e : UpdateEnv φ) : Prop := e.timestamp - (e.later - (p.startClock e).1.startTime) ≤ 20

/-! ## The condition -/

def NativeDecoder.atNull (n : NativeDecoder φ π) : Bool := n.state.consumer = .returnNull

/-- A restart succeeds, or fails with no completion listener to be told. -/
def Player.mayRestart (p : Player) (e : UpdateEnv φ) : Bool :=
  match p.restartResult e with
  | .ok true => true
  | .ok false => !p.videoCompletionListener
  | .error _ => false

theorem Player.mayRestart_iff (p : Player) (e : UpdateEnv φ) : p.mayRestart e = true ↔
    p.restartResult e = .ok true ∨ p.restartResult e = .ok false ∧ p.videoCompletionListener = false := by
  unfold Player.mayRestart
  cases p.restartResult e with
  | error x => simp
  | ok b => cases b <;> simp

/-- `run` does not end the video before it has decoded a frame; and when the NULL at the end restarts a video, the play
succeeds, or returns false with no completion listener set. -/
def keepsEnding (s : Playback φ π) : PlaybackAct φ π → Bool
  | .native ⟨.run, .step⟩ => !s.native.state.run.settingEnded || decide (1 ≤ s.native.state.shared.totalFramesBuffered)
  | .answer _ _ =>
    match s.calling with
    | none => true
    | some e => !(s.player.looping && s.native.atNull && s.native.drained) || s.player.mayRestart e
  | _ => true

/-- One of the updates `es` fetches, and ends the playback if the restart of a looping video succeeds, or fails with no
completion listener to be told. -/
def Player.EndsIn (p : Player) (es : List (UpdateEnv φ)) : Prop :=
  ∃ es₁ e es₂, es = es₁ ++ e :: es₂ ∧ (p.run (es₁.map Op.update)).fetches = true ∧
    (((p.run (es₁.map Op.update)).looping = true → (p.run (es₁.map Op.update)).mayRestart e = true) →
      EndsWell (p.run (es₁.map Op.update)) e)

/-! ## What an update leaves -/

namespace Player

variable {p : Player} {e : UpdateEnv φ}

/-- An update that fetches NULL: before the first frame, at a restart, at the end. -/
theorem update_null_cases (h : p.fetches = true) (hv : e.videoData = none) :
    p.isFirstFrame = true ∧ (p.update e).player = (p.startClock e).1 ∨
      p.restarts = true ∧ (p.update e).player = ((p.startClock e).1.play (φ := φ) p.currentFile e.play).player ∨
      p.completes = true ∧ (p.update e).player = { (p.startClock e).1 with playing := false } := by
  obtain ⟨ha, hs⟩ := active_of_fetches h
  have hu : Updated p e _ _ := p.update_cases e
  generalize (p.update e).player = q at hu ⊢
  generalize (p.update e).result = r at hu
  cases hu with
  | inactive hi => exact absurd (hi.symm.trans ha) Bool.false_ne_true
  | shown v t _ _ hv' => exact absurd (hv.symm.trans hv') nofun
  | starved _ _ _ hf => exact Or.inl ⟨hf, rfl⟩
  | restarted _ _ _ hf hl =>
      refine Or.inr (Or.inl ⟨by simp [restarts, h, hf, hl], ?_⟩)
      rw [restart_player, startClock_eq]
  | ended _ _ _ hf hl => exact Or.inr (Or.inr ⟨by simp [completes, h, hf, hl], rfl⟩)
  | again _ hs' => exact absurd (hs.symm.trans hs') Bool.false_ne_true

theorem clean_playing (hd : p.decoder.isSome = true) : (p.clean (φ := φ)).1.playing = false := by
  unfold clean
  rw [if_pos hd]
  rfl

theorem play_false (hd : p.decoder.isSome = true) {f : Fi} {b : PlayEnv}
    (h : (p.play (φ := φ) (some f) b).result = .ok false) : (p.play (φ := φ) (some f) b).player.playing = false := by
  have hp : Played φ p (some f) b _ _ := p.play_cases (some f) b
  rw [h] at hp
  generalize (p.play (φ := φ) (some f) b).player = q at hp ⊢
  cases hp with
  | null hf => cases hf
  | notOpened g stream d => exact clean_playing (φ := φ) hd

theorem decoder_of_fetches (h : p.fetches = true) : p.decoder.isSome = true ∧ p.playing = true := by
  obtain ⟨ha, -⟩ := active_of_fetches h
  rw [active, Bool.and_eq_true, Bool.and_eq_true] at ha
  exact ⟨ha.1.1, ha.2⟩

/-- **The NULL at the end** of a video of which a frame has been shown. -/
theorem endsWell (h : p.fetches = true) (hv : e.videoData = none) (hfirst : p.isFirstFrame = false) {f : Fi}
    (hfile : p.currentFile = some f) (hres : p.looping = true → p.restartResult e = .ok true ∨
      p.restartResult e = .ok false ∧ p.videoCompletionListener = false) : EndsWell p e := by
  obtain ⟨-, -, hcomp⟩ := update_null h hv
  cases hl : p.looping with
  | false =>
      have hends : p.completes = true := by simp [completes, h, hfirst, hl]
      rw [hends, Bool.true_and, hfile] at hcomp
      refine Or.inr ⟨Or.inl hl, ?_, f, hfile, hcomp⟩
      rcases update_null_cases h hv with ⟨hf, -⟩ | ⟨hr, -⟩ | ⟨-, hq⟩
      · exact absurd (hfirst.symm.trans hf) Bool.false_ne_true
      · simp [restarts, hl] at hr
      · rw [hq]
  | true =>
      have hends : p.completes = false := by simp [completes, hl]
      rw [hends, Bool.false_and, if_neg Bool.false_ne_true] at hcomp
      have hq : (p.update e).player = ((p.startClock e).1.play (φ := φ) p.currentFile e.play).player := by
        rcases update_null_cases h hv with ⟨hf, -⟩ | ⟨-, hq⟩ | ⟨hc, -⟩
        · exact absurd (hfirst.symm.trans hf) Bool.false_ne_true
        · exact hq
        · exact absurd (hends.symm.trans hc) Bool.false_ne_true
      have hsame : ((p.startClock e).1.play (φ := φ) p.currentFile e.play).result = p.restartResult e :=
        play_result _ _ _ _
      rcases hres hl with hok | ⟨hno, hlist⟩
      · obtain ⟨g, stream, d, b, t, -, -, hd, -, hplayer⟩ := play_started (hsame.trans hok)
        refine Or.inl ⟨hl, hok, ?_, ⟨d, hd, ?_⟩, hcomp⟩
        · rw [hq, hplayer]
        · rw [hq, hplayer]
          rfl
      · refine Or.inr ⟨Or.inr hno, ?_, f, hfile, ?_⟩
        · rw [hq, hfile]
          rw [hfile] at hsame
          refine play_false ?_ (hsame.trans hno)
          rw [startClock_eq]
          exact (decoder_of_fetches h).1
        · rw [hcomp, hlist, if_neg Bool.false_ne_true]

theorem update_unfetched_cases (h : p.fetches = false) (e : UpdateEnv φ) :
    p.active = false ∧ (p.update e).player = p ∨
      p.active = true ∧ (p.update e).player = ((p.startClock e).1.showFrame e).1 := by
  have hu : Updated p e _ _ := p.update_cases e
  generalize (p.update e).player = q at hu ⊢
  generalize (p.update e).result = r at hu
  have hfetch : p.active = true → p.showAlreadyDecodedFrame = false → False := fun ha hs => by
    simp [fetches, ha, hs] at h
  cases hu with
  | inactive hi => exact Or.inl ⟨hi, rfl⟩
  | again ha => exact Or.inr ⟨ha, rfl⟩
  | shown _ _ ha hs => exact (hfetch ha hs).elim
  | starved ha hs => exact (hfetch ha hs).elim
  | restarted ha hs => exact (hfetch ha hs).elim
  | ended ha hs => exact (hfetch ha hs).elim

theorem playing_unfetched (h : p.fetches = false) (e : UpdateEnv φ) (hq : (p.update e).player.playing = true) :
    p.playing = true := by
  rcases update_unfetched_cases h e with ⟨-, he⟩ | ⟨-, he⟩
  · rwa [he] at hq
  · rw [he, startClock_eq] at hq
    exact hq

/-! ## Updates that are given NULL -/

theorem run_cons (p : Player) (e : UpdateEnv φ) (es : List (UpdateEnv φ)) :
    p.run ((e :: es).map Op.update) = (p.update e).player.run (es.map Op.update) ∧
      p.calls ((e :: es).map Op.update) = (p.update e).events ++ (p.update e).player.calls (es.map Op.update) :=
  ⟨rfl, rfl⟩

/-- The player plays the file `f`, unpaused, with a frame on screen. -/
structure OnScreen (p : Player) (f : Fi) : Prop where
  decoder : p.decoder.isSome = true
  playing : p.playing = true
  unpaused : p.paused = false
  shown : p.isFirstFrame = false
  file : p.currentFile = some f

theorem OnScreen.active {f : Fi} (h : p.OnScreen f) : p.active = true := by
  simp [Player.active, h.decoder, h.playing, h.unpaused]

theorem OnScreen.again {f : Fi} (h : p.OnScreen f) (hf : p.fetches = false) (e : UpdateEnv φ) :
    (p.update e).player.OnScreen f ∧ (p.due e → (p.update e).player.fetches = true) := by
  rcases update_unfetched_cases hf e with ⟨hi, -⟩ | ⟨-, hq⟩
  · exact absurd (hi.symm.trans h.active) Bool.false_ne_true
  · have hsame : ((p.startClock e).1.showFrame e).1.OnScreen f := by
      rw [startClock_eq]
      exact ⟨h.decoder, h.playing, h.unpaused, rfl, h.file⟩
    rw [hq]
    refine ⟨hsame, fun hdue => ?_⟩
    have hdue' : ¬ e.timestamp - (e.later - (p.startClock e).1.startTime) > 20 := not_lt.mpr hdue
    rw [fetches, hsame.active, Bool.true_and, Bool.not_eq_true']
    exact decide_eq_false hdue'

theorem EndsIn.head {f : Fi} (h : p.OnScreen f) (hf : p.fetches = true) (hv : e.videoData = none)
    (es : List (UpdateEnv φ)) : p.EndsIn (e :: es) :=
  ⟨[], e, es, rfl, hf, fun hres => endsWell hf hv h.shown h.file fun hl => (p.mayRestart_iff e).mp (hres hl)⟩

theorem EndsIn.tail {es : List (UpdateEnv φ)} (h : (p.update e).player.EndsIn es) : p.EndsIn (e :: es) := by
  obtain ⟨es₁, x, es₂, rfl, hends⟩ := h
  exact ⟨e :: es₁, x, es₂, rfl, hends⟩

/-- **Once the clock has come to 20 ms before the timestamp** of the frame on screen, the next update given NULL ends
the video, if none before it did. -/
theorem ends_of_due {f : Fi} {es : List (UpdateEnv φ)} {e' : UpdateEnv φ} (h : p.OnScreen f)
    (hnull : ∀ x ∈ es ++ [e, e'], x.videoData = none) (hdue : (p.run (es.map Op.update)).due e) :
    p.EndsIn (es ++ [e, e']) := by
  induction es generalizing p with
  | nil =>
      cases hf : p.fetches with
      | true => exact .head h hf (hnull e List.mem_cons_self) [e']
      | false =>
          obtain ⟨hq, hnext⟩ := h.again hf e
          exact .tail (.head hq (hnext hdue) (hnull e' (List.mem_cons_of_mem _ (List.mem_singleton_self e'))) [])
  | cons x es ih =>
      cases hf : p.fetches with
      | true => exact .head h hf (hnull x List.mem_cons_self) _
      | false =>
          obtain ⟨hq, -⟩ := h.again hf x
          exact .tail (ih hq (fun y hy => hnull y (List.mem_cons_of_mem _ hy)) hdue)

/-! ## Doing nothing -/

theorem idles.tail {t now : Int} (h : p.idles φ t now) (hv : e.videoData = none) (ht : e.timestamp = t)
    (hnow : now ≤ e.now) (hlater : e.now ≤ e.later) : (p.update e).player.idles φ t e.later := by
  intro es hes
  obtain ⟨hplays, hcalls⟩ := h (e :: es) ⟨hv, ht, hnow, hlater, hes⟩
  rw [(run_cons p e es).1] at hplays
  rw [(run_cons p e es).2] at hcalls
  exact ⟨hplays, fun x hx => hcalls x (List.mem_append_right _ hx)⟩

theorem idles.playing {t now : Int} (h : p.idles φ t now) : p.playing = true := (h [] trivial).1

/-- An update given NULL, with the frame of timestamp `t` on screen; a restart finds nothing to read. -/
def probe (t now later : Int) : UpdateEnv φ := ⟨now, none, 0, later, t, 0, ⟨true, true, none, none, .null, none⟩⟩

theorem not_idles_of_fetches {f : Fi} (h : p.OnScreen f) (hf : p.fetches = true) (t now : Int) : ¬ p.idles φ t now := by
  intro hidle
  have hplays := (hidle.tail (e := probe t now now) rfl rfl le_rfl le_rfl).playing
  rcases update_null_cases (e := probe (φ := φ) t now now) hf rfl with ⟨hfirst, -⟩ | ⟨-, hq⟩ | ⟨-, hq⟩
  · exact absurd (h.shown.symm.trans hfirst) Bool.false_ne_true
  · have hd : (p.startClock (φ := φ) (probe t now now)).1.decoder.isSome = true := by
      rw [startClock_eq]
      exact h.decoder
    have hstop : ((p.startClock (φ := φ) (probe t now now)).1.play (φ := φ) p.currentFile
        (probe (φ := φ) t now now).play).player.playing = false := by
      rw [h.file]
      exact clean_playing (φ := φ) hd
    rw [hq, hstop] at hplays
    cases hplays
  · rw [hq] at hplays
    cases hplays

/-- A player with a frame on screen does not idle: the clock comes to the timestamp. -/
theorem not_idles {f : Fi} (h : p.OnScreen f) (t now : Int) : ¬ p.idles φ t now := by
  cases hf : p.fetches with
  | true => exact not_idles_of_fetches h hf t now
  | false =>
      intro hidle
      let start : Int := if !p.paused && p.startTime == 0 then now else p.startTime
      have htail := hidle.tail (e := probe t now (max now (start + t))) rfl rfl le_rfl (le_max_left _ _)
      obtain ⟨hq, hnext⟩ := h.again hf (probe (φ := φ) t now (max now (start + t)))
      refine not_idles_of_fetches hq (hnext ?_) t _ htail
      rw [due, startClock_eq]
      show t - (max now (start + t) - start) ≤ 20
      omega

/-- A player that plays before its first frame, with nothing to be shown again, does nothing on NULL. -/
theorem quiet_of_first (hd : p.decoder.isSome = true) (hp : p.playing = true) (hfirst : p.isFirstFrame = true)
    (hs : p.showAlreadyDecodedFrame = false) {es : List (UpdateEnv φ)} (hes : ∀ e ∈ es, e.videoData = none) :
    (p.run (es.map Op.update)).playing = true ∧
      ∀ x ∈ p.calls (es.map Op.update), x.completion = none ∧ ∀ d, x ≠ .newDecoder d := by
  induction es generalizing p with
  | nil => exact ⟨hp, fun x hx => absurd hx List.not_mem_nil⟩
  | cons e es ih =>
      have hactive : p.active = true := by simp [active, hd, hp, hfirst]
      obtain ⟨d, -, hu⟩ := update_of_active hactive e
      have hstarved : (p.startClock e).1.advance d e = ⟨.ok false, (p.startClock e).1, [.nextVideoFrame d]⟩ := by
        rw [startClock_eq]
        simp [advance, noFrame, hs, hfirst, hes e List.mem_cons_self]
      have hquiet : ∀ x ∈ (p.startClock e).2, x.completion = none ∧ ∀ d, x ≠ .newDecoder d := fun x hx => by
        refine ⟨(plain_startClock p e x hx).2, fun d hxd => ?_⟩
        have hq := (quiet_startClock p e).calls x hx
        rw [hxd] at hq
        cases hq
      rw [(run_cons p e es).1, (run_cons p e es).2, hu, hstarved]
      obtain ⟨hplays, hcalls⟩ := ih (p := (p.startClock e).1) (by rw [startClock_eq]; exact hd)
        (by rw [startClock_eq]; exact hp) (by rw [startClock_eq]; exact hfirst) (by rw [startClock_eq]; exact hs)
        (fun e' he' => hes e' (List.mem_cons_of_mem _ he'))
      refine ⟨hplays, fun x hx => ?_⟩
      rcases List.mem_append.mp hx with hx | hx
      · rcases List.mem_append.mp hx with hx | hx
        · exact hquiet x hx
        · rw [List.mem_singleton.mp hx]
          exact ⟨rfl, by simp⟩
      · exact hcalls x hx

theorem idles_of_first (hd : p.decoder.isSome = true) (hp : p.playing = true) (hfirst : p.isFirstFrame = true)
    (hs : p.showAlreadyDecodedFrame = false) (t now : Int) : p.idles φ t now := fun _ hes =>
  quiet_of_first hd hp hfirst hs hes.null

end Player

/-! ## The decoder -/

namespace NativeDecoder

/-- The destructor does not run, and the stream has not ended without a frame. -/
structure Yields (n : NativeDecoder φ π) : Prop where
  live : n.state.consumer.deleting = false
  yields : n.state.shared.videoOutputEnded = true → 1 ≤ n.state.shared.totalFramesBuffered

theorem yields_started (c : Container) (file : List (Demuxed π)) : (started c file : NativeDecoder φ π).Yields :=
  ⟨rfl, nofun⟩

end NativeDecoder

theorem ConsumerMove.live {a : ConsumerAct} {l l' : ConsumerPc} {d d' : VideoDecoder φ π}
    (h : ConsumerMove a l d l' d') (ha : a ≠ .delete) (hl : l.deleting = false) : l'.deleting = false := by
  cases h with
  | delete => exact absurd rfl ha
  | delLock | delVideo | delAudio | delSignal | delUnlock | delJoin | delFree => cases hl
  | bufFull | bufEnded => split_ifs <;> rfl
  | _ => rfl

/-- The stream ends only in `run`, at the place where `videoOutputEnded` is set. -/
theorem RunMove.ends {c : Container} {a : RunAct φ} {l l' : RunPc φ π} {d d' : VideoDecoder φ π}
    (h : RunMove c a l d l' d') (he : d'.videoOutputEnded = true) :
    d.videoOutputEnded = true ∨ a = .step ∧ l.settingEnded = true := by
  cases h with
  | setEnded => exact Or.inr ⟨rfl, rfl⟩
  | _ => exact Or.inl he

theorem NativeDecoder.Yields.step {n n' : NativeDecoder φ π} {a : Action φ} (hn : n.Yields) (h : n.step a = some n')
    (ha : a ≠ ⟨.consumer, .delete⟩)
    (hok : a = ⟨.run, .step⟩ → n.state.run.settingEnded = true → 1 ≤ n.state.shared.totalFramesBuffered) :
    n'.Yields := by
  obtain ⟨t, a⟩ := a
  have hend : n'.state.shared.videoOutputEnded = true → 1 ≤ n.state.shared.totalFramesBuffered ∧
      n.state.shared.totalFramesBuffered ≤ n'.state.shared.totalFramesBuffered := by
    obtain ⟨s, hs, rfl⟩ := step_eq h
    obtain ⟨l, d, hmove, rfl⟩ := Program.next_eq_some hs
    intro he
    refine ⟨?_, (step_effect hmove).total_le⟩
    cases t with
    | run =>
        rcases (run_move hmove).ends he with he | ⟨rfl, hset⟩
        · exact hn.yields he
        · exact hok rfl hset
    | audio => exact hn.yields ((step_effect hmove).ended_eq rfl ▸ he)
    | consumer =>
        have hm := consumer_move hmove
        rcases hm.deleting.2 he with he | hdel
        · exact hn.yields he
        · exact absurd (hm.live (fun hd => ha (by rw [hd])) hn.live) (by rw [hdel]; nofun)
  refine ⟨?_, fun he => (hend he).1.trans (hend he).2⟩
  by_cases ht : t = .consumer
  · subst ht
    exact (consumer_step h).live (fun hd => ha (by rw [hd])) hn.live
  · rw [consumer_eq ht h]
    exact hn.live

theorem NativeDecoder.Yields.delivered {n : NativeDecoder φ π} (hn : n.Yields) (hr : n.Recorded) (hd : n.drained = true)
    (htaken : n.state.consumer.taken = false) : 1 ≤ (framesDelivered n.record).length := by
  rw [drained, Bool.and_eq_true, decide_eq_true_eq] at hd
  have hpos := hn.yields hd.1
  have hnum := queueFrom_eq hr
  rw [queueFrom, htaken, if_neg Bool.false_ne_true] at hnum
  omega

/-! ## What every playback keeps -/

def ConsumerPc.inCall : ConsumerPc → Bool
  | .readTotal | .readDisplayed _ | .readEnded _ | .readZero _ | .lock | .advance | .signal | .unlock | .returnFrame _
  | .returnNull => true
  | _ => false

theorem ConsumerPc.inCall_of_taken {l : ConsumerPc} (h : l.taken = true) : l.inCall = true := by
  cases l <;> first | rfl | cases h

theorem ConsumerMove.inCall {a : ConsumerAct} {l l' : ConsumerPc} {d d' : VideoDecoder φ π}
    (h : ConsumerMove a l d l' d') (ha : a ≠ .nextVideoFrame) (hl : l'.inCall = true) : l.inCall = true := by
  cases h with
  | nextVideoFrame => exact absurd rfl ha
  | bufFull | bufEnded => split_ifs at hl <;> cases hl
  | _ => first | rfl | cases hl

structure SamePlay (p q : Player) : Prop where
  playing : q.playing = p.playing
  decoder : q.decoder = p.decoder
  isFirstFrame : q.isFirstFrame = p.isFirstFrame
  currentFile : q.currentFile = p.currentFile

theorem samePlay_between (p : Player) {op : Op φ} (h : op.between = true) : SamePlay p (p.apply op).player := by
  cases op with
  | play | update | stop | dispose => cases h
  | pause now =>
      unfold Player.apply Player.done Player.pause
      dsimp only
      split <;> exact ⟨rfl, rfl, rfl, rfl⟩
  | resume now =>
      unfold Player.apply Player.done Player.resume
      dsimp only
      split <;> exact ⟨rfl, rfl, rfl, rfl⟩
  | setFilter minFilter magFilter =>
      unfold Player.apply Player.done Player.setFilter
      dsimp only
      split <;> exact ⟨rfl, rfl, rfl, rfl⟩
  | _ => exact ⟨rfl, rfl, rfl, rfl⟩

theorem samePlay_startClock (p : Player) (e : UpdateEnv φ) : SamePlay p (p.startClock e).1 := by
  rw [Player.startClock_eq]
  exact ⟨rfl, rfl, rfl, rfl⟩

structure InPlay (p : Player) (delivered : Nat) : Prop where
  file : ∃ f, p.currentFile = some f
  decoder : p.playing = true → p.decoder.isSome = true
  shown : p.playing = true → 1 ≤ delivered → p.isFirstFrame = false

theorem InPlay.same {p q : Player} {k : Nat} (h : InPlay p k) (hq : SamePlay p q) : InPlay q k := by
  obtain ⟨hp, hd, hf, hc⟩ := hq
  refine ⟨?_, ?_, ?_⟩
  · rw [hc]
    exact h.file
  · rw [hp, hd]
    exact h.decoder
  · rw [hp, hf]
    exact h.shown

theorem InPlay.show {p q : Player} {k m : Nat} (h : InPlay p k) (hp : q.playing = p.playing)
    (hd : q.decoder = p.decoder) (hc : q.currentFile = p.currentFile) (hf : q.isFirstFrame = false) : InPlay q m := by
  refine ⟨?_, ?_, fun _ _ => hf⟩
  · rw [hc]
    exact h.file
  · rw [hp, hd]
    exact h.decoder

theorem inPlay_started {p : Player} {file : Option Fi} {e : PlayEnv} (h : (p.play (φ := φ) file e).result = .ok true) :
    InPlay (p.play (φ := φ) file e).player 0 := by
  obtain ⟨f, stream, d, b, t, -, -, -, -, hq⟩ := Player.play_started h
  rw [hq]
  exact ⟨⟨f, rfl⟩, fun _ => rfl, fun _ hk => absurd hk (by omega)⟩

/-- A restart that does not succeed leaves the player as it was, or nothing playing. -/
theorem inPlay_failed {p : Player} {k : Nat} (h : InPlay p k) (hd : p.decoder.isSome = true) {e : PlayEnv}
    (hres : (p.play (φ := φ) p.currentFile e).result ≠ .ok true) :
    InPlay (p.play (φ := φ) p.currentFile e).player k := by
  have hp : Player.Played φ p p.currentFile e _ _ := p.play_cases p.currentFile e
  have hstop := Player.clean_playing (φ := φ) hd
  generalize (p.play (φ := φ) p.currentFile e).player = q at hp ⊢
  generalize (p.play (φ := φ) p.currentFile e).result = r at hp hres
  have hnot : ∀ {q : Player} (f : Fi), q.currentFile = some f → q.playing = (p.clean (φ := φ)).1.playing →
      InPlay q k := by
    intro q f hf hq
    rw [hstop] at hq
    exact ⟨⟨f, hf⟩, fun hp => absurd (hq.symm.trans hp) Bool.false_ne_true,
      fun hp => absurd (hq.symm.trans hp) Bool.false_ne_true⟩
  cases hp with
  | null | notFound | linkage => exact h
  | notRead f => exact hnot f rfl rfl
  | notLoaded f stream => exact hnot f rfl rfl
  | notOpened f stream d => exact hnot f rfl rfl
  | started => exact absurd rfl hres

theorem InPlay.unfetched {p : Player} {k : Nat} (h : InPlay p k) (hf : p.fetches = false) (e : UpdateEnv φ) :
    InPlay (p.update e).player k := by
  have hclock := samePlay_startClock p e
  rcases Player.update_unfetched_cases hf e with ⟨-, he⟩ | ⟨-, he⟩ <;> rw [he]
  · exact h
  · exact h.show hclock.playing hclock.decoder hclock.currentFile rfl

theorem InPlay.picture {p : Player} {k m : Nat} (h : InPlay p k) (hf : p.fetches = true) {e : UpdateEnv φ} {v : φ}
    (hv : e.videoData = some v) : InPlay (p.update e).player m := by
  obtain ⟨ha, hs⟩ := Player.active_of_fetches hf
  obtain ⟨t, hq⟩ := Player.update_shown ha hs hv
  have hclock := samePlay_startClock p e
  rw [hq]
  exact h.show hclock.playing hclock.decoder hclock.currentFile rfl

/-- **The invariant of a playback.** -/
structure Ending (s : Playback φ π) : Prop where
  calling : s.calling.isSome = true → s.player.fetches = true
  inCall : s.native.state.consumer.inCall = true → s.calling.isSome = true
  yields : s.native.Yields
  player : InPlay s.player (framesDelivered s.native.record).length
  completed : (s.updates.flatMap Step.completions).length ≤ 1
  uncompleted : s.player.playing = true → s.updates.flatMap Step.completions = []

theorem Ending.start {p : Player} {file : Option Fi} {e : PlayEnv}
    (h : (p.play (φ := Shown φ) file e).result = .ok true) (c : Container) (packets : List (Demuxed π)) :
    Ending (⟨(p.play (φ := Shown φ) file e).player, .started c packets, false, none, []⟩ : Playback φ π) :=
  ⟨nofun, nofun, NativeDecoder.yields_started c packets, inPlay_started h, Nat.zero_le 1, fun _ => rfl⟩

theorem flatMap_completions_snoc (us : List (Step (Shown φ) Bool)) (u : Step (Shown φ) Bool) :
    (us ++ [u]).flatMap Step.completions = us.flatMap Step.completions ++ u.completions := by
  rw [List.flatMap_append, List.flatMap_singleton]

theorem Ending.log {s : Playback φ π} (h : Ending s) {u : Step (Shown φ) Bool} (hu : u.completions = []) {q : Player}
    (hq : q.playing = true → s.player.playing = true) : ((s.updates ++ [u]).flatMap Step.completions).length ≤ 1 ∧
      (q.playing = true → (s.updates ++ [u]).flatMap Step.completions = []) := by
  rw [flatMap_completions_snoc, hu, List.append_nil]
  exact ⟨h.completed, fun hp => h.uncompleted (hq hp)⟩

theorem NativeDecoder.answered {n n' : NativeDecoder φ π} {v : Option (Shown φ)} (hv : n.answer = some v)
    (h : n.step ⟨.consumer, .step⟩ = some n') : n'.state.consumer = .idle := by
  have hm := consumer_step h
  unfold answer at hv
  split at hv
  next b hc =>
    rw [hc] at hm
    generalize n'.state.consumer = l at hm ⊢
    generalize n'.state.shared = d at hm
    cases hm
    rfl
  next hc =>
    rw [hc] at hm
    generalize n'.state.consumer = l at hm ⊢
    generalize n'.state.shared = d at hm
    cases hm
    rfl
  next => cases hv

theorem NativeDecoder.delivered_null {n n' : NativeDecoder φ π} (hv : n.answer = some none)
    (h : n.step ⟨.consumer, .step⟩ = some n') : framesDelivered n'.record = framesDelivered n.record := by
  have hnull : n.state.consumer = .returnNull := by
    unfold answer at hv
    split at hv
    next => cases hv
    next hc => exact hc
    next => cases hv
  refine framesDelivered_eq h ?_
  show n.state.consumer.delivers n.state.shared .step = none
  rw [hnull]
  rfl

theorem Ending.null {s : Playback φ π} (h : Ending s) {n : NativeDecoder φ π} {e : UpdateEnv (Shown φ)}
    (hf : s.player.fetches = true) (hv : e.videoData = none) (hidle : n.state.consumer = .idle) (hyields : n.Yields)
    (hdel : framesDelivered n.record = framesDelivered s.native.record) (c : Container) (file : List (Demuxed π)) :
    Ending (s.finish n e c file) := by
  obtain ⟨-, -, hcomp⟩ := Player.update_null hf hv
  have hclock := samePlay_startClock s.player e
  have hplayer := h.player
  rw [← hdel] at hplayer
  have hinCall : n.state.consumer.inCall = true → (none : Option (UpdateEnv (Shown φ))).isSome = true := by
    rw [hidle]
    nofun
  unfold Playback.finish
  dsimp only
  split
  next hrestart =>
    rw [hv, Option.isNone_none, Bool.true_and, Playback.restarted, Bool.and_eq_true] at hrestart
    obtain ⟨hr, hok⟩ := hrestart
    have hres : (s.player.play (φ := Shown φ) s.player.currentFile e.play).result = .ok true := by
      split at hok
      next heq => rw [heq, hok]
      next => cases hok
    rcases Player.update_null_cases hf hv with ⟨hfirst, -⟩ | ⟨-, hq⟩ | ⟨hc, -⟩
    · simp [Player.restarts, hfirst] at hr
    · rw [hq]
      exact .start ((Player.play_result _ _ _ _).trans hres) c file
    · simp [Player.restarts, Player.completes] at hr hc
      rw [hr.2] at hc
      cases hc.2
  next hrestart =>
    rcases Player.update_null_cases hf hv with ⟨hfirst, hq⟩ | ⟨hr, hq⟩ | ⟨hc, hq⟩
    · have hnone : s.player.completes = false := by simp [Player.completes, hfirst]
      rw [hnone, Bool.false_and, if_neg Bool.false_ne_true] at hcomp
      rw [hq]
      obtain ⟨hlen, hnil⟩ := h.log hcomp (q := (s.player.startClock e).1) (by rw [hclock.playing]; exact id)
      exact ⟨nofun, hinCall, hyields, hplayer.same hclock, hlen, hnil⟩
    · have hnone : s.player.completes = false := by
        rw [Player.restarts, Bool.and_eq_true] at hr
        simp [Player.completes, hr.2]
      rw [hnone, Bool.false_and, if_neg Bool.false_ne_true] at hcomp
      have hd : (s.player.startClock e).1.decoder.isSome = true := by
        rw [hclock.decoder]
        exact (Player.decoder_of_fetches hf).1
      have hres : ((s.player.startClock e).1.play (φ := Shown φ) (s.player.startClock e).1.currentFile e.play).result ≠
          .ok true := by
        intro hok
        rw [hclock.currentFile, Player.play_result _ s.player] at hok
        rw [hv, Option.isNone_none, Bool.true_and, Playback.restarted, hr, Bool.true_and, hok] at hrestart
        exact hrestart rfl
      have hfailed := inPlay_failed (hplayer.same hclock) hd hres
      rw [hclock.currentFile] at hfailed
      rw [hq]
      obtain ⟨hlen, hnil⟩ := h.log hcomp (q := ((s.player.startClock e).1.play (φ := Shown φ) s.player.currentFile
        e.play).player) fun _ => (Player.decoder_of_fetches hf).2
      exact ⟨nofun, hinCall, hyields, hfailed, hlen, hnil⟩
    · rw [hq]
      refine ⟨nofun, hinCall, hyields, ⟨?_, nofun, nofun⟩, ?_, nofun⟩
      · exact (hplayer.same hclock).file
      · rw [flatMap_completions_snoc, h.uncompleted (Player.decoder_of_fetches hf).2, List.nil_append, hcomp]
        split
        · exact Nat.le_refl 1
        · exact Nat.zero_le 1

/-- **A step under `keepsEnding`.** -/
theorem PlaybackMove.ending {s t : Playback φ π} {a : PlaybackAct φ π} (h : PlaybackMove s a t) (hs : Ending s)
    (hok : keepsEnding s a = true) : Ending t := by
  cases h with
  | op hcall hbetween =>
      have hsame := samePlay_between s.player hbetween
      refine ⟨by rw [hcall]; nofun, hs.inCall, hs.yields, hs.player.same hsame, hs.completed, ?_⟩
      rw [hsame.playing]
      exact hs.uncompleted
  | fetch _ hf _ hstep =>
      refine ⟨fun _ => hf, fun _ => rfl, hs.yields.step hstep nofun nofun, ?_, hs.completed, hs.uncompleted⟩
      rw [NativeDecoder.framesDelivered_call hstep]
      exact hs.player
  | @update e hcall hf =>
      obtain ⟨hplain, -⟩ := Player.update_unfetched hf e
      have hplayer := hs.player.unfetched hf e
      obtain ⟨hlen, hnil⟩ := hs.log (u := s.player.update e) (q := (s.player.update e).player) hplain.completions
        (Player.playing_unfetched hf e)
      exact ⟨by rw [hcall]; nofun, hs.inCall, hs.yields, hplayer, hlen, hnil⟩
  | @native a n _ hfree hstep =>
      refine ⟨hs.calling, fun hin => hs.inCall ?_, hs.yields.step hstep ?_ ?_, ?_, hs.completed, hs.uncompleted⟩
      · by_cases ht : a.1 = .consumer
        · obtain ⟨t, a⟩ := a
          obtain rfl : t = .consumer := ht
          refine (NativeDecoder.consumer_step hstep).inCall ?_ hin
          rintro rfl
          cases hfree
        · rwa [NativeDecoder.consumer_eq ht hstep] at hin
      · rintro rfl
        cases hfree
      · rintro rfl hset
        simpa [keepsEnding, hset] using hok
      · rw [NativeDecoder.framesDelivered_eq hstep (NativeDecoder.delivered_free hfree)]
        exact hs.player
  | answer e v n c file hcall hans hstep =>
      have hf := hs.calling (by rw [hcall]; rfl)
      have hidle := NativeDecoder.answered hans hstep
      have hyields := hs.yields.step hstep nofun nofun
      cases v with
      | none => exact hs.null hf rfl hidle hyields (NativeDecoder.delivered_null hans hstep) c file
      | some v =>
          obtain ⟨-, hcomp, -⟩ := Player.update_picture (e := { e with videoData := some v }) hf rfl
          have hplayer := hs.player.picture (m := (framesDelivered n.record).length)
            (e := { e with videoData := some v }) hf rfl
          obtain ⟨hlen, hnil⟩ := hs.log hcomp
            (q := (s.player.update { e with videoData := some v }).player) fun _ => (Player.decoder_of_fetches hf).2
          refine ⟨nofun, ?_, hyields, hplayer, hlen, hnil⟩
          show n.state.consumer.inCall = true → _
          rw [hidle]
          nofun

theorem Ending.endsWell {s : Playback φ π} (h : Ending s) (hn : s.native.Recorded) {c : Container}
    {file : List (Demuxed π)} (hok : keepsEnding s (.answer c file) = true) {e : UpdateEnv (Shown φ)}
    (hcall : s.calling = some e) (hnull : s.native.atNull = true) (hd : s.native.drained = true) :
    EndsWell s.player e.null := by
  have hf := h.calling (by rw [hcall]; rfl)
  obtain ⟨f, hfile⟩ := h.player.file
  have hcons : s.native.state.consumer = .returnNull := by simpa [NativeDecoder.atNull] using hnull
  have hdel := h.yields.delivered hn hd (by rw [hcons]; rfl)
  refine Player.endsWell hf rfl (h.player.shown (Player.decoder_of_fetches hf).2 hdel) hfile fun hl => ?_
  rw [keepsEnding, hcall, hl, hnull, hd] at hok
  exact (Player.mayRestart_iff s.player e).mp hok

/-- Between two updates, a player that plays a drained decoder has a frame on screen. -/
theorem Ending.showing {s : Playback φ π} (h : Ending s) (hn : s.native.Recorded) (hs : s.Spent) :
    ∃ f, s.player.OnScreen f := by
  obtain ⟨f, hfile⟩ := h.player.file
  have htaken : s.native.state.consumer.taken = false := by
    rw [Bool.eq_false_iff]
    intro ht
    have hcall := h.inCall (ConsumerPc.inCall_of_taken ht)
    rw [hs.between] at hcall
    cases hcall
  exact ⟨f, h.player.decoder hs.playing, hs.playing, hs.unpaused,
    h.player.shown hs.playing (h.yields.delivered hn hs.drained htaken), hfile⟩

/-- **Every playback ends visibly** when no stream ends without a frame and every restart succeeds, or fails with no
listener set: the NULL at the end restarts the file or completes the video, and no playback is completed twice. No
state is stuck while the frame on screen stays and the clock goes on; of updates given NULL one ends the video, at the
latest the one after that at which the clock has come to 20 ms before the timestamp. -/
theorem ends_visibly {h : List (Playback φ π × PlaybackAct φ π)} {s : Playback φ π}
    (hr : (playback φ π).RunWhen (fun s a => keepsEnding s a = true) h s) :
    (∀ p ∈ h, ∀ c file e, p.2 = .answer c file → p.1.calling = some e → p.1.native.atNull = true →
      p.1.native.drained = true → EndsWell p.1.player e.null) ∧
    (s.updates.flatMap Step.completions).length ≤ 1 ∧ (∀ ms now, ¬ s.Stuck ms now) ∧
    (s.Spent → ∀ (es : List (UpdateEnv (Shown φ))) (e e' : UpdateEnv (Shown φ)),
      (∀ x ∈ es ++ [e, e'], x.videoData = none) → (s.player.run (es.map Op.update)).due e →
        s.player.EndsIn (es ++ [e, e'])) := by
  have hinv : Ending s ∧ ∀ p ∈ h, ∀ c file e, p.2 = .answer c file → p.1.calling = some e →
      p.1.native.atNull = true → p.1.native.drained = true → EndsWell p.1.player e.null := by
    refine System.RunWhen.induction (P := fun h s => Ending s ∧ ∀ p ∈ h, ∀ c file e, p.2 = .answer c file →
      p.1.calling = some e → p.1.native.atNull = true → p.1.native.drained = true →
      EndsWell p.1.player e.null) ?_ ?_ hr
    · rintro s ⟨p, f, e, c, file, hplay, rfl⟩
      exact ⟨Ending.start hplay c file, fun _ hp => absurd hp List.not_mem_nil⟩
    · rintro h s a t hr ⟨hs, hall⟩ hok hstep
      refine ⟨(playback_move hstep).ending hs hok, fun p hp c file e ha => ?_⟩
      rcases List.mem_append.mp hp with hp | hp
      · exact hall p hp c file e ha
      · obtain rfl := List.mem_singleton.mp hp
        obtain rfl : a = .answer c file := ha
        exact hs.endsWell (native_run hr) hok
  have hshow := hinv.1.showing (native_run hr)
  refine ⟨hinv.2, hinv.1.completed, fun ms now hstuck => ?_, fun hs es e e' hnull hdue => ?_⟩
  · obtain ⟨f, hf⟩ := hshow hstuck.spent
    exact Player.not_idles hf _ now hstuck.idles
  · obtain ⟨f, hf⟩ := hshow hs
    exact Player.ends_of_due hf hnull hdue

/-! ## Runs -/

/-- The video has one frame, which is shown; the next update completes it. -/
theorem ends_visibly_one_frame : ∃ h s, (playback Nat Unit).Run h s ∧
    (s.updates.flatMap Step.completions).length ≤ 1 ∧ (∀ ms now, ¬ s.Stuck ms now) ∧
      s.updates.map Step.completions = [[], [some ⟨"video.webm"⟩]] := by
  obtain ⟨h, s, hr, hok, hcomp⟩ := (playback Nat Unit).exists_run (init_firstPlayback 1)
    (PlaybackAct.natives (Action.decodes ⟨7, 0⟩ ++ Action.runs 4 ++ Action.drains) ++ PlaybackAct.updates 6 ++
      PlaybackAct.updates 3)
    (fun h s => (∀ p ∈ h, keepsEnding p.1 p.2 = true) ∧
      s.updates.map Step.completions = [[], [some ⟨"video.webm"⟩]]) (by decide +kernel)
  obtain ⟨-, hlen, hstuck, -⟩ := ends_visibly (hr.when hok)
  exact ⟨h, s, hr, hlen, hstuck, hcomp⟩

/-- A looping video of one packet, with a completion listener. -/
def loopingPlayback : Playback Nat Unit :=
  ⟨((Player.new true false true).play (φ := Shown Nat) (some ⟨"video.webm"⟩) (successfulPlay 1)).player,
    .started (Container.videoOnly false) (videoFile 1), false, none, []⟩

theorem init_loopingPlayback : (playback Nat Unit).init loopingPlayback :=
  ⟨_, _, _, _, _, rfl, rfl⟩

def failingUpdate : UpdateEnv (Shown Nat) := ⟨1, none, 1, 1, 0, 0, ⟨true, true, some 2, some 2, .null, none⟩⟩

/-- A stream without frames ends: the player plays on and no update does anything, at any time. -/
theorem never_ends : ∃ h s, (playback Nat Unit).Run h s ∧ framesWritten s.native.record = [] ∧
    ∀ ms now, s.Stuck ms now := by
  obtain ⟨h, s, hr, hframes, hcall, hd, hdec, hplays, hpaused, hfirst, hagain⟩ :=
    (playback Nat Unit).exists_run (init_firstPlayback 0) (PlaybackAct.natives Action.drains)
      (fun _ s => framesWritten s.native.record = [] ∧ s.calling.isSome = false ∧ s.native.drained = true ∧
        s.player.decoder.isSome = true ∧ s.player.playing = true ∧ s.player.paused = false ∧
        s.player.isFirstFrame = true ∧ s.player.showAlreadyDecodedFrame = false) (by decide +kernel)
  exact ⟨h, s, hr, hframes, fun ms now => ⟨⟨hplays, hpaused, by simpa using hcall, hd⟩,
    Player.idles_of_first hdec hplays hfirst hagain _ now⟩⟩

/-- A looping video has one frame, which is shown. At the end the restart's play returns false: nothing plays and the
listener is not called. -/
theorem ends_unnoticed : (∃ h s, (playback Nat Unit).Run h s ∧ framesWritten s.native.record = [] ∧
      ∀ ms now, s.Stuck ms now) ∧
    ∃ h s e, (playback Nat Unit).Run h s ∧ s.calling = some e ∧ s.native.atNull = true ∧ s.native.drained = true ∧
      s.player.restartResult e = .ok false ∧ s.player.videoCompletionListener = true ∧
      (s.player.update e.null).player.playing = false ∧ (s.player.update e.null).completions = [] ∧
        ¬ EndsWell s.player e.null := by
  refine ⟨never_ends, ?_⟩
  obtain ⟨h, s, hr, hcall, hnull, hd, hres, hlist, hplays, hcomp⟩ :=
    (playback Nat Unit).exists_run init_loopingPlayback
      (PlaybackAct.natives (Action.decodes ⟨7, 0⟩ ++ Action.runs 4 ++ Action.drains) ++ PlaybackAct.updates 6 ++
        [.update failingUpdate] ++ PlaybackAct.natives (Action.consumes 3))
      (fun _ s => s.calling = some failingUpdate ∧ s.native.atNull = true ∧ s.native.drained = true ∧
        s.player.restartResult failingUpdate = .ok false ∧ s.player.videoCompletionListener = true ∧
        (s.player.update failingUpdate.null).player.playing = false ∧
        (s.player.update failingUpdate.null).completions = []) (by decide +kernel)
  refine ⟨h, s, failingUpdate, hr, hcall, hnull, hd, hres, hlist, hplays, hcomp, ?_⟩
  rintro (⟨-, -, hp, -⟩ | ⟨-, -, f, -, hc⟩)
  · rw [hplays] at hp
    cases hp
  · rw [hcomp, hlist, if_pos rfl] at hc
    cases hc

end ArcVideo
