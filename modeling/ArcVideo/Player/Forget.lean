import Mathlib.Data.Finset.Dedup
import Mathlib.Data.Finset.Order
import Mathlib.Data.Int.Order.Basic
import ArcVideo.Player.Player

/-!
# What a successful `play` forgets

A player on which `play` has returned true is compared with a new one that was given the same file.

* `Observation`, `observedPlayer` : what a user sees of a call: its result, `isPlaying`, the frames fetched, the audio
  started and the completion listener called;
* `Clocked`, `Later` : calls whose clock readings are positive and do not decrease; later updates, pauses and resumes;
* `Agree` : equal but for the texture, the filters and a pause position that is not in force. A bisimulation;
* `Idle` : what holds of a reachable player without a decoder;
* `play_forgets_iff` : the new video starts as on a new player exactly when the player was not paused, and had a
  decoder to stop or a clock at 0. `play` neither resumes nor, without a decoder, resets the clock.
-/

namespace ArcVideo

variable {φ : Type}

/-! ## What is observed -/

def Event.observed : Event φ → Bool
  | .nextVideoFrame _ | .playAudio _ | .onCompletion _ => true
  | _ => false

structure Observation (φ : Type) where
  result : Except JavaException (Option Bool)
  isPlaying : Bool
  events : List (Event φ)
  deriving DecidableEq

def observe (s : Step φ (Option Bool)) : Observation φ := ⟨s.result, s.player.isPlaying, s.events.filter Event.observed⟩

def observedPlayer (φ : Type) : Conc.Machine Player (Op φ) (Observation φ) := (playerMachine φ).map observe

def Op.readings : Op φ → List Int
  | .update e => [e.now, e.later]
  | .pause now => [now]
  | .resume now => [now]
  | _ => []

def Clocked (ops : List (Op φ)) : Prop :=
  (ops.flatMap Op.readings).Pairwise (· ≤ ·) ∧ ∀ t ∈ ops.flatMap Op.readings, 0 < t

instance (ops : List (Op φ)) : Decidable (Clocked ops) := inferInstanceAs (Decidable (_ ∧ _))

/-- The calls that go on with a video: updates, pauses and resumes. -/
def Op.continues : Op φ → Bool
  | .update _ | .pause _ | .resume _ => true
  | _ => false

/-- Calls that go on with the video after the calls `past`. -/
structure Later (past later : List (Op φ)) : Prop where
  continues : ∀ op ∈ later, op.continues
  clocked : Clocked (past ++ later)

/-! ## Players that agree -/

namespace Player

/-- `q` is `p` but for the texture, the filters and a pause position that is not in force. -/
def Agree (p q : Player) : Prop :=
  ∃ t f g b, q = { p with texture := t, minFilter := f, magFilter := g, timeBeforePause := b } ∧
    (p.paused = true → b = p.timeBeforePause)

def SameObserved (es es' : List (Event φ)) : Prop := es.filter Event.observed = es'.filter Event.observed

theorem SameObserved.append {es es' fs fs' : List (Event φ)} (h : SameObserved es es') (h' : SameObserved fs fs') :
    SameObserved (es ++ fs) (es' ++ fs') := by
  rw [SameObserved, List.filter_append, List.filter_append, h, h']

structure AgreeOn (s s' : Player × List (Event φ)) : Prop where
  player : Agree s.1 s'.1
  events : SameObserved s.2 s'.2

structure StepAgree {α : Type} (s s' : Step φ α) : Prop where
  result : s.result = s'.result
  player : Agree s.player s'.player
  events : SameObserved s.events s'.events

variable {p q : Player}

/-- What depends on none of the fields left open is the same for both. -/
theorem Agree.congr {β : Sort*} (h : Agree p q) (field : Player → β)
    (hfield : ∀ t f g b,
      field { p with texture := t, minFilter := f, magFilter := g, timeBeforePause := b } = field p) :
    field q = field p := by
  obtain ⟨t, f, g, b, rfl, -⟩ := h
  exact hfield t f g b

theorem Agree.stop (h : Agree p q) : AgreeOn (φ := φ) p.stop q.stop := by
  obtain ⟨t, f, g, b, rfl, hb⟩ := h
  exact ⟨⟨t, f, g, b, rfl, hb⟩, rfl⟩

theorem Agree.clean (h : Agree p q) : AgreeOn (φ := φ) p.clean q.clean := by
  have hs : AgreeOn (φ := φ) p.stop q.stop := h.stop
  have hd : q.decoder = p.decoder := h.congr decoder fun _ _ _ _ => rfl
  unfold Player.clean
  rw [hd]
  split
  · exact hs
  · exact ⟨h, rfl⟩

theorem Agree.openAudio (h : Agree p q) (b : VideoDecoderBuffers) (music : Option Nat) :
    AgreeOn (φ := φ) (p.openAudio b music) (q.openAudio b music) := by
  obtain ⟨t, f, g, c, rfl, hc⟩ := h
  unfold Player.openAudio
  split
  · exact ⟨⟨t, f, g, c, rfl, hc⟩, rfl⟩
  · exact ⟨⟨t, f, g, c, rfl, hc⟩, rfl⟩

theorem openVideo_observed (p : Player) (b : VideoDecoderBuffers) :
    SameObserved (φ := φ) (p.openVideo b).2 [] := by
  unfold openVideo
  dsimp only
  split
  · split <;> rfl
  · rfl

theorem Agree.openVideo (h : Agree p q) (b : VideoDecoderBuffers) :
    AgreeOn (φ := φ) (p.openVideo b) (q.openVideo b) := by
  obtain ⟨t, ht⟩ := openVideo_eq (φ := φ) p b
  obtain ⟨u, hu⟩ := openVideo_eq (φ := φ) q b
  obtain ⟨_, f, g, c, rfl, hc⟩ := h
  refine ⟨⟨u, f, g, c, ?_, ?_⟩, (openVideo_observed _ b).trans (openVideo_observed _ b).symm⟩
  · rw [hu, ht]
  · rw [ht]
    exact hc

theorem AgreeOn.started {s s' : Player × List (Event φ)} (h : AgreeOn s s') {es es' : List (Event φ)}
    (he : SameObserved es es') :
    StepAgree (φ := φ) (α := Bool)
      ⟨.ok true, { s.1 with playing := true },
        es ++ if s.1.sizeListener then [.onVideoSize s.1.currentVideoWidth s.1.currentVideoHeight] else []⟩
      ⟨.ok true, { s'.1 with playing := true },
        es' ++ if s'.1.sizeListener then [.onVideoSize s'.1.currentVideoWidth s'.1.currentVideoHeight] else []⟩ := by
  obtain ⟨t, f, g, b, hq, hb⟩ := h.player
  rw [hq]
  exact ⟨rfl, ⟨t, f, g, b, rfl, hb⟩, he.append rfl⟩

theorem Agree.play (h : Agree p q) (file : Option Fi) (e : PlayEnv) :
    StepAgree (φ := φ) (p.play file e) (q.play file e) := by
  have hc : AgreeOn (φ := φ) p.clean q.clean := h.clean
  unfold Player.play
  cases file with
  | none => exact ⟨rfl, h, rfl⟩
  | some file =>
      dsimp only
      generalize p.clean = s at hc ⊢
      generalize q.clean = s' at hc ⊢
      obtain ⟨p', es⟩ := s
      obtain ⟨q', es'⟩ := s'
      obtain ⟨⟨t, f, g, b, hq, hb⟩, he⟩ := hc
      dsimp only at hq he hb
      subst hq
      split
      · exact ⟨rfl, h, rfl⟩
      split
      · exact ⟨rfl, h, rfl⟩
      cases e.read with
      | none => exact ⟨rfl, ⟨t, f, g, b, rfl, hb⟩, he⟩
      | some stream =>
          dsimp only
          cases e.decoder with
          | none => exact ⟨rfl, ⟨t, f, g, b, rfl, hb⟩, he.append rfl⟩
          | some decoder =>
              dsimp only
              cases e.load with
              | null => exact ⟨rfl, ⟨t, f, g, b, rfl, hb⟩, he.append rfl⟩
              | exception => exact ⟨rfl, ⟨t, f, g, b, rfl, hb⟩, he.append rfl⟩
              | buffers buffers =>
                  have ha : AgreeOn (φ := φ) _ _ := Agree.openAudio (p := { p' with
                    currentFile := some file
                    inputStream := some stream
                    fileChannel := some stream
                    isFirstFrame := true
                    decoder := some decoder }) ⟨t, f, g, b, rfl, hb⟩ buffers e.music
                  have hv : AgreeOn (φ := φ) _ _ := ha.player.openVideo buffers
                  exact hv.started (((he.append rfl).append ha.events).append hv.events)

theorem Agree.startClock (h : Agree p q) (e : UpdateEnv φ) : AgreeOn (p.startClock e) (q.startClock e) := by
  obtain ⟨t, f, g, b, rfl, hb⟩ := h
  unfold Player.startClock
  dsimp only
  split
  · exact ⟨⟨t, f, g, b, rfl, hb⟩, rfl⟩
  · exact ⟨⟨t, f, g, b, rfl, hb⟩, rfl⟩

theorem upload_observed (p : Player) (e : UpdateEnv φ) (v : φ) : SameObserved (p.upload e v).2 [] := by
  unfold upload
  split <;> rfl

theorem Agree.upload (h : Agree p q) (e : UpdateEnv φ) (v : φ) : AgreeOn (p.upload e v) (q.upload e v) := by
  obtain ⟨t, ht⟩ := upload_eq p e v
  obtain ⟨u, hu⟩ := upload_eq q e v
  obtain ⟨_, f, g, c, rfl, hc⟩ := h
  refine ⟨⟨u, f, g, c, ?_, ?_⟩, (upload_observed _ e v).trans (upload_observed _ e v).symm⟩
  · rw [hu, ht]
  · rw [ht]
    exact hc

theorem Agree.showFrame (h : Agree p q) (e : UpdateEnv φ) : AgreeOn (p.showFrame e) (q.showFrame e) := by
  obtain ⟨t, f, g, b, rfl, hb⟩ := h
  exact ⟨⟨t, f, g, b, rfl, hb⟩, rfl⟩

theorem Agree.restart (h : Agree p q) (e : UpdateEnv φ) : StepAgree (p.restart e) (q.restart e) := by
  have hf : q.currentFile = p.currentFile := h.congr currentFile fun _ _ _ _ => rfl
  have hv : q.getVolume = p.getVolume := h.congr getVolume fun _ _ _ _ => rfl
  have hp : StepAgree (φ := φ) _ _ := h.play p.currentFile e.play
  unfold Player.restart
  rw [hf, hv]
  generalize p.play p.currentFile e.play = s at hp ⊢
  generalize q.play p.currentFile e.play = s' at hp ⊢
  obtain ⟨r, p', es⟩ := s
  obtain ⟨r', q', es'⟩ := s'
  obtain ⟨hr, hq, he⟩ := hp
  dsimp only at hr hq he
  subst hr
  have ha : q'.setVolume (φ := φ) = p'.setVolume := hq.congr setVolume fun _ _ _ _ => rfl
  dsimp only
  split
  · exact ⟨rfl, hq, he.append (congrArg _ (congrFun ha.symm _))⟩
  · exact ⟨rfl, hq, he⟩
  · exact ⟨rfl, hq, he⟩

theorem Agree.noFrame (h : Agree p q) (e : UpdateEnv φ) : StepAgree (p.noFrame e) (q.noFrame e) := by
  have hr : StepAgree (p.restart e) (q.restart e) := h.restart e
  obtain ⟨t, f, g, b, rfl, hb⟩ := h
  unfold Player.noFrame
  dsimp only
  split
  · exact ⟨rfl, ⟨t, f, g, b, rfl, hb⟩, rfl⟩
  split
  · exact hr
  · exact ⟨rfl, ⟨t, f, g, b, rfl, hb⟩, rfl⟩

theorem Agree.advance (h : Agree p q) (decoder : Nat) (e : UpdateEnv φ) :
    StepAgree (p.advance decoder e) (q.advance decoder e) := by
  have hs : q.showAlreadyDecodedFrame = p.showAlreadyDecodedFrame :=
    h.congr showAlreadyDecodedFrame fun _ _ _ _ => rfl
  unfold Player.advance
  rw [hs]
  split
  · cases e.videoData with
    | some v =>
        have hu : AgreeOn (p.upload e v) (q.upload e v) := h.upload e v
        have hf : AgreeOn _ _ := hu.player.showFrame e
        exact ⟨rfl, hf.player, (SameObserved.append rfl hu.events).append hf.events⟩
    | none =>
        have hn : StepAgree (p.noFrame e) (q.noFrame e) := h.noFrame e
        exact ⟨hn.result, hn.player, SameObserved.append rfl hn.events⟩
  · have hf : AgreeOn (p.showFrame e) (q.showFrame e) := h.showFrame e
    exact ⟨rfl, hf.player, hf.events⟩

theorem Agree.update (h : Agree p q) (e : UpdateEnv φ) : StepAgree (p.update e) (q.update e) := by
  have hd : q.decoder = p.decoder := h.congr decoder fun _ _ _ _ => rfl
  have hg : ((!q.paused || q.isFirstFrame) && q.playing) = ((!p.paused || p.isFirstFrame) && p.playing) :=
    h.congr (fun p => (!p.paused || p.isFirstFrame) && p.playing) fun _ _ _ _ => rfl
  unfold Player.update
  rw [hd]
  cases p.decoder with
  | none => exact ⟨rfl, h, rfl⟩
  | some decoder =>
      dsimp only
      rw [hg]
      split
      · have hc : AgreeOn (p.startClock e) (q.startClock e) := h.startClock e
        have ha : StepAgree _ _ := hc.player.advance decoder e
        exact ⟨ha.result, ha.player, hc.events.append ha.events⟩
      · exact ⟨rfl, h, rfl⟩

theorem Agree.pause (h : Agree p q) (now : Int) : AgreeOn (φ := φ) (p.pause now) (q.pause now) := by
  obtain ⟨t, f, g, b, rfl, hb⟩ := h
  unfold Player.pause
  dsimp only
  split
  · exact ⟨⟨t, f, g, b, rfl, hb⟩, rfl⟩
  · exact ⟨⟨t, f, g, _, rfl, fun _ => rfl⟩, rfl⟩

theorem Agree.resume (h : Agree p q) (now : Int) : AgreeOn (φ := φ) (p.resume now) (q.resume now) := by
  obtain ⟨t, f, g, b, rfl, hb⟩ := h
  unfold Player.resume
  dsimp only
  split
  next hp =>
    rw [hb hp]
    exact ⟨⟨t, f, g, _, rfl, fun _ => rfl⟩, rfl⟩
  next => exact ⟨⟨t, f, g, b, rfl, hb⟩, rfl⟩

theorem AgreeOn.done {s s' : Player × List (Event φ)} (h : AgreeOn s s') : StepAgree (done s) (done s') :=
  ⟨rfl, h.player, h.events⟩

theorem StepAgree.answer {s s' : Step φ Bool} (h : StepAgree s s') : StepAgree (answer s) (answer s') :=
  ⟨congrArg (Except.map some) h.result, h.player, h.events⟩

theorem StepAgree.observe {s s' : Step φ (Option Bool)} (h : StepAgree s s') : observe s = observe s' := by
  have he : s.events.filter Event.observed = s'.events.filter Event.observed := h.events
  have hp : s'.player.isPlaying = s.player.isPlaying := h.player.congr isPlaying fun _ _ _ _ => rfl
  unfold ArcVideo.observe
  rw [h.result, hp, he]

/-- **Players that agree stay so** through updates, pauses and resumes. -/
theorem Agree.apply (h : Agree p q) {op : Op φ} (hop : op.continues) : StepAgree (p.apply op) (q.apply op) := by
  cases op with
  | update e => exact (h.update e).answer
  | pause now => exact (h.pause now).done
  | resume now => exact (h.resume now).done
  | _ => cases hop

theorem agree_bisimulation : (observedPlayer φ).Bisimulation (fun op => op.continues = true) Agree where
  output h hop := (h.apply hop).observe
  next h hop := (h.apply hop).player

/-! ## A player without a decoder -/

/-- Without a decoder there is no audio, and no frame waits to be shown. -/
def Idle (p : Player) : Prop := p.decoder = none → p.audio = none ∧ p.showAlreadyDecodedFrame = false

theorem Idle.clean (h : Idle p) : Idle (p.clean (φ := φ)).1 := by
  unfold Player.clean
  split
  · exact fun _ => ⟨rfl, rfl⟩
  · exact h

theorem Idle.play (h : Idle p) (file : Option Fi) (e : PlayEnv) : Idle (p.play (φ := φ) file e).player := by
  have hc : Idle (p.clean (φ := φ)).1 := h.clean
  have hp : Played φ p file e _ _ := p.play_cases file e
  generalize (p.play (φ := φ) file e).player = p' at hp ⊢
  generalize (p.play (φ := φ) file e).result = r at hp
  cases hp with
  | null => exact h
  | notFound => exact h
  | linkage => exact h
  | notRead => exact hc
  | notLoaded => exact hc
  | notOpened => exact fun hn => nomatch hn
  | started => exact fun hn => nomatch hn

theorem Idle.of_decoder (h : p.decoder.isSome = true) : Idle p := fun hn => by simp [hn] at h

theorem Idle.update (h : Idle p) (e : UpdateEnv φ) : Idle (p.update e).player := by
  have hu : Updated p e _ _ := p.update_cases e
  have hd : p.active = true → (p.startClock e).1.decoder.isSome = true := fun ha => by
    rw [startClock_eq]
    exact (Bool.and_eq_true_iff.mp (Bool.and_eq_true_iff.mp ha).1).1
  generalize (p.update e).player = p' at hu ⊢
  generalize (p.update e).result = r at hu
  cases hu with
  | inactive => exact h
  | shown v t ha => exact .of_decoder (hd ha)
  | starved ha => exact .of_decoder (hd ha)
  | restarted ha =>
      rw [restart_player]
      exact (Idle.of_decoder (hd ha)).play _ _
  | ended ha => exact .of_decoder (hd ha)
  | again ha => exact .of_decoder (hd ha)

variable (φ) in
theorem Idle.stop (p : Player) : Idle (p.stop (φ := φ)).1 := fun _ => ⟨rfl, rfl⟩

theorem Idle.apply (h : Idle p) (op : Op φ) : Idle (p.apply op).player := by
  cases op with
  | play file e => exact h.play file e
  | update e => exact h.update e
  | pause now =>
      show Idle (p.pause now).1
      unfold Player.pause
      split <;> exact h
  | resume now =>
      show Idle (p.resume now).1
      unfold Player.resume
      split <;> exact h
  | stop => exact Idle.stop φ p
  | dispose => exact Idle.stop φ p
  | setFilter f g =>
      show Idle (p.setFilter f g).1
      unfold Player.setFilter
      split <;> exact h
  | setVolume volume => exact h
  | setLooping looping => exact h
  | setOnVideoSizeListener listener => exact h
  | setOnCompletionListener listener => exact h

/-- **Every reachable player without a decoder is idle.** -/
theorem idle_after (looping sizeListener completionListener : Bool) (past : List (Op φ)) :
    Idle ((observedPlayer φ).after (Player.new looping sizeListener completionListener) past) :=
  Conc.Machine.after_invariant (fun _ op h => h.apply op) (fun _ => ⟨rfl, rfl⟩) past

/-! ## A play on a new player -/

/-- A new player with the looping flag and the listeners of `p`. -/
def fresh (p : Player) : Player := Player.new p.looping p.sizeListener p.videoCompletionListener

/-- Nothing of an earlier video is left for `play` to keep. -/
def Ready (p : Player) : Prop := p.paused = false ∧ (p.decoder = none → p.startTime = 0)

/-- A ready player, once cleaned, differs from a new one only in what `play` sets and what `Agree` leaves open. -/
theorem clean_eq_fresh (hi : Idle p) (hr : Ready p) :
    (p.clean (φ := φ)).1 = { p.fresh with
      texture := p.texture
      isFirstFrame := (p.clean (φ := φ)).1.isFirstFrame
      timeBeforePause := p.timeBeforePause
      currentVideoWidth := p.currentVideoWidth
      currentVideoHeight := p.currentVideoHeight
      videoBufferWidth := p.videoBufferWidth
      currentFile := p.currentFile
      inputStream := (p.clean (φ := φ)).1.inputStream
      fileChannel := p.fileChannel
      playing := (p.clean (φ := φ)).1.playing
      minFilter := p.minFilter
      magFilter := p.magFilter } := by
  obtain ⟨hpaused, hstart⟩ := hr
  unfold Player.clean
  split
  next => simp [Player.stop, fresh, Player.new, hpaused]
  next hd =>
    have hd : p.decoder = none := by simpa using hd
    obtain ⟨ha, hs⟩ := hi hd
    have ht : p.startTime = 0 := hstart hd
    obtain ⟨⟩ := p
    simp_all [fresh, Player.new]

/-- **A play on a ready player agrees with one on a new player.** -/
theorem play_agree_fresh (hi : Idle p) (hr : Ready p) {file : Option Fi} {e : PlayEnv}
    (h : (p.play (φ := φ) file e).result = .ok true) :
    Agree (p.play (φ := φ) file e).player (p.fresh.play (φ := φ) file e).player := by
  obtain ⟨f, stream, decoder, b, t, hf, hread, hdecoder, hload, hp⟩ := play_started h
  obtain ⟨f', stream', decoder', b', t', hf', hread', hdecoder', hload', hq⟩ :=
    play_started ((play_result p.fresh p file e).trans h)
  rw [hf] at hf'
  rw [hread] at hread'
  rw [hdecoder] at hdecoder'
  rw [hload] at hload'
  cases hf'
  cases hread'
  cases hdecoder'
  cases hload'
  rw [hp, hq]
  unfold opened
  rw [clean_eq_fresh hi hr]
  exact ⟨t', _, _, _, rfl, fun hn => nomatch hn⟩

/-! ## Telling a player from a new one -/

theorem fetches_eq {e : UpdateEnv φ} (h : observe (answer (p.update e)) = observe (answer (q.update e))) :
    p.fetches = q.fetches := by
  have he : (p.update e).events.filter Event.observed = (q.update e).events.filter Event.observed :=
    congrArg Observation.events h
  have hm : ∀ d, Event.nextVideoFrame d ∈ (p.update e).events ↔ Event.nextVideoFrame d ∈ (q.update e).events := by
    intro d
    have hf := congrArg (fun es => Event.nextVideoFrame d ∈ es) he
    simpa [List.mem_filter, Event.observed] using hf
  rw [Bool.eq_iff_iff, ← update_fetches_iff p e, ← update_fetches_iff q e]
  exact exists_congr hm

/-- A successful play is followed by an update that fetches, whatever the player before. -/
theorem play_started_active (hi : Idle p) {file : Option Fi} {e : PlayEnv}
    (h : (p.play (φ := φ) file e).result = .ok true) :
    (p.play (φ := φ) file e).player.active = true ∧
      (p.play (φ := φ) file e).player.showAlreadyDecodedFrame = false ∧
      (p.play (φ := φ) file e).player.paused = p.paused ∧
      (p.play (φ := φ) file e).player.startTime = if p.decoder.isSome then 0 else p.startTime := by
  obtain ⟨f, stream, decoder, b, t, -, -, -, -, hp⟩ := play_started h
  have hc : (p.clean (φ := φ)).1.showAlreadyDecodedFrame = false := (hi.clean (clean_decoder p)).2
  have hpaused : (p.clean (φ := φ)).1.paused = p.paused := by
    unfold Player.clean
    split <;> rfl
  have hstart : (p.clean (φ := φ)).1.startTime = if p.decoder.isSome then 0 else p.startTime := by
    unfold Player.clean
    split <;> rfl
  rw [hp]
  exact ⟨by simp [active, opened], hc, hpaused, hstart⟩

end Player

/-! ## The theorem -/

/-- Calls that go on with the video after `past` cannot tell the players `p` and `q` apart. -/
def SameObservations (past : List (Op φ)) (p q : Player) : Prop :=
  ∀ later, Later past later → (observedPlayer φ).trace p later = (observedPlayer φ).trace q later

/-- `p` starts its video as the new player `q` does. -/
structure Forgets (past : List (Op φ)) (p q : Player) : Prop where
  observations : SameObservations past p q
  unpaused : p.paused = false
  clockNotStarted : p.startTime = 0
  noFrameWaiting : p.showAlreadyDecodedFrame = false
  /-- A pause position in force is one of the new video. -/
  position : ∀ later, Later past later → ((observedPlayer φ).after p later).paused = true →
    ((observedPlayer φ).after p later).timeBeforePause = ((observedPlayer φ).after q later).timeBeforePause

theorem exists_later_clock (past : List (Op φ)) (t : Int) :
    ∃ T, t < T ∧ 0 < T ∧ ∀ r ∈ past.flatMap Op.readings, r ≤ T := by
  obtain ⟨T, hT⟩ := ((t + 1) :: 1 :: past.flatMap Op.readings).toFinset.exists_le
  have hle : ∀ r ∈ (t + 1) :: 1 :: past.flatMap Op.readings, r ≤ T := fun r hr => hT r (List.mem_toFinset.mpr hr)
  exact ⟨T, hle _ List.mem_cons_self, hle 1 (List.mem_cons_of_mem _ List.mem_cons_self),
    fun r hr => hle r (List.mem_cons_of_mem _ (List.mem_cons_of_mem _ hr))⟩

theorem later_two {past : List (Op φ)} (hpast : Clocked past) {T : Int} (hpos : 0 < T)
    (hT : ∀ r ∈ past.flatMap Op.readings, r ≤ T) {e e' : UpdateEnv φ} (h : e.now = T ∧ e.later = T)
    (h' : e'.now = T ∧ e'.later = T) : Later past [.update e, .update e'] := by
  refine ⟨by simp [Op.continues], ?_⟩
  obtain ⟨hsorted, hall⟩ := hpast
  unfold Clocked
  rw [List.flatMap_append]
  have hr : List.flatMap Op.readings [Op.update e, Op.update e'] = [T, T, T, T] := by
    simp [Op.readings, h.1, h.2, h'.1, h'.2]
  rw [hr]
  constructor
  · rw [List.pairwise_append]
    refine ⟨hsorted, by simp, ?_⟩
    intro r hr s hs
    rw [show s = T by simpa using hs]
    exact hT r hr
  · intro r hr
    rcases List.mem_append.mp hr with hr | hr
    · exact hall r hr
    · rw [show r = T by simpa using hr]
      exact hpos

/-- **If later calls cannot tell a player from a new one, nothing of an earlier video was left for `play` to keep.** -/
theorem ready_of_sameObservations [Inhabited φ] {past : List (Op φ)} (hpast : Clocked past) {p : Player}
    (hi : p.Idle) {file : Option Fi} {e : PlayEnv} (hplay : (p.play (φ := φ) file e).result = .ok true)
    (h : SameObservations past (p.play (φ := φ) file e).player (p.fresh.play (φ := φ) file e).player) : p.Ready := by
  have hplay' : (p.fresh.play (φ := φ) file e).result = .ok true := (Player.play_result p.fresh p file e).trans hplay
  obtain ⟨ha, hs, hpaused, hstart⟩ := Player.play_started_active hi hplay
  obtain ⟨ha', hs', hpaused', hstart'⟩ := Player.play_started_active (fun _ => ⟨rfl, rfl⟩) hplay'
  generalize (p.play (φ := φ) file e).player = p' at h ha hs hpaused hstart
  generalize (p.fresh.play (φ := φ) file e).player = q' at h ha' hs' hpaused' hstart'
  obtain ⟨T, hT, hpos, hlast⟩ := exists_later_clock past p'.startTime
  -- what the second update shows when the first picture has the timestamp `timestamp`
  have key : ∀ timestamp : Int, (!p.paused &&
      !decide (timestamp - (T - if !p.paused && p'.startTime == 0 then T else p'.startTime) > 20)) =
      !decide (timestamp > 20) := by
    intro timestamp
    let u : UpdateEnv φ := ⟨T, some default, 0, T, timestamp, 0, e⟩
    have hu : u.now = T ∧ u.later = T := ⟨rfl, rfl⟩
    have htrace := h _ (later_two hpast hpos hlast hu hu)
    have hsecond : observe (Player.answer ((p'.update u).player.update u)) =
        observe (Player.answer ((q'.update u).player.update u)) :=
      List.head_eq_of_cons_eq (List.tail_eq_of_cons_eq htrace)
    have hf := Player.fetches_eq hsecond
    rw [Player.update_shown_fetches ha hs rfl, Player.update_shown_fetches ha' hs' rfl, hpaused, hpaused',
      hstart'] at hf
    simpa [Player.fresh, Player.new, u] using hf
  have hp : p.paused = false := by
    have hk := key 0
    cases hb : p.paused with
    | false => rfl
    | true => simp [hb] at hk
  refine ⟨hp, fun hd => ?_⟩
  by_contra hne
  rw [hd] at hstart
  have hs : p'.startTime = p.startTime := hstart
  -- a picture exactly as far ahead of the old clock as is allowed: too far ahead of a clock that starts now
  have hk := key (20 + T - p'.startTime)
  have hearly : 20 + T - p'.startTime > 20 := by omega
  have hdue : ¬ (20 + T - p'.startTime - (T - p'.startTime) > 20) := by omega
  have hstarted : (p'.startTime == 0) = false := by
    rw [hs]
    exact beq_false_of_ne hne
  rw [hp, hstarted, decide_eq_true hearly, Bool.and_false, if_neg Bool.false_ne_true, decide_eq_false hdue] at hk
  cases hk

/-- **A play that returns true forgets the past exactly when the player was not paused, and had a decoder to stop or a
clock at 0**: then it goes on as a new player would, in every observation of every later sequence of updates, pauses and
resumes; and when it does not, some such sequence shows it. -/
theorem play_forgets_iff [Inhabited φ] (looping sizeListener completionListener : Bool) (past : List (Op φ))
    (hpast : Clocked past) (file : Option Fi) (e : PlayEnv) (p : Player)
    (hp : p = (observedPlayer φ).after (Player.new looping sizeListener completionListener) past)
    (hplay : (p.play (φ := φ) file e).result = .ok true) :
    (Forgets past (p.play (φ := φ) file e).player (p.fresh.play (φ := φ) file e).player ↔ p.Ready) ∧
      (SameObservations past (p.play (φ := φ) file e).player (p.fresh.play (φ := φ) file e).player → p.Ready) := by
  have hi : p.Idle := by
    rw [hp]
    exact Player.idle_after _ _ _ past
  refine ⟨⟨fun h => ready_of_sameObservations hpast hi hplay h.observations, fun hr => ?_⟩,
    ready_of_sameObservations hpast hi hplay⟩
  have hagree : Player.Agree (p.play (φ := φ) file e).player (p.fresh.play (φ := φ) file e).player :=
    Player.play_agree_fresh hi hr hplay
  obtain ⟨-, hs, hpaused, hstart⟩ := Player.play_started_active hi hplay
  refine ⟨?_, hpaused.trans hr.1, ?_, hs, ?_⟩
  · intro later hl
    exact Player.agree_bisimulation.trace_eq hagree hl.continues
  · rw [hstart]
    cases hd : p.decoder with
    | none => exact hr.2 hd
    | some decoder => rfl
  · intro later hl hpos
    obtain ⟨t, f, g, b, hq, hb⟩ := Player.agree_bisimulation.after hagree hl.continues
    have ht := congrArg Player.timeBeforePause hq
    exact (ht.trans (hb hpos)).symm

def goodPlay (stream decoder : Nat) : PlayEnv :=
  ⟨true, true, some stream, some decoder, .buffers ⟨false, 4, 4, 4⟩, none⟩

def frameAt (now : Int) (v : Nat) : UpdateEnv Nat := ⟨now, some v, v, now, 0, 0, goodPlay 9 9⟩

/-- A video that was paused and resumed is forgotten by the next play. -/
theorem play_forgets_resumed :
    Forgets [.play (some ⟨"a"⟩) (goodPlay 1 1), .update (frameAt 5 0), .pause 7, .resume 20]
      ((((observedPlayer Nat).after (Player.new true false true)
        [.play (some ⟨"a"⟩) (goodPlay 1 1), .update (frameAt 5 0), .pause 7, .resume 20]).play (φ := Nat)
          (some ⟨"b"⟩) (goodPlay 2 2))).player
      ((Player.new true false true).play (φ := Nat) (some ⟨"b"⟩) (goodPlay 2 2)).player :=
  (play_forgets_iff true false true
    [.play (some ⟨"a"⟩) (goodPlay 1 1), .update (frameAt 5 0), .pause 7, .resume 20] (by decide) (some ⟨"b"⟩)
    (goodPlay 2 2) _ rfl rfl).1.mpr ⟨rfl, fun h => nomatch h⟩

/-- **A video paused and stopped leaves the next one paused**: its second update fetches no frame, while that of a new
player does. -/
theorem play_keeps_pause :
    Clocked (φ := Nat) [.play (some ⟨"a"⟩) (goodPlay 1 1), .pause 5, .stop] ∧
      (((observedPlayer Nat).after (Player.new false false false)
        [.play (some ⟨"a"⟩) (goodPlay 1 1), .pause 5, .stop]).play (φ := Nat)
          (some ⟨"b"⟩) (goodPlay 2 2)).result = .ok true ∧
      ¬ Forgets (φ := Nat) [.play (some ⟨"a"⟩) (goodPlay 1 1), .pause 5, .stop]
        (((observedPlayer Nat).after (Player.new false false false)
          [.play (some ⟨"a"⟩) (goodPlay 1 1), .pause 5, .stop]).play (φ := Nat) (some ⟨"b"⟩) (goodPlay 2 2)).player
        ((Player.new false false false).play (φ := Nat) (some ⟨"b"⟩) (goodPlay 2 2)).player := by
  refine ⟨by decide, rfl, fun h => ?_⟩
  have hl : Later (φ := Nat) [.play (some ⟨"a"⟩) (goodPlay 1 1), .pause 5, .stop]
      [.update (frameAt 6 0), .update (frameAt 7 1)] := ⟨by decide, by decide⟩
  exact absurd (h.observations _ hl) (by decide)

end ArcVideo
