import ArcVideo.Player.Player

/-!
# What an operation does to streams and decoders

* `Event.quiet` : the calls that neither open nor close a stream or a decoder nor load one;
* `Quiet` : such calls, by a method that keeps the stream, its channel and the decoder;
* `Player.Updates` : an update makes quiet calls, and around a play when it restarts the video;
* `Player.Applies` : every operation is a play, an update, or quiet calls, which a stop may come before.
-/

namespace ArcVideo

variable {φ : Type}

def Event.quiet : Event φ → Bool
  | .openStream _ | .closeStream _ | .newChannel _ | .newDecoder _ | .loadStream _ _ | .disposeDecoder _ => false
  | _ => true

structure SameHeld (p q : Player) : Prop where
  inputStream : q.inputStream = p.inputStream
  fileChannel : q.fileChannel = p.fileChannel
  decoder : q.decoder = p.decoder

structure Quiet (p : Player) (es : List (Event φ)) (q : Player) : Prop where
  held : SameHeld p q
  calls : ∀ e ∈ es, e.quiet = true

theorem Quiet.nil {p q : Player} (h : SameHeld p q) : Quiet (φ := φ) p [] q :=
  ⟨h, fun _ he => absurd he List.not_mem_nil⟩

theorem Quiet.append {p q r : Player} {es es' : List (Event φ)} (h : Quiet p es q) (h' : Quiet q es' r) :
    Quiet p (es ++ es') r := by
  refine ⟨⟨?_, ?_, ?_⟩, fun e he => ?_⟩
  · rw [h'.held.inputStream, h.held.inputStream]
  · rw [h'.held.fileChannel, h.held.fileChannel]
  · rw [h'.held.decoder, h.held.decoder]
  · rcases List.mem_append.mp he with he | he
    · exact h.calls e he
    · exact h'.calls e he

theorem Quiet.option {α : Type} {p q : Player} (h : SameHeld p q) (a : Option α) (f : α → Event φ)
    (hf : ∀ x, (f x).quiet = true) : Quiet p (a.map f).toList q := by
  refine ⟨h, fun e he => ?_⟩
  obtain ⟨x, -, rfl⟩ := Option.map_eq_some_iff.mp (Option.mem_toList.mp he)
  exact hf x

namespace Player

/-! ## The methods -/

theorem quiet_openAudio (p : Player) (b : VideoDecoderBuffers) (music : Option Nat) :
    Quiet p (p.openAudio (φ := φ) b music).2 (p.openAudio (φ := φ) b music).1 := by
  unfold openAudio
  split
  · apply Quiet.option
    · exact ⟨rfl, rfl, rfl⟩
    · exact fun _ => rfl
  · exact .nil ⟨rfl, rfl, rfl⟩

theorem quiet_openVideo (p : Player) (b : VideoDecoderBuffers) :
    Quiet p (p.openVideo (φ := φ) b).2 (p.openVideo (φ := φ) b).1 := by
  obtain ⟨t, es, he, hes⟩ := openVideo_cases (φ := φ) p b
  rw [he]
  rcases hes with ⟨-, rfl⟩ | ⟨u, -, -, -, -, rfl⟩
  · apply Quiet.option
    · exact ⟨rfl, rfl, rfl⟩
    · exact fun _ => rfl
  · exact .nil ⟨rfl, rfl, rfl⟩

theorem quiet_onVideoSize (p : Player) : Quiet (φ := φ) p
    (if p.sizeListener then [.onVideoSize p.currentVideoWidth p.currentVideoHeight] else [])
    { p with playing := true } := by
  refine ⟨⟨rfl, rfl, rfl⟩, fun e he => ?_⟩
  split at he
  · rw [List.mem_singleton.mp he]
    rfl
  · exact absurd he List.not_mem_nil

theorem quiet_startClock (p : Player) (e : UpdateEnv φ) : Quiet p (p.startClock e).2 (p.startClock e).1 := by
  unfold startClock
  split
  · apply Quiet.option
    · exact ⟨rfl, rfl, rfl⟩
    · exact fun _ => rfl
  · exact .nil ⟨rfl, rfl, rfl⟩

theorem quiet_upload (p : Player) (e : UpdateEnv φ) (v : φ) : Quiet p (p.upload e v).2 (p.upload e v).1 := by
  unfold upload
  split
  · exact ⟨⟨rfl, rfl, rfl⟩, by simp [Event.quiet]⟩
  · exact ⟨⟨rfl, rfl, rfl⟩, by simp [Event.quiet]⟩

theorem quiet_showFrame (p : Player) (e : UpdateEnv φ) : Quiet p (p.showFrame e).2 (p.showFrame e).1 := by
  have hrender : Quiet (φ := φ) p p.renderVideoFrame p :=
    ⟨⟨rfl, rfl, rfl⟩, by simp [renderVideoFrame, Event.quiet]⟩
  have hsame : SameHeld p (p.showFrame e).1 := ⟨rfl, rfl, rfl⟩
  exact hrender.append (.option hsame p.decoder .getCurrentFrameTimestamp fun _ => rfl)

/-- `update`, with the picture or without one, up to a restart. -/
inductive Updates (p : Player) (e : UpdateEnv φ) : Player → List (Event φ) → Prop
  | quiet {q : Player} {es : List (Event φ)} : Quiet p es q → Updates p e q es
  | restart {r q : Player} {before after : List (Event φ)} (d : Nat) : p.decoder = some d → Quiet p before r →
      Quiet (r.play (φ := φ) r.currentFile e.play).player after q →
      Updates p e q (before ++ (r.play r.currentFile e.play).events ++ after)

theorem Updates.after {p q r : Player} {e : UpdateEnv φ} {es es' : List (Event φ)} (h : Quiet p es q)
    (h' : Updates q e r es') : Updates p e r (es ++ es') := by
  cases h' with
  | quiet h' => exact .quiet (h.append h')
  | restart d hd hb ha =>
      rw [← List.append_assoc, ← List.append_assoc]
      exact .restart d (h.held.decoder.symm.trans hd) (h.append hb) ha

theorem updates_restart {p : Player} {d : Nat} (hd : p.decoder = some d) (e : UpdateEnv φ) :
    Updates p e (p.restart e).player (p.restart e).events := by
  have hplay : ∀ {after : List (Event φ)}, Quiet (p.play (φ := φ) p.currentFile e.play).player after
      (p.play (φ := φ) p.currentFile e.play).player → Updates p e (p.play (φ := φ) p.currentFile e.play).player
      ((p.play p.currentFile e.play).events ++ after) := fun h => .restart d hd (.nil ⟨rfl, rfl, rfl⟩) h
  have hnil := hplay (.nil ⟨rfl, rfl, rfl⟩)
  rw [List.append_nil] at hnil
  unfold restart
  dsimp only
  split
  · apply hplay
    apply Quiet.option
    · exact ⟨rfl, rfl, rfl⟩
    · exact fun _ => rfl
  · exact hnil
  · exact hnil

theorem updates_noFrame {p : Player} {d : Nat} (hd : p.decoder = some d) (e : UpdateEnv φ) :
    Updates p e (p.noFrame e).player (p.noFrame e).events := by
  unfold noFrame
  split
  · exact .quiet (.nil ⟨rfl, rfl, rfl⟩)
  split
  · exact updates_restart hd e
  · refine .quiet ⟨⟨rfl, rfl, rfl⟩, fun e he => ?_⟩
    split at he
    · rw [List.mem_singleton.mp he]
      rfl
    · exact absurd he List.not_mem_nil

theorem updates_advance {p : Player} {d : Nat} (hd : p.decoder = some d) (e : UpdateEnv φ) :
    Updates p e (p.advance d e).player (p.advance d e).events := by
  have hnext : Quiet (φ := φ) p [.nextVideoFrame d] p := ⟨⟨rfl, rfl, rfl⟩, by simp [Event.quiet]⟩
  unfold advance
  split
  · cases e.videoData with
    | some v => exact .quiet ((hnext.append (quiet_upload p e v)).append (quiet_showFrame _ e))
    | none => exact .after hnext (updates_noFrame hd e)
  · exact .quiet (quiet_showFrame p e)

/-- **The calls of `update`**: they restart the video only when there is a decoder. -/
theorem updates_update (p : Player) (e : UpdateEnv φ) : Updates p e (p.update e).player (p.update e).events := by
  cases ha : p.active with
  | false =>
      rw [update_of_inactive ha e]
      exact .quiet (.nil ⟨rfl, rfl, rfl⟩)
  | true =>
      obtain ⟨d, hd, hu⟩ := update_of_active ha e
      rw [hu]
      have hclock := quiet_startClock p e
      exact .after hclock (updates_advance (hclock.held.decoder.trans hd) e)

/-! ## The operations -/

inductive Applies (p : Player) : Op φ → Player → List (Event φ) → Prop
  | play (file : Option Fi) (e : PlayEnv) :
      Applies p (.play file e) (p.play (φ := φ) file e).player (p.play file e).events
  | update (e : UpdateEnv φ) {q : Player} {es : List (Event φ)} : Updates p e q es → Applies p (.update e) q es
  | stop {op : Op φ} {q : Player} {es : List (Event φ)} : (∀ file e, op ≠ .play file e) →
      Quiet (p.stop (φ := φ)).1 es q → Applies p op q (p.stop.2 ++ es)
  | quiet {op : Op φ} {q : Player} {es : List (Event φ)} : (∀ file e, op ≠ .play file e) → Quiet p es q →
      Applies p op q es

/-- **The calls of every operation.** -/
theorem applies_apply (p : Player) (op : Op φ) : Applies p op (p.apply op).player (p.apply op).events := by
  cases op with
  | play file e => exact .play file e
  | update e => exact .update e (updates_update p e)
  | pause now =>
      refine .quiet (by simp) ?_
      unfold apply done pause
      dsimp only
      split
      · exact .nil ⟨rfl, rfl, rfl⟩
      · apply Quiet.option
        · exact ⟨rfl, rfl, rfl⟩
        · exact fun _ => rfl
  | resume now =>
      refine .quiet (by simp) ?_
      unfold apply done resume
      dsimp only
      split
      · apply Quiet.option
        · exact ⟨rfl, rfl, rfl⟩
        · exact fun _ => rfl
      · exact .nil ⟨rfl, rfl, rfl⟩
  | stop =>
      rw [show (p.apply (φ := φ) .stop).events = p.stop.2 ++ [] from (List.append_nil _).symm]
      exact .stop (by simp) (.nil ⟨rfl, rfl, rfl⟩)
  | dispose =>
      refine .stop (by simp) ?_
      apply Quiet.option
      · exact ⟨rfl, rfl, rfl⟩
      · exact fun _ => rfl
  | setFilter minFilter magFilter =>
      refine .quiet (by simp) ?_
      unfold apply done setFilter
      dsimp only
      split
      · exact .nil ⟨rfl, rfl, rfl⟩
      · apply Quiet.option
        · exact ⟨rfl, rfl, rfl⟩
        · exact fun _ => rfl
  | setVolume volume =>
      refine .quiet (by simp) ?_
      apply Quiet.option
      · exact ⟨rfl, rfl, rfl⟩
      · exact fun _ => rfl
  | setLooping looping => exact .quiet (by simp) (.nil ⟨rfl, rfl, rfl⟩)
  | setOnVideoSizeListener listener => exact .quiet (by simp) (.nil ⟨rfl, rfl, rfl⟩)
  | setOnCompletionListener listener => exact .quiet (by simp) (.nil ⟨rfl, rfl, rfl⟩)

end Player

end ArcVideo
