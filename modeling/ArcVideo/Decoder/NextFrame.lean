import ArcVideo.Decoder.RingBuffer

/-!
# What `nextVideoFrame` returns without a frame

`nextVideoFrame` reads `totalFramesBuffered`, then `currentFrameDisplayed`, then `videoOutputEnded`, then
`totalFramesBuffered` again, all without the mutex. Two answers go wrong when the decoding thread moves in between:

* NULL, the end of the video, while the ring still holds frames (`null_after_end`, `null_before_end`): the thread
  publishes its last frames and ends after the consumer has seen the ring empty;
* slot 0, in which no frame was ever written (`returned_written_iff`, `returned_unwritten`): the thread publishes its
  first frame after the consumer has seen the ring empty.
-/

namespace ArcVideo
open Conc

variable {φ π : Type}

/-! ## The places at the end of the video -/

/-- The places of `run` once it has ended: it decodes no further frame. -/
def RunPc.ending : RunPc φ π → Bool
  | .checkEnded | .unlockLast | .cleanup | .ret | .returned => true
  | _ => false

def ConsumerPc.deleting : ConsumerPc → Bool
  | .delLock | .delVideo | .delAudio | .delSignal | .delUnlock | .delJoin | .delFree | .deleted => true
  | _ => false

/-- When only `run` sets `videoOutputEnded`, the number of frames is final once it is set. -/
theorem RunMove.final {c : Container} {a : RunAct φ} {l l' : RunPc φ π} {d d' : VideoDecoder φ π}
    (h : RunMove c a l d l' d') (hend : d.videoOutputEnded = true → l.ending = true)
    (he : d'.videoOutputEnded = true) :
    l'.ending = true ∧ d'.totalFramesBuffered = d.totalFramesBuffered ∧
      (d.videoOutputEnded = true ∨ l = .setEnded) := by
  cases h with
  | setEnded => exact ⟨rfl, rfl, Or.inr rfl⟩
  | stop | unlockLast | cleanup | ret => exact ⟨rfl, rfl, Or.inl he⟩
  | goWait hf => exact absurd he (by rw [hf]; exact Bool.false_ne_true)
  | _ => exact absurd (hend he) Bool.false_ne_true

theorem ConsumerMove.called {l l' : ConsumerPc} {d d' : VideoDecoder φ π}
    (h : ConsumerMove .nextVideoFrame l d l' d') : l' = .readTotal ∧ d' = d := by
  cases h
  exact ⟨rfl, rfl⟩

theorem ConsumerMove.deleting {a : ConsumerAct} {l l' : ConsumerPc} {d d' : VideoDecoder φ π}
    (h : ConsumerMove a l d l' d') :
    (l.deleting = true → l'.deleting = true) ∧
      (d'.videoOutputEnded = true → d.videoOutputEnded = true ∨ l'.deleting = true) := by
  cases h with
  | delVideo => exact ⟨fun _ => rfl, fun _ => Or.inr rfl⟩
  | delete | delLock | delAudio | delSignal | delUnlock | delJoin | delFree => exact ⟨fun _ => rfl, Or.inl⟩
  | _ => exact ⟨nofun, Or.inl⟩

theorem ended_cases {c : Container} {file : List (Demuxed π)} {h : List (State φ π × Action φ)} {s : State φ π}
    (hr : (decoder φ c file).Run h s) (he : s.shared.videoOutputEnded = true) :
    s.consumer.deleting = true ∨ s.run.ending = true := by
  refine System.RunWhen.induction (P := fun _ s => s.shared.videoOutputEnded = true →
    s.consumer.deleting = true ∨ s.run.ending = true) ?_ ?_ hr he
  · rintro _ rfl he
    cases he
  · rintro h s ⟨t, a⟩ s' hr ih - hstep he
    obtain ⟨l, d, hs, rfl⟩ := Program.next_eq_some hstep
    cases t with
    | run =>
        by_cases hd : s.consumer.deleting = true
        · exact Or.inl hd
        · exact Or.inr ((run_move hs).final (fun he => (ih he).resolve_left hd) he).1
    | consumer =>
        obtain ⟨hdel, hset⟩ := (consumer_move hs).deleting
        rcases hset he with he | hd
        · exact (ih he).imp_left hdel
        · exact Or.inl hd
    | audio => exact ih ((step_effect hs).ended_eq rfl ▸ he)

/-! ## NULL is the end of the video -/

/-- The number of frames decoded when `nextVideoFrame` was last called. -/
def decodedAtCall (h : List (State φ π × Action φ)) : Nat :=
  h.foldl (fun n p => match p.2 with
    | ⟨.consumer, .nextVideoFrame⟩ => p.1.shared.totalFramesBuffered
    | _ => n) 0

theorem decodedAtCall_call (h : List (State φ π × Action φ)) (s : State φ π) :
    decodedAtCall (h ++ [(s, ⟨.consumer, .nextVideoFrame⟩)]) = s.shared.totalFramesBuffered := by
  rw [decodedAtCall, List.foldl_append]
  rfl

theorem decodedAtCall_snoc (h : List (State φ π × Action φ)) (s : State φ π) {a : Action φ}
    (ha : a ≠ ⟨.consumer, .nextVideoFrame⟩) : decodedAtCall (h ++ [(s, a)]) = decodedAtCall h := by
  rw [decodedAtCall, List.foldl_append, List.foldl_cons, List.foldl_nil]
  split
  · next hn => exact absurd hn ha
  · rfl

/-- The consumer has seen the ring empty after some frames, and a frame has been published since. -/
def ConsumerPc.outOfDate (d : VideoDecoder φ π) : ConsumerPc → Bool
  | .readDisplayed n =>
    decide (1 ≤ n) && decide (n ≤ d.currentFrameDisplayed) && decide (d.currentFrameDisplayed < d.totalFramesBuffered)
  | .readEnded n => decide (1 ≤ n) && decide (d.currentFrameDisplayed < d.totalFramesBuffered)
  | _ => false

def RunPc.settingEnded : RunPc φ π → Bool
  | .setEnded => true
  | _ => false

/-- `run` does not set `videoOutputEnded` between the reads of a consumer that is out of date. -/
def endsInTime (s : State φ π) (a : Action φ) : Prop :=
  a.1 = .run → s.run.settingEnded = true → s.consumer.outOfDate s.shared = false

instance (s : State φ π) (a : Action φ) : Decidable (endsInTime s a) := inferInstanceAs (Decidable (_ → _ → _))

/-- What the consumer knows of the end of the video; `k` frames were decoded when it called `nextVideoFrame`. -/
def ConsumerPc.seesEnd (k : Nat) (d : VideoDecoder φ π) : ConsumerPc → Prop
  | .readTotal => k ≤ d.totalFramesBuffered
  | .readDisplayed n => k ≤ n ∧ (1 ≤ n → d.videoOutputEnded = true → n ≤ d.currentFrameDisplayed →
      d.totalFramesBuffered ≤ d.currentFrameDisplayed)
  | .readEnded n => k ≤ n ∧ (1 ≤ n → d.videoOutputEnded = true → d.totalFramesBuffered ≤ d.currentFrameDisplayed)
  | .readZero n => k ≤ n
  | .returnNull => 1 ≤ k → d.videoOutputEnded = true ∧ d.totalFramesBuffered ≤ d.currentFrameDisplayed
  | _ => True

theorem ConsumerMove.seesEnd {a : ConsumerAct} {l l' : ConsumerPc} {d d' : VideoDecoder φ π}
    (h : ConsumerMove a l d l' d') (hr : ConsumerRing l d) {k : Nat} (hk : l.seesEnd k d)
    (ha : a ≠ .nextVideoFrame) : l'.seesEnd k d' := by
  have hle := hr.le
  cases h with
  | nextVideoFrame => exact absurd rfl ha
  | readTotal => exact ⟨hk, fun _ _ hn => hn⟩
  | starved hn => exact ⟨hk.1, fun h1 he => hk.2 h1 he hn⟩
  | ended he => exact fun h1 => ⟨he, hk.2 (h1.trans hk.1) he⟩
  | notEnded => exact hk.1
  | @zero d n hz =>
      intro h1
      have hn : n = d.currentFrameDisplayed := hr.sees
      have hkn : k ≤ n := hk
      omega
  | bufFull | bufEnded => split_ifs <;> trivial
  | _ => trivial

theorem ConsumerPc.seesEnd.stable {l : ConsumerPc} {k : Nat} {d d' : VideoDecoder φ π} (hk : l.seesEnd k d)
    (hcur : d'.currentFrameDisplayed = d.currentFrameDisplayed) (htot : d.totalFramesBuffered ≤ d'.totalFramesBuffered)
    (hmono : d.videoOutputEnded = true → d'.videoOutputEnded = true)
    (hfinal : l.deleting = false → d'.videoOutputEnded = true → d'.totalFramesBuffered = d.totalFramesBuffered ∧
      (d.videoOutputEnded = true ∨ l.outOfDate d = false)) : l.seesEnd k d' := by
  cases l with
  | readTotal => exact le_trans hk htot
  | readDisplayed n =>
      refine ⟨hk.1, fun h1 he' hn => ?_⟩
      obtain ⟨heq, he | hod⟩ := hfinal rfl he'
      · rw [heq, hcur]
        exact hk.2 h1 he (hcur ▸ hn)
      · rw [heq, hcur]
        rw [hcur] at hn
        simpa [ConsumerPc.outOfDate, h1, hn] using hod
  | readEnded n =>
      refine ⟨hk.1, fun h1 he' => ?_⟩
      obtain ⟨heq, he | hod⟩ := hfinal rfl he'
      · rw [heq, hcur]
        exact hk.2 h1 he
      · rw [heq, hcur]
        simpa [ConsumerPc.outOfDate, h1] using hod
  | readZero n => exact hk
  | returnNull =>
      intro h1
      obtain ⟨he, hle⟩ := hk h1
      rw [(hfinal rfl (hmono he)).1, hcur]
      exact ⟨hmono he, hle⟩
  | _ => trivial

section
variable {c : Container} {file : List (Demuxed π)} {h : List (State φ π × Action φ)} {s : State φ π}

theorem seesEnd_of_run (hr : (decoder φ c file).RunWhen endsInTime h s) :
    s.consumer.seesEnd (decodedAtCall h) s.shared := by
  refine System.RunWhen.induction (P := fun h s => s.consumer.seesEnd (decodedAtCall h) s.shared) ?_ ?_ hr
  · rintro _ rfl
    trivial
  · rintro h s ⟨t, a⟩ s' hr hk hok hstep
    obtain ⟨l, d, hs, rfl⟩ := Program.next_eq_some hstep
    have heff := step_effect hs
    cases t with
    | run =>
        rw [decodedAtCall_snoc h s (by simp)]
        refine ConsumerPc.seesEnd.stable hk (heff.displayed_eq nofun) heff.total_le heff.ended_of fun hdel he' => ?_
        have hend : s.shared.videoOutputEnded = true → s.run.ending = true := fun he =>
          (ended_cases hr.run he).resolve_left (Bool.eq_false_iff.mp hdel)
        obtain ⟨-, heq, he⟩ := (run_move hs).final hend he'
        exact ⟨heq, he.imp_right fun hl => hok rfl (congrArg RunPc.settingEnded hl)⟩
    | consumer =>
        by_cases ha : a = .nextVideoFrame
        · subst ha
          obtain ⟨rfl, rfl⟩ := (consumer_move hs).called
          rw [decodedAtCall_call]
          exact le_refl s.shared.totalFramesBuffered
        · rw [decodedAtCall_snoc h s (by simpa using ha)]
          exact (consumer_move hs).seesEnd (consumer_ring hr.run) hk ha
    | audio =>
        rw [decodedAtCall_snoc h s (by simp)]
        exact ConsumerPc.seesEnd.stable hk (heff.displayed_eq nofun) heff.total_le heff.ended_of fun _ he' =>
          ⟨heff.total_eq nofun, Or.inl (heff.ended_eq rfl ▸ he')⟩

/-- **NULL is the end of the video** as long as `run` never ends between the reads of a consumer that is out of date:
a call made after a frame was decoded returns NULL only when the thread has ended the video and leaves, and all its
frames are delivered. -/
theorem null_after_end (hr : (decoder φ c file).RunWhen endsInTime h s) (hnull : s.consumer = .returnNull)
    (hcall : 1 ≤ decodedAtCall h) :
    s.shared.videoOutputEnded = true ∧ s.run.ending = true ∧
      framesDelivered h = (framesWritten h).map AVFrame.toRgb := by
  have hk := seesEnd_of_run hr
  rw [hnull] at hk
  obtain ⟨he, hle⟩ := hk hcall
  refine ⟨he, (ended_cases hr.run he).resolve_left (by rw [hnull]; exact Bool.false_ne_true), ?_⟩
  obtain ⟨q, hq, hlen, -⟩ := written_eq_delivered hr.run
  have hfrom : queueFrom s.consumer s.shared = s.shared.currentFrameDisplayed + 1 := by rw [hnull]; rfl
  rw [hq, List.eq_nil_of_length_eq_zero (by omega : q.length = 0), List.append_nil]

end

/-- The thread decodes one frame and ends, the frame is delivered, and the next call returns NULL. -/
theorem null_after_end_one_frame : ∃ h s, (videoDecoder 1).Run h s ∧ s.consumer = .returnNull ∧
    s.shared.videoOutputEnded = true ∧ s.run.ending = true ∧ framesDelivered h = [⟨some 7, 0⟩] ∧
      framesDelivered h = (framesWritten h).map AVFrame.toRgb := by
  obtain ⟨h, s, hr, hok, hnull, hcall, hframes⟩ := (videoDecoder 1).exists_run rfl
    (Action.decodes ⟨7, 0⟩ ++ Action.runs 4 ++ Action.calls .nextVideoFrame 7 ++ Action.drains ++
      Action.calls .nextVideoFrame 3)
    (fun h s => (∀ p ∈ h, endsInTime p.1 p.2) ∧ s.consumer = .returnNull ∧ 1 ≤ decodedAtCall h ∧
      framesDelivered h = [⟨some 7, 0⟩]) (by decide +kernel)
  obtain ⟨hend, hending, hall⟩ := null_after_end (hr.when hok) hnull hcall
  exact ⟨h, s, hr, hnull, hend, hending, hframes, hall⟩

/-- The consumer has seen the ring empty; the thread publishes its second frame and ends; the consumer reads
`videoOutputEnded` and returns NULL. The second frame is lost. -/
theorem null_before_end : ∃ h s, (videoDecoder 2).Run h s ∧ s.consumer = .returnNull ∧ 1 ≤ decodedAtCall h ∧
    framesWritten h = [⟨7, 0⟩, ⟨8, 40⟩] ∧ framesDelivered h = [⟨some 7, 0⟩] ∧
      ¬ (s.run.ending = true ∧ framesDelivered h = (framesWritten h).map AVFrame.toRgb) := by
  obtain ⟨h, s, hr, hnull, hcall, hwritten, hdelivered⟩ := (videoDecoder 2).exists_run rfl
    (Action.decodes ⟨7, 0⟩ ++ Action.runs 4 ++ Action.calls .nextVideoFrame 7 ++ Action.calls .nextVideoFrame 2 ++
      Action.decodes ⟨8, 40⟩ ++ Action.runs 4 ++ Action.drains ++ Action.consumes 1)
    (fun h s => s.consumer = .returnNull ∧ 1 ≤ decodedAtCall h ∧ framesWritten h = [⟨7, 0⟩, ⟨8, 40⟩] ∧
      framesDelivered h = [⟨some 7, 0⟩]) (by decide +kernel)
  refine ⟨h, s, hr, hnull, hcall, hwritten, hdelivered, fun hend => ?_⟩
  have hlen := congrArg List.length hend.2
  rw [hwritten, hdelivered] at hlen
  exact absurd hlen (by decide)

/-! ## The slot returned -/

/-- The consumer has seen the ring empty before the first frame, and no frame has been published when it tests
`totalFramesBuffered == 0`. -/
def startsInTime (s : State φ π) (a : Action φ) : Prop :=
  a.1 = .consumer → s.consumer = .readZero 0 → s.shared.totalFramesBuffered = 0

instance (s : State φ π) (a : Action φ) : Decidable (startsInTime s a) := inferInstanceAs (Decidable (_ → _ → _))

theorem framesWritten_subset {h : List (State φ π × Action φ)} {f : AVFrame φ} (hf : f ∈ framesWritten h)
    (p : State φ π × Action φ) : f ∈ framesWritten (h ++ [p]) := by
  rw [framesWritten, List.filterMap_append]
  exact List.mem_append_left _ hf

theorem ConsumerMove.advanced {a : ConsumerAct} {l' : ConsumerPc} {d d' : VideoDecoder φ π}
    (h : ConsumerMove a .advance d l' d') : l'.taken = true := by
  cases h
  rfl

/-- A call returns without advancing only from the test of `totalFramesBuffered`, where it read a frame. -/
theorem ConsumerMove.returns_without_advance {a : ConsumerAct} {l l' : ConsumerPc} {d d' : VideoDecoder φ π}
    (h : ConsumerMove a l d l' d') (hl : l' = .returnFrame false) :
    ∃ n, l = .readZero n ∧ d' = d ∧ d.totalFramesBuffered ≠ 0 := by
  cases h with
  | notZero hne => exact ⟨_, rfl, rfl, hne⟩
  | bufFull | bufEnded => split_ifs at hl
  | _ => cases hl

theorem ConsumerMove.not_zero {a : ConsumerAct} {n : Nat} {l' : ConsumerPc} {d d' : VideoDecoder φ π}
    (h : ConsumerMove a (.readZero n) d l' d') (hne : d.totalFramesBuffered ≠ 0) :
    l' = .returnFrame false ∧ d' = d := by
  cases h with
  | zero hz => exact absurd hz hne
  | notZero => exact ⟨rfl, rfl⟩

section
variable {c : Container} {file : List (Demuxed π)} {h : List (State φ π × Action φ)} {s : State φ π}

/-- While the consumer has a frame to return, the slot it returns was written by `run`. -/
theorem taken_written (hr : (decoder φ c file).Run h s) (ht : s.consumer.taken = true) :
    ∃ f ∈ framesWritten h, s.shared.rgbFrames s.shared.getReadIndex = f.toRgb := by
  obtain ⟨q, hq, hlen, hholds⟩ := written_eq_delivered hr
  have hle := (consumer_ring hr).le
  rw [queueFrom, if_pos ht] at hlen hholds
  cases q with
  | nil =>
      rw [List.length_nil] at hlen
      omega
  | cons x q =>
      have hx : x ∈ (framesWritten h).map AVFrame.toRgb := by
        rw [hq]
        exact List.mem_append_right _ List.mem_cons_self
      obtain ⟨f, hf, hfx⟩ := List.mem_map.mp hx
      exact ⟨f, hf, hholds.head.trans hfx.symm⟩

theorem shown_written (hr : (decoder φ c file).Run h s) (hpos : 1 ≤ s.shared.currentFrameDisplayed) :
    ∃ f ∈ framesWritten h, s.shared.rgbFrames s.shared.getReadIndex = f.toRgb := by
  refine System.RunWhen.induction (P := fun h s => 1 ≤ s.shared.currentFrameDisplayed →
    ∃ f ∈ framesWritten h, s.shared.rgbFrames s.shared.getReadIndex = f.toRgb) ?_ ?_ hr hpos
  · rintro _ rfl hpos
    exact absurd hpos (Nat.not_succ_le_zero 0)
  · rintro h s a s' hr ih - hstep hpos
    by_cases hok : keepsFrame s a
    · have hcur := step_displayed hstep hok
      obtain ⟨f, hf, hslot⟩ := ih (hcur ▸ hpos)
      refine ⟨f, framesWritten_subset hf _, ?_⟩
      rw [VideoDecoder.getReadIndex, hcur]
      exact (step_shown hr hstep).trans hslot
    · obtain ⟨t, a⟩ := a
      obtain ⟨rfl, hl⟩ := Classical.not_imp.mp hok
      refine taken_written (hr.snoc trivial hstep) ?_
      obtain ⟨l, d, hs, rfl⟩ := Program.next_eq_some hstep
      have hm := consumer_move hs
      rw [show s.loc .consumer = .advance from Classical.not_not.mp hl] at hm
      exact hm.advanced

theorem first_slot_empty (hr : (decoder φ c file).Run h s) (hz : s.shared.currentFrameDisplayed = 0) :
    s.shared.rgbFrames s.shared.getReadIndex = ⟨none, 0⟩ := by
  refine System.RunWhen.induction (P := fun _ s => s.shared.currentFrameDisplayed = 0 →
    s.shared.rgbFrames s.shared.getReadIndex = ⟨none, 0⟩) ?_ ?_ hr hz
  · rintro _ rfl -
    rfl
  · rintro h s a s' hr ih - hstep hz
    have hs0 : s.shared.currentFrameDisplayed = 0 := by
      obtain ⟨t, a⟩ := a
      obtain ⟨l, d, hs, rfl⟩ := Program.next_eq_some hstep
      exact Nat.le_zero.mp ((step_effect hs).displayed_le.trans hz.le)
    have hidx : s'.shared.getReadIndex = s.shared.getReadIndex := by
      rw [VideoDecoder.getReadIndex, hz, VideoDecoder.getReadIndex, hs0]
    rw [hidx, step_shown hr hstep]
    exact ih hs0

theorem returned_advanced (hr : (decoder φ c file).RunWhen startsInTime h s)
    (hl : s.consumer = .returnFrame false) : 1 ≤ s.shared.currentFrameDisplayed := by
  refine System.RunWhen.induction (P := fun _ s => s.consumer = .returnFrame false →
    1 ≤ s.shared.currentFrameDisplayed) ?_ ?_ hr hl
  · rintro _ rfl hl
    cases hl
  · rintro h s ⟨t, a⟩ s' hr ih hok hstep hl
    obtain ⟨l, d, hs, rfl⟩ := Program.next_eq_some hstep
    by_cases ht : t = .consumer
    · subst ht
      obtain rfl : l = .returnFrame false := by rwa [State.consumer, Config.put_loc_self] at hl
      obtain ⟨n, hread, rfl, hpos⟩ := (consumer_move hs).returns_without_advance rfl
      have hn : n = s.shared.currentFrameDisplayed := by
        have hsees := (consumer_ring hr.run).sees
        rwa [State.consumer, hread] at hsees
      rw [Config.put_shared, ← hn]
      refine Nat.one_le_iff_ne_zero.mpr fun hz => hpos (hok rfl ?_)
      rw [State.consumer, hread, hz]
    · rw [State.consumer, Config.put_loc_of_ne _ (Ne.symm ht)] at hl
      exact (ih hl).trans (step_effect hs).displayed_le

/-- **The slot returned was written by `run`** in every state of a run if and only if the consumer never tests
`totalFramesBuffered == 0` after a first frame it has not seen. -/
theorem returned_written_iff (hr : (decoder φ c file).Run h s) :
    (∀ g u b, g <+: h → (decoder φ c file).Run g u → u.consumer = .returnFrame b →
      ∃ f ∈ framesWritten g, u.shared.rgbFrames u.shared.getReadIndex = f.toRgb) ↔
    ∀ p ∈ h, startsInTime p.1 p.2 := by
  constructor
  · rintro hall ⟨s, t, a⟩ hp ht hread
    obtain ⟨g, u, hpre, hg, hstep⟩ := hr.prefix_of_mem hp
    by_contra hne
    obtain ⟨l, d, hs, rfl⟩ := Program.next_eq_some hstep
    obtain rfl : t = .consumer := ht
    have hm := consumer_move hs
    rw [show s.loc .consumer = .readZero 0 from hread] at hm
    obtain ⟨rfl, rfl⟩ := hm.not_zero hne
    have hcur : (0 : Nat) = s.shared.currentFrameDisplayed := by
      have hsees := (consumer_ring hg).sees
      rwa [show s.consumer = .readZero 0 from hread] at hsees
    obtain ⟨f, -, hslot⟩ := hall _ _ false hpre (hg.snoc trivial hstep) (Config.put_loc_self _ _ _ _)
    have hempty := first_slot_empty (hg.snoc trivial hstep) hcur.symm
    rw [hempty] at hslot
    cases hslot
  · rintro hok g u b hpre hg hl
    have hwhen := System.Run.when hg fun p hp => hok p (hpre.subset hp)
    refine shown_written hg ?_
    cases b with
    | true =>
        have hsees := (consumer_ring hg).sees
        rwa [hl] at hsees
    | false => exact returned_advanced hwhen hl

end

/-- The first call comes after the first frame and returns slot 1, which holds it. -/
theorem returned_written_first : ∃ h s, (videoDecoder 1).Run h s ∧ s.consumer = .returnFrame true ∧
    s.shared.getReadIndex = 1 ∧ ∃ f ∈ framesWritten h, s.shared.rgbFrames s.shared.getReadIndex = f.toRgb := by
  obtain ⟨h, s, hr, hok, hl, hidx⟩ := (videoDecoder 1).exists_run rfl
    (Action.decodes ⟨7, 0⟩ ++ Action.runs 4 ++ Action.calls .nextVideoFrame 6)
    (fun h s => (∀ p ∈ h, startsInTime p.1 p.2) ∧ s.consumer = .returnFrame true ∧ s.shared.getReadIndex = 1)
    (by decide +kernel)
  exact ⟨h, s, hr, hl, hidx, (returned_written_iff hr).mpr hok h s true (List.prefix_refl h) hr hl⟩

/-- The consumer has seen no frame; the thread publishes the first frame, into slot 1; the consumer sees
`totalFramesBuffered != 0` and returns slot 0. -/
theorem returned_unwritten : ∃ h s, (videoDecoder 1).Run h s ∧ s.consumer = .returnFrame false ∧
    s.shared.getReadIndex = 0 ∧ s.shared.rgbFrames 0 = ⟨none, 0⟩ ∧ framesWritten h = [⟨7, 0⟩] ∧
      ¬ ∃ f ∈ framesWritten h, s.shared.rgbFrames s.shared.getReadIndex = f.toRgb := by
  obtain ⟨h, s, hr, hl, hidx, hslot, hwritten⟩ := (videoDecoder 1).exists_run rfl
    (Action.calls .nextVideoFrame 3 ++ Action.decodes ⟨7, 0⟩ ++ Action.runs 4 ++ Action.consumes 1)
    (fun h s => s.consumer = .returnFrame false ∧ s.shared.getReadIndex = 0 ∧ s.shared.rgbFrames 0 = ⟨none, 0⟩ ∧
      framesWritten h = [⟨7, 0⟩]) (by decide +kernel)
  refine ⟨h, s, hr, hl, hidx, hslot, hwritten, ?_⟩
  rintro ⟨f, -, hf⟩
  rw [hidx, hslot] at hf
  cases hf

end ArcVideo
