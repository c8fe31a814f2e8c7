import ArcVideo.Player.Playback

/-!
# The new frames `update` reports

* `ReportsNew` : the updates that return true are those that upload a picture, and the k-th picture uploaded is that of
  the k-th frame decoded;
* `keepsNew` : the condition on a step. `nextVideoFrame` tests `totalFramesBuffered == 0` when it has found no frame and
  no end; the frame shown before is returned when the test fails;
* `reports_new_frames` : the condition is enough; `old_frame_reported` : a run that breaks it.
-/

namespace ArcVideo
open Conc

variable {φ π : Type}

/-- The updates that return true are those that upload a picture, one each; the k-th picture uploaded is that of the
k-th frame decoded. -/
structure ReportsNew (s : Playback φ π) : Prop where
  result : ∀ u ∈ s.updates, u.result = .ok true ∧ (∃ v, u.uploads = [v]) ∨ u.result ≠ .ok true ∧ u.uploads = []
  kth : ∀ k v, (s.updates.flatMap Step.uploads)[k]? = some v →
    v.number = k + 1 ∧ ∃ f, (framesWritten s.native.record)[k]? = some f ∧ v.data = some f.data

def ConsumerPc.testsZero : ConsumerPc → Bool
  | .readZero _ => true
  | _ => false

/-- Where `nextVideoFrame` tests `totalFramesBuffered == 0`, no frame has been decoded. -/
def keepsNew (s : Playback φ π) : PlaybackAct φ π → Bool
  | .native ⟨.consumer, .step⟩ => !s.native.state.consumer.testsZero || s.native.state.shared.totalFramesBuffered == 0
  | _ => true

/-! ## The frames returned -/

def numbered (fs : List (RgbFrame φ)) : List (Shown φ) := fs.mapIdx fun i f => ⟨i + 1, f.data⟩

theorem numbered_snoc (fs : List (RgbFrame φ)) (f : RgbFrame φ) :
    numbered (fs ++ [f]) = numbered fs ++ [⟨fs.length + 1, f.data⟩] := by
  unfold numbered
  rw [List.mapIdx_concat]

theorem delivered_of_ne {a : ConsumerAct} (ha : a ≠ .step) (s : State φ π) : delivered s ⟨.consumer, a⟩ = none := by
  show s.consumer.delivers s.shared a = none
  unfold ConsumerPc.delivers
  split
  next => exact absurd rfl ha
  next => rfl

namespace NativeDecoder

theorem framesDelivered_step {n n' : NativeDecoder φ π} {a : Action φ} (h : n.step a = some n') :
    framesDelivered n'.record = framesDelivered n.record ++ (delivered n.state a).toList := by
  obtain ⟨s, -, rfl⟩ := step_eq h
  exact framesDelivered_snoc _ _ _

theorem delivered_free {n : NativeDecoder φ π} {a : Action φ} (hf : n.free a = true) : delivered n.state a = none := by
  obtain ⟨t, a⟩ := a
  cases t with
  | run => rfl
  | audio => rfl
  | consumer =>
      by_cases ha : a = .step
      · subst ha
        have hans : n.answer.isNone = true := hf
        show n.state.consumer.delivers n.state.shared .step = none
        unfold answer at hans
        split at hans
        · cases hans
        · cases hans
        next hframe _ =>
          unfold ConsumerPc.delivers
          split
          next hc _ => exact absurd hc (hframe true)
          next => rfl
      · exact delivered_of_ne ha _

theorem framesDelivered_eq {n n' : NativeDecoder φ π} {a : Action φ} (h : n.step a = some n')
    (ha : delivered n.state a = none) : framesDelivered n'.record = framesDelivered n.record := by
  rw [framesDelivered_step h, ha, Option.toList_none, List.append_nil]

theorem framesDelivered_call {n n' : NativeDecoder φ π} (h : n.step ⟨.consumer, .nextVideoFrame⟩ = some n') :
    framesDelivered n'.record = framesDelivered n.record :=
  framesDelivered_eq h (delivered_of_ne (a := .nextVideoFrame) nofun _)

theorem consumer_step {n n' : NativeDecoder φ π} {a : ConsumerAct} (h : n.step ⟨.consumer, a⟩ = some n') :
    ConsumerMove a n.state.consumer n.state.shared n'.state.consumer n'.state.shared := by
  obtain ⟨s, hs, rfl⟩ := step_eq h
  obtain ⟨l, d, hmove, rfl⟩ := Program.next_eq_some hs
  have hl : State.consumer (Config.put n.state .consumer l d) = l := Config.put_loc_self _ _ _ _
  show ConsumerMove a _ _ (State.consumer (Config.put n.state .consumer l d)) d
  rw [hl]
  exact consumer_move hmove

theorem consumer_eq {n n' : NativeDecoder φ π} {a : Action φ} (ha : a.1 ≠ .consumer) (h : n.step a = some n') :
    n'.state.consumer = n.state.consumer := by
  obtain ⟨t, a⟩ := a
  obtain ⟨s, hs, rfl⟩ := step_eq h
  obtain ⟨l, d, -, rfl⟩ := Program.next_eq_some hs
  exact Config.put_loc_of_ne _ (Ne.symm ha) _ _

theorem delivered_answer {n : NativeDecoder φ π} (hr : n.Recorded) {v : Option (Shown φ)} (hv : n.answer = some v)
    (hadv : n.state.consumer ≠ .returnFrame false) :
    numbered (framesDelivered n.record ++ (delivered n.state ⟨.consumer, .step⟩).toList) =
      numbered (framesDelivered n.record) ++ v.toList := by
  have hnum := queueFrom_eq hr
  show numbered (_ ++ (n.state.consumer.delivers n.state.shared .step).toList) = _
  unfold answer at hv
  split at hv
  next b hc =>
    cases hv
    rw [hc] at hnum hadv ⊢
    cases b with
    | false => exact absurd rfl hadv
    | true =>
        have hcur : n.state.shared.currentFrameDisplayed = (framesDelivered n.record).length + 1 := hnum
        rw [hcur]
        exact numbered_snoc _ _
  next hc =>
    cases hv
    rw [hc]
    show numbered (_ ++ []) = _ ++ []
    rw [List.append_nil, List.append_nil]
  next => cases hv

end NativeDecoder

/-! ## The updates -/

/-- `nextVideoFrame` does not return without advancing, and the pictures uploaded are those of the frames delivered. -/
structure UploadsNew (s : Playback φ π) : Prop where
  advanced : s.native.state.consumer ≠ .returnFrame false
  uploads : s.updates.flatMap Step.uploads = numbered (framesDelivered s.native.record)
  result : ∀ u ∈ s.updates, u.result = .ok true ∧ (∃ v, u.uploads = [v]) ∨ u.result ≠ .ok true ∧ u.uploads = []
  calling : s.calling.isSome = true → s.player.fetches = true

theorem ConsumerMove.act_readZero {a : ConsumerAct} {k : Nat} {l' : ConsumerPc} {d d' : VideoDecoder φ π}
    (h : ConsumerMove a (.readZero k) d l' d') : a = .step := by
  cases h <;> rfl

/-- Under `keepsNew` a step of the threads does not bring the consumer to return without advancing. -/
theorem NativeDecoder.keeps_advanced {n n' : NativeDecoder φ π} {a : Action φ} (h : n.step a = some n')
    (hadv : n.state.consumer ≠ .returnFrame false)
    (hok : a = ⟨.consumer, .step⟩ → n.state.consumer.testsZero = false ∨ n.state.shared.totalFramesBuffered = 0) :
    n'.state.consumer ≠ .returnFrame false := by
  by_cases ht : a.1 = .consumer
  · obtain ⟨t, a⟩ := a
    obtain rfl : t = .consumer := ht
    intro hret
    obtain ⟨k, hk, -, hpos⟩ := (consumer_step h).returns_without_advance hret
    have hstep : a = .step := by
      have hm := consumer_step h
      rw [hk] at hm
      exact hm.act_readZero
    subst hstep
    rcases hok rfl with hz | hz
    · rw [hk] at hz
      cases hz
    · exact hpos hz
  · rw [consumer_eq ht h]
    exact hadv

theorem update_reports (p : Player) (e : UpdateEnv (Shown φ)) :
    (p.update e).uploads = (if p.fetches then e.videoData.toList else []) ∧
      ((p.update e).result = .ok true ∧ (∃ v, (p.update e).uploads = [v]) ∨
        (p.update e).result ≠ .ok true ∧ (p.update e).uploads = []) := by
  cases hf : p.fetches with
  | false =>
      obtain ⟨hplain, hres⟩ := Player.update_unfetched hf e
      have hnone : (p.update e).uploads = [] := hplain.uploads
      exact ⟨hnone, Or.inr ⟨by rw [hres]; nofun, hnone⟩⟩
  | true =>
      cases hv : e.videoData with
      | none =>
          obtain ⟨hup, hres, -⟩ := Player.update_null hf hv
          exact ⟨hup, Or.inr ⟨hres, hup⟩⟩
      | some v =>
          obtain ⟨hup, -, hres⟩ := Player.update_picture hf hv
          exact ⟨hup, Or.inl ⟨hres, v, hup⟩⟩

theorem flatMap_uploads_snoc (us : List (Step (Shown φ) Bool)) (u : Step (Shown φ) Bool) :
    (us ++ [u]).flatMap Step.uploads = us.flatMap Step.uploads ++ u.uploads := by
  rw [List.flatMap_append, List.flatMap_singleton]

theorem UploadsNew.start (p : Player) (c : Container) (file : List (Demuxed π)) :
    UploadsNew (⟨p, .started c file, false, none, []⟩ : Playback φ π) :=
  ⟨nofun, rfl, fun _ hu => absurd hu List.not_mem_nil, nofun⟩

theorem UploadsNew.log {s : Playback φ π} (h : UploadsNew s) (e : UpdateEnv (Shown φ)) :
    ∀ u ∈ s.updates ++ [s.player.update e],
      u.result = .ok true ∧ (∃ v, u.uploads = [v]) ∨ u.result ≠ .ok true ∧ u.uploads = [] := by
  intro u hu
  rcases List.mem_append.mp hu with hu | hu
  · exact h.result u hu
  · rw [List.mem_singleton.mp hu]
    exact (update_reports s.player e).2

/-- **A step under `keepsNew`.** -/
theorem PlaybackMove.uploadsNew {s t : Playback φ π} {a : PlaybackAct φ π} (h : PlaybackMove s a t)
    (hn : s.native.Recorded) (hs : UploadsNew s) (hok : keepsNew s a = true) : UploadsNew t := by
  cases h with
  | op hcall => exact ⟨hs.advanced, hs.uploads, hs.result, by rw [hcall]; nofun⟩
  | fetch _ hf _ hstep =>
      have hcalled := (NativeDecoder.consumer_step hstep).called.1
      refine ⟨by rw [hcalled]; nofun, ?_, hs.result, fun _ => hf⟩
      rw [NativeDecoder.framesDelivered_call hstep]
      exact hs.uploads
  | update hcall hf =>
      refine ⟨hs.advanced, ?_, hs.log _, by rw [hcall]; nofun⟩
      rw [flatMap_uploads_snoc, (update_reports s.player _).1, hf, hs.uploads]
      exact List.append_nil _
  | native _ hfree hstep =>
      refine ⟨NativeDecoder.keeps_advanced hstep hs.advanced fun ha => ?_, ?_, hs.result, hs.calling⟩
      · subst ha
        simpa [keepsNew] using hok
      · rw [NativeDecoder.framesDelivered_eq hstep (NativeDecoder.delivered_free hfree)]
        exact hs.uploads
  | answer e v n c file hcall hans hstep =>
      unfold Playback.finish
      dsimp only
      split
      · exact UploadsNew.start _ c file
      · have hidle : n.state.consumer ≠ .returnFrame false := by
          refine NativeDecoder.keeps_advanced hstep hs.advanced fun _ => Or.inl ?_
          unfold NativeDecoder.answer at hans
          split at hans
          next hc => rw [hc]; rfl
          next hc => rw [hc]; rfl
          next => cases hans
        refine ⟨hidle, ?_, hs.log _, nofun⟩
        rw [flatMap_uploads_snoc, (update_reports s.player _).1, hs.calling (by rw [hcall]; rfl), hs.uploads,
          NativeDecoder.framesDelivered_step hstep]
        exact (NativeDecoder.delivered_answer hn hans hs.advanced).symm

theorem uploadsNew_of_run {h : List (Playback φ π × PlaybackAct φ π)} {s : Playback φ π}
    (hr : (playback φ π).RunWhen (fun s a => keepsNew s a = true) h s) : UploadsNew s := by
  refine System.RunWhen.induction (P := fun _ s => UploadsNew s) ?_ ?_ hr
  · rintro s ⟨p, f, e, c, file, -, rfl⟩
    exact UploadsNew.start _ c file
  · rintro h s a t hr hs hok hstep
    exact (playback_move hstep).uploadsNew (native_run hr) hs hok

/-- **`update` reports exactly the new frames** as long as no call of `nextVideoFrame` finds the ring empty between the
first frame decoded and the end of the video. -/
theorem reports_new_frames {h : List (Playback φ π × PlaybackAct φ π)} {s : Playback φ π}
    (hr : (playback φ π).RunWhen (fun s a => keepsNew s a = true) h s) : ReportsNew s := by
  have hs := uploadsNew_of_run hr
  refine ⟨hs.result, fun k v hv => ?_⟩
  obtain ⟨q, hq, -⟩ := written_eq_delivered (native_run hr)
  rw [hs.uploads, numbered, List.getElem?_mapIdx] at hv
  obtain ⟨r, hr', rfl⟩ := Option.map_eq_some_iff.mp hv
  refine ⟨rfl, ?_⟩
  have hwritten : ((framesWritten s.native.record).map AVFrame.toRgb)[k]? = some r := by
    rw [hq]
    exact List.getElem?_append_left (List.getElem?_eq_some_iff.mp hr').1 ▸ hr'
  rw [List.getElem?_map] at hwritten
  obtain ⟨f, hf, rfl⟩ := Option.map_eq_some_iff.mp hwritten
  exact ⟨f, hf, rfl⟩

/-- An update finds no frame, then two frames are decoded, each fetched before the next. -/
theorem reports_new_first : ∃ h s, (playback Nat Unit).Run h s ∧ ReportsNew s ∧
    s.updates.map Step.uploads = [[], [⟨1, some 7⟩], [⟨2, some 8⟩]] := by
  obtain ⟨h, s, hr, hok, hup⟩ := (playback Nat Unit).exists_run (init_firstPlayback 2)
    (PlaybackAct.updates 4 ++ PlaybackAct.natives (Action.decodes ⟨7, 0⟩ ++ Action.runs 4) ++ PlaybackAct.updates 6 ++
      PlaybackAct.natives (Action.decodes ⟨8, 40⟩ ++ Action.runs 4) ++ PlaybackAct.updates 6)
    (fun h s => (∀ p ∈ h, keepsNew p.1 p.2 = true) ∧
      s.updates.map Step.uploads = [[], [⟨1, some 7⟩], [⟨2, some 8⟩]]) (by decide +kernel)
  exact ⟨h, s, hr, reports_new_frames (hr.when hok), hup⟩

/-- One frame is decoded. Both the update that shows it and the next, for which the decoder has no frame ready, return
true. -/
theorem old_frame_reported : ∃ h s, (playback Nat Unit).Run h s ∧ framesWritten s.native.record = [⟨7, 0⟩] ∧
    s.updates.map Step.result = [.ok true, .ok true] ∧
      s.updates.map Step.uploads = [[⟨1, some 7⟩], [⟨1, some 7⟩]] ∧ ¬ ReportsNew s := by
  obtain ⟨h, s, hr, hwritten, hres, hup⟩ := (playback Nat Unit).exists_run (init_firstPlayback 1)
    (PlaybackAct.natives (Action.decodes ⟨7, 0⟩ ++ Action.runs 4) ++ PlaybackAct.updates 6 ++ PlaybackAct.updates 4)
    (fun _ s => framesWritten s.native.record = [⟨7, 0⟩] ∧ s.updates.map Step.result = [.ok true, .ok true] ∧
      s.updates.map Step.uploads = [[⟨1, some 7⟩], [⟨1, some 7⟩]]) (by decide +kernel)
  refine ⟨h, s, hr, hwritten, hres, hup, fun hnew => ?_⟩
  have hlast : (s.updates.flatMap Step.uploads)[1]? = some ⟨1, some 7⟩ := by
    rw [List.flatMap_def, hup]
    rfl
  exact absurd (hnew.kth 1 _ hlast).1 (by decide)

end ArcVideo
