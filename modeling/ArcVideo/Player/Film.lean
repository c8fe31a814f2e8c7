import ArcVideo.Decoder.Sequential
import ArcVideo.Player.Ending

/-!
# The film a playback shows

From the file to the texture: the pictures `update` uploads are those a program would decode from the video stream of
the file, alone and in one loop.

* `NativeDecoder.Finished` : the video has ended and all its frames are delivered; it stays so (`Finished.step`);
* `keepsFilm` : the condition on a step: no call of `nextVideoFrame` finds the ring empty between the first frame and
  the end, and the end does not come between its reads;
* `FilmInv` : what such a playback keeps;
* `plays_film` : the pictures uploaded are the first of the film; a playback that has completed has shown it whole.
-/

namespace ArcVideo
open Conc

variable {φ π : Type}

/-! ## A finished decoder -/

/-- The video has ended, the decoder is not being destroyed, and the frames written are delivered. -/
structure NativeDecoder.Finished (n : NativeDecoder φ π) : Prop where
  ended : n.state.shared.videoOutputEnded = true
  live : n.state.consumer.deleting = false
  whole : framesDelivered n.record = (framesWritten n.record).map AVFrame.toRgb

theorem RunPc.publishes_ending {l : RunPc φ π} (h : l.ending = true) (a : RunAct φ) : l.publishes a = none := by
  cases l <;> first | cases a <;> rfl | cases h

namespace NativeDecoder

variable {n n' : NativeDecoder φ π} {a : Action φ}

theorem live_step (h : n.step a = some n') (ha : a ≠ ⟨.consumer, .delete⟩)
    (hl : n.state.consumer.deleting = false) : n'.state.consumer.deleting = false := by
  obtain ⟨t, a⟩ := a
  by_cases ht : t = .consumer
  · subst ht
    exact (consumer_step h).live (fun hd => ha (by rw [hd])) hl
  · rw [consumer_eq ht h]
    exact hl

/-- **What is finished stays finished.** -/
theorem Finished.step (hn : n.Finished) (hr : n.Recorded) (h : n.step a = some n')
    (ha : a ≠ ⟨.consumer, .delete⟩) : n'.Finished := by
  have hlive := live_step h ha hn.live
  have hnone : published n.state a = none := by
    have hend := (ended_cases hr hn.ended).resolve_left (Bool.eq_false_iff.mp hn.live)
    obtain ⟨t, a⟩ := a
    cases t with
    | run => exact RunPc.publishes_ending hend a
    | consumer | audio => rfl
  obtain ⟨q, hq, -⟩ := written_eq_delivered (hr.step h)
  obtain ⟨s, hs, rfl⟩ := step_eq h
  refine ⟨?_, hlive, ?_⟩
  · obtain ⟨l, d, hmove, rfl⟩ := Program.next_eq_some hs
    exact (step_effect hmove).ended_of hn.ended
  · -- nothing more is written, and no more is delivered than is written
    dsimp only at hq ⊢
    rw [framesWritten_snoc, hnone, Option.toList_none, List.append_nil, framesDelivered_snoc, hn.whole,
      List.append_assoc] at hq
    rw [framesWritten_snoc, hnone, Option.toList_none, List.append_nil, framesDelivered_snoc, hn.whole]
    have hlen := congrArg List.length hq
    rw [List.length_append, List.length_append] at hlen
    rw [List.eq_nil_of_length_eq_zero (l := (delivered n.state a).toList) (by omega), List.append_nil]

end NativeDecoder

/-! ## The playback -/

namespace Playback

def uploads (s : Playback φ π) : List (Shown φ) := s.updates.flatMap Step.uploads

def completions (s : Playback φ π) : List (Option Fi) := s.updates.flatMap Step.completions

end Playback

/-- No call of `nextVideoFrame` finds the ring empty between the first frame and the end of the video, and `run` does
not end between the reads of a call that is out of date. -/
def keepsFilm (s : Playback φ π) : PlaybackAct φ π → Bool
  | .native a => keepsNew s (.native a) && decide (endsInTime s.native.state a)
  | _ => true

theorem keepsNew_of_keepsFilm {s : Playback φ π} {a : PlaybackAct φ π} (h : keepsFilm s a = true) :
    keepsNew s a = true := by
  cases a with
  | native a => exact (Bool.and_eq_true _ _ ▸ h).1
  | _ => rfl

theorem endsInTime_of_keepsFilm {s : Playback φ π} {a : Action φ} (h : keepsFilm s (.native a) = true) :
    endsInTime s.native.state a :=
  of_decide_eq_true (Bool.and_eq_true _ _ ▸ h).2

/-- What a playback keeps under `keepsFilm`. -/
structure FilmInv (s : Playback φ π) : Prop where
  native : (decoder φ s.native.container s.native.file).RunWhen endsInTime s.native.record s.native.state
  live : s.native.state.consumer.deleting = false
  called : s.calling.isSome = true → (framesDelivered s.native.record).length ≤ decodedAtCall s.native.record
  finished : s.completions ≠ [] → s.player.playing = false ∧ (s.uploads ≠ [] → s.native.Finished)

theorem FilmInv.start (p : Player) (c : Container) (file : List (Demuxed π)) :
    FilmInv (⟨p, .started c file, false, none, []⟩ : Playback φ π) :=
  ⟨⟨_, rfl, .nil⟩, rfl, nofun, fun h => absurd rfl h⟩

theorem NativeDecoder.inTime_step {n n' : NativeDecoder φ π} {a : Action φ}
    (hr : (decoder φ n.container n.file).RunWhen endsInTime n.record n.state) (h : n.step a = some n')
    (ha : endsInTime n.state a) : (decoder φ n'.container n'.file).RunWhen endsInTime n'.record n'.state := by
  obtain ⟨s, hs, rfl⟩ := step_eq h
  exact hr.snoc ha hs

theorem endsInTime_consumer (s : State φ π) (a : ConsumerAct) : endsInTime s ⟨.consumer, a⟩ := nofun

theorem FilmInv.uncompleted {s : Playback φ π} (h : FilmInv s) (hp : s.player.playing = true) : s.completions = [] := by
  by_contra hc
  exact absurd ((h.finished hc).1.symm.trans hp) Bool.false_ne_true

theorem delivered_le_total {c : Container} {file : List (Demuxed π)} {h : List (State φ π × Action φ)} {s : State φ π}
    (hr : (decoder φ c file).Run h s) : (framesDelivered h).length ≤ s.shared.totalFramesBuffered := by
  obtain ⟨q, -, hlen, -⟩ := written_eq_delivered hr
  have hfrom := queueFrom_eq hr
  omega

/-- The decoder at a NULL that completes a video of which a picture was uploaded. -/
theorem FilmInv.at_null {s : Playback φ π} (h : FilmInv s) (hnew : UploadsNew s) (hcall : s.calling.isSome = true)
    (hnull : s.native.state.consumer = .returnNull) (hup : s.uploads ≠ []) : s.native.Finished := by
  have hpos : 1 ≤ (framesDelivered s.native.record).length := by
    rw [Playback.uploads, hnew.uploads] at hup
    by_contra hlt
    exact hup (by rw [List.eq_nil_of_length_eq_zero (l := framesDelivered s.native.record) (by omega)]; rfl)
  obtain ⟨he, hall⟩ := finished_at_null h.native hnull (hpos.trans (h.called hcall))
  exact ⟨he, h.live, hall⟩

theorem FilmInv.null {s : Playback φ π} (h : FilmInv s) (hnew : UploadsNew s) {n : NativeDecoder φ π}
    {e : UpdateEnv (Shown φ)} (hcall : s.calling.isSome = true) (hnull : s.native.state.consumer = .returnNull)
    (hstep : s.native.step ⟨.consumer, .step⟩ = some n) (hv : e.videoData = none) (c : Container)
    (file : List (Demuxed π)) : FilmInv (s.finish n e c file) := by
  have hf := hnew.calling hcall
  obtain ⟨hup, -, hcomp⟩ := Player.update_null hf hv
  have hold := h.uncompleted (Player.decoder_of_fetches hf).2
  unfold Playback.finish
  dsimp only
  split
  · exact .start _ c file
  · refine ⟨NativeDecoder.inTime_step h.native hstep (endsInTime_consumer _ _),
      NativeDecoder.live_step hstep nofun h.live, nofun, fun hne => ?_⟩
    unfold Playback.completions at hold hne
    unfold Playback.uploads
    rw [flatMap_completions_snoc, hold, List.nil_append, hcomp] at hne
    have hends : s.player.completes = true := by
      by_contra hc
      rw [Bool.eq_false_iff.mpr hc] at hne
      exact hne rfl
    rw [flatMap_uploads_snoc, hup, List.append_nil]
    refine ⟨?_, fun hne => (h.at_null hnew hcall hnull hne).step h.native.run hstep nofun⟩
    rcases Player.update_null_cases hf hv with ⟨hfirst, -⟩ | ⟨hr, -⟩ | ⟨-, hq⟩
    · simp [Player.completes, hfirst] at hends
    · simp [Player.restarts, Player.completes] at hr hends
      rw [hr.2] at hends
      cases hends.2
    · rw [hq]

/-- **A step under `keepsFilm`.** -/
theorem PlaybackMove.filmInv {s t : Playback φ π} {a : PlaybackAct φ π} (h : PlaybackMove s a t) (hs : FilmInv s)
    (hnew : UploadsNew s) (hok : keepsFilm s a = true) : FilmInv t := by
  cases h with
  | op hcall hbetween =>
      have hsame := samePlay_between s.player hbetween
      refine ⟨hs.native, hs.live, by rw [hcall]; nofun, fun hne => ⟨?_, (hs.finished hne).2⟩⟩
      exact hsame.playing.trans (hs.finished hne).1
  | fetch _ hf _ hstep =>
      have hplays := (Player.decoder_of_fetches hf).2
      refine ⟨NativeDecoder.inTime_step hs.native hstep (endsInTime_consumer _ _),
        NativeDecoder.live_step hstep nofun hs.live, fun _ => ?_, fun hne => absurd (hs.uncompleted hplays) hne⟩
      rw [NativeDecoder.framesDelivered_call hstep]
      obtain ⟨u, -, rfl⟩ := NativeDecoder.step_eq hstep
      dsimp only
      rw [decodedAtCall_call]
      exact delivered_le_total hs.native.run
  | @update e hcall hf =>
      have hplain := (Player.update_unfetched hf e).1
      have hnoUpload : (s.player.update e).uploads = [] := hplain.uploads
      have hnoCompletion : (s.player.update e).completions = [] := hplain.completions
      have hsame : (s.updates ++ [s.player.update e]).flatMap Step.completions = s.completions := by
        rw [flatMap_completions_snoc, hnoCompletion, List.append_nil]
        rfl
      refine ⟨hs.native, hs.live, by rw [hcall]; nofun, fun hne => ?_⟩
      obtain ⟨hstop, hfin⟩ := hs.finished (hsame ▸ hne)
      refine ⟨?_, fun hup => hfin ?_⟩
      · rw [Bool.eq_false_iff]
        exact fun hq => absurd (hstop.symm.trans (Player.playing_unfetched hf e hq)) Bool.false_ne_true
      · unfold Playback.uploads at hup ⊢
        rwa [flatMap_uploads_snoc, hnoUpload, List.append_nil] at hup
  | @native a n _ hfree hstep =>
      have hdel : a ≠ ⟨.consumer, .delete⟩ := by
        rintro rfl
        cases hfree
      have hcalled : a ≠ ⟨.consumer, .nextVideoFrame⟩ := by
        rintro rfl
        cases hfree
      refine ⟨NativeDecoder.inTime_step hs.native hstep (endsInTime_of_keepsFilm hok),
        NativeDecoder.live_step hstep hdel hs.live, fun hc => ?_, fun hne => ?_⟩
      · rw [NativeDecoder.framesDelivered_eq hstep (NativeDecoder.delivered_free hfree)]
        obtain ⟨u, -, rfl⟩ := NativeDecoder.step_eq hstep
        dsimp only
        rw [decodedAtCall_snoc _ _ hcalled]
        exact hs.called hc
      · obtain ⟨hstop, hfin⟩ := hs.finished hne
        exact ⟨hstop, fun hup => (hfin hup).step hs.native.run hstep hdel⟩
  | answer e v n c file hcall hans hstep =>
      have hsome : s.calling.isSome = true := by rw [hcall]; rfl
      cases v with
      | none =>
          refine hs.null hnew hsome ?_ hstep rfl c file
          unfold NativeDecoder.answer at hans
          split at hans
          next => cases hans
          next hc => exact hc
          next => cases hans
      | some v =>
          have hf := hnew.calling hsome
          obtain ⟨-, hcomp, -⟩ := Player.update_picture (e := { e with videoData := some v }) hf rfl
          have hold := hs.uncompleted (Player.decoder_of_fetches hf).2
          refine ⟨NativeDecoder.inTime_step hs.native hstep (endsInTime_consumer _ _),
            NativeDecoder.live_step hstep nofun hs.live, nofun, fun hne => absurd ?_ hne⟩
          show (s.updates ++ [s.player.update { e with videoData := some v }]).flatMap Step.completions = []
          rw [flatMap_completions_snoc, hcomp, List.append_nil]
          exact hold

theorem filmInv_of_run {h : List (Playback φ π × PlaybackAct φ π)} {s : Playback φ π}
    (hr : (playback φ π).RunWhen (fun s a => keepsFilm s a = true) h s) : FilmInv s := by
  refine System.RunWhen.induction (P := fun _ s => FilmInv s) ?_ ?_ hr
  · rintro s ⟨p, f, e, c, file, -, rfl⟩
    exact FilmInv.start _ c file
  · rintro h s a t hr hs hok hstep
    exact (playback_move hstep).filmInv hs (uploadsNew_of_run (hr.mono fun _ _ => keepsNew_of_keepsFilm)) hok

theorem numbered_isPrefix {fs gs : List (RgbFrame φ)} (h : fs <+: gs) : numbered fs <+: numbered gs := by
  obtain ⟨t, rfl⟩ := h
  unfold numbered
  rw [List.mapIdx_append]
  exact List.prefix_append _ _

/-- **A playback shows the film**: the pictures uploaded are the first pictures of the sequential decoding of the file's
video stream, in order and each once; and a playback that has shown a picture and has completed has shown them all. -/
theorem plays_film {σ : Type} {codec : Transducer σ (Option (Demuxed π)) (Receive (AVFrame φ))}
    {h : List (Playback φ π × PlaybackAct φ π)} {s : Playback φ π}
    (hr : (playback φ π).RunWhen (fun s a => keepsFilm s a = true) h s)
    (hg : codec.Gives codec.start (exchanges .video s.native.record)) :
    ∃ m, ∀ n, m ≤ n →
      s.uploads <+: numbered ((decodeVideo codec s.native.container s.native.file n).map AVFrame.toRgb) ∧
      (s.completions ≠ [] → s.uploads ≠ [] →
        s.uploads = numbered ((decodeVideo codec s.native.container s.native.file n).map AVFrame.toRgb)) := by
  have hinv := filmInv_of_run hr
  have hup : s.uploads = numbered (framesDelivered s.native.record) :=
    (uploadsNew_of_run (hr.mono fun _ _ => keepsNew_of_keepsFilm)).uploads
  refine ⟨(exchanges .video s.native.record).length, fun n hn => ⟨?_, fun hcomp hne => ?_⟩⟩
  · rw [hup]
    exact numbered_isPrefix (delivered_isPrefix hinv.native.run hg hn)
  · have hfin := (hinv.finished hcomp).2 hne
    rw [hup, hfin.whole, written_whole hinv.native.run hg hfin.ended hfin.live hn]

/-- The player after a first play, of a file with one packet, that has succeeded. -/
def filmPlayback : Playback Nat Nat :=
  ⟨((Player.new false false true).play (φ := Shown Nat) (some ⟨"video.webm"⟩) (successfulPlay 1)).player,
    .started (Container.videoOnly false) [⟨0, 7⟩], false, none, []⟩

theorem init_filmPlayback : (playback Nat Nat).init filmPlayback :=
  ⟨_, _, _, _, _, rfl, rfl⟩

/-- A film of one frame: it is decoded and shown, and the next update completes. -/
theorem plays_film_one_frame : ∃ h s, (playback Nat Nat).Run h s ∧ s.completions = [some ⟨"video.webm"⟩] ∧
    s.uploads = [⟨1, some 7⟩] ∧ ∃ m, ∀ n, m ≤ n → s.uploads =
      numbered ((decodeVideo (plainCodec []) s.native.container s.native.file n).map AVFrame.toRgb) := by
  obtain ⟨h, s, hr, hok, hcomp, hup, hex⟩ := (playback Nat Nat).exists_run init_filmPlayback
    ((Action.decodes ⟨7, 0⟩ ++ Action.runs 4 ++ Action.drains).map .native ++
      ([.update dueUpdate] ++ (Action.consumes 6).map .native ++ [.answer (Container.videoOnly false) []]) ++
      ([.update dueUpdate] ++ (Action.consumes 3).map .native ++ [.answer (Container.videoOnly false) []]))
    (fun h s => (∀ p ∈ h, keepsFilm p.1 p.2 = true) ∧ s.completions = [some ⟨"video.webm"⟩] ∧
      s.uploads = [⟨1, some 7⟩] ∧
      exchanges .video s.native.record = [.asked .eagain, .fed (some ⟨0, 7⟩), .asked (.frame ⟨7, 0⟩), .asked .eagain,
        .fed none, .asked .eof]) (by decide +kernel)
  have hg : (plainCodec []).Gives (plainCodec []).start (exchanges .video s.native.record) := by
    rw [hex]
    exact ⟨rfl, rfl, rfl, rfl, trivial⟩
  obtain ⟨m, hm⟩ := plays_film (hr.when hok) hg
  exact ⟨h, s, hr, hcomp, hup, m, fun n hn => (hm n hn).2 (by rw [hcomp]; nofun) (by rw [hup]; nofun)⟩

end ArcVideo
