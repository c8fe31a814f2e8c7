import ArcVideo.Decoder.Threads

/-!
# What a step can do

The step functions inverted once. `PacketLoop.Move`, `RunMove`, `ConsumerMove` and `AudioMove` list the steps with
their guards and their effect (`PacketLoop.move`, `run_move`, `consumer_move`, `audio_move`), so that an invariant is
proved by one `cases`.

`getNumBuffered_*`, `isFull_iff` and `hasFrameBuffered_iff` put the tests of the ring in terms of its counters.
-/

namespace ArcVideo
open Conc

variable {φ π : Type}

/-! ## The tests of the ring -/

namespace VideoDecoder

theorem hasFrameBuffered_iff (d : VideoDecoder φ π) :
    d.hasFrameBuffered = true ↔ d.currentFrameDisplayed + 1 ≤ d.totalFramesBuffered := by
  rw [hasFrameBuffered, decide_eq_true_iff, getNumBuffered]
  omega

theorem isFull_iff (d : VideoDecoder φ π) :
    d.isFull = true ↔ d.totalFramesBuffered = d.currentFrameDisplayed + 3 := by
  rw [isFull, decide_eq_true_iff, getNumBuffered, VIDEOPLAYER_VIDEO_NUM_BUFFERED_FRAMES]
  omega

theorem isBuffered_iff (d : VideoDecoder φ π) :
    d.isBuffered = true ↔ d.isFull = true ∨ d.videoOutputEnded = true ∧ d.hasFrameBuffered = true := by
  rw [isBuffered, Bool.or_eq_true, Bool.and_eq_true]

end VideoDecoder

/-! ## The packet loop -/

/-- The steps of the packet loop of stream `k`. -/
inductive PacketLoop.Move (c : Container) (k : Stream) :
    PacketLoop π → Demuxer π → Option (PacketLoop π) → Demuxer π → Prop
  | lock {m} : m.packetMutex = none → Move c k .lock m (some .test) { m with packetMutex := some k }
  | empty {m} : m.packets k = [] → Move c k .test m (some .alloc) m
  | take {m q p} : m.packets k = q ++ [p] →
      Move c k .test m (some (.unlock (some p) true)) { m with packets := Function.update m.packets k q }
  | alloc {m} : Move c k .alloc m (some (.read m.allocated)) { m with allocated := m.allocated + 1 }
  | readFrame {m id q rest} : m.unread = q :: rest →
      Move c k (.read id) m (some (.route ⟨id, q⟩)) { m with unread := rest }
  | readFail {m id} : m.unread = [] → Move c k (.read id) m (some (.unlock none false)) m
  | route {m p} : Move c k (.route p) m (some (.unlock none true)) (m.route c p)
  | again {m} : Move c k (.unlock none true) m (some .lock) { m with packetMutex := none }
  | taken {m p check} : Move c k (.unlock (some p) check) m (some (.send (some p))) { m with packetMutex := none }
  | drain {m} : Move c k (.unlock none false) m (some (.send none)) { m with packetMutex := none }
  | send {m p} : Move c k (.send p) m (some (.free p)) (m.sendPacket k p)
  | free {m p} : Move c k (.free p) m none (m.freePacket p)

theorem PacketLoop.move {c : Container} {k : Stream} {f : PacketLoop π} {f' : Option (PacketLoop π)}
    {m m' : Demuxer π} (h : f.step c k m = some (f', m')) : f.Move c k m f' m' := by
  cases f with
  | lock =>
      cases hm : m.packetMutex with
      | none =>
          simp only [PacketLoop.step, hm, Option.some.injEq, Prod.mk.injEq] at h
          obtain ⟨rfl, rfl⟩ := h
          exact .lock hm
      | some _ => simp [PacketLoop.step, hm] at h
  | test =>
      rcases List.eq_nil_or_concat (m.packets k) with hq | ⟨q, p, hq⟩
      · simp only [PacketLoop.step, hq, List.getLast?_nil, Option.some.injEq, Prod.mk.injEq] at h
        obtain ⟨rfl, rfl⟩ := h
        exact .empty hq
      · rw [List.concat_eq_append] at hq
        simp only [PacketLoop.step, hq, List.getLast?_concat, Demuxer.popBack, List.dropLast_concat,
          Option.some.injEq, Prod.mk.injEq] at h
        obtain ⟨rfl, rfl⟩ := h
        exact .take hq
  | alloc =>
      cases h
      exact .alloc
  | read id =>
      cases hm : m.unread with
      | nil =>
          simp only [PacketLoop.step, hm, Option.some.injEq, Prod.mk.injEq] at h
          obtain ⟨rfl, rfl⟩ := h
          exact .readFail hm
      | cons q rest =>
          simp only [PacketLoop.step, hm, Option.some.injEq, Prod.mk.injEq] at h
          obtain ⟨rfl, rfl⟩ := h
          exact .readFrame hm
  | route p =>
      cases h
      exact .route
  | unlock p check =>
      cases p with
      | none =>
          cases check with
          | true =>
              cases h
              exact .again
          | false =>
              cases h
              exact .drain
      | some p =>
          cases h
          exact .taken
  | send p =>
      cases h
      exact .send
  | free p =>
      cases h
      exact .free

/-! ## The decoding thread -/

inductive RunMove (c : Container) :
    RunAct φ → RunPc φ π → VideoDecoder φ π → RunPc φ π → VideoDecoder φ π → Prop
  | lockFirst {d} : d.decode.holder = none →
      RunMove c .step .lockFirst d .testFull { d with decode := { d.decode with holder := some .run } }
  | full {d} : d.isFull = true → RunMove c .step .testFull d .checkEnded d
  | notFull {d} : ¬ d.isFull = true → RunMove c .step .testFull d .testEnded d
  | seenEnded {d} : d.videoOutputEnded = true → RunMove c .step .testEnded d .testHas d
  | notEnded {d} : d.videoOutputEnded = false → RunMove c .step .testEnded d .testLoop d
  | has {d} : RunMove c .step .testHas d (if d.hasFrameBuffered then .checkEnded else .testLoop) d
  | leave {d} : d.videoOutputEnded = true → RunMove c .step .testLoop d .checkEnded d
  | enter {d} : d.videoOutputEnded = false → RunMove c .step .testLoop d .unlock d
  | unlock {d} : RunMove c .step .unlock d .receive { d with decode := d.decode.unlock }
  | frame {d f} : RunMove c (.receive (.frame f)) .receive d (.scale f) d
  | eagain {d} : (d.demuxer.codec .video).sent.all Option.isSome = true →
      RunMove c (.receive .eagain) .receive d (.fetch .lock) d
  | eof {d} : RunMove c (.receive .eof) .receive d .setEnded d
  | error {d} : RunMove c (.receive .error) .receive d .setEnded d
  | fetch {d f f' m} : f.Move c .video d.demuxer f' m →
      RunMove c .step (.fetch f) d (f'.elim .testFull .fetch) { d with demuxer := m }
  | callback {d id} : c.isStream = true → RunMove c .callback (.fetch (.read id)) d (.fetch (.read id)) d
  | setEnded {d} : RunMove c .step .setEnded d .checkEnded { d with videoOutputEnded := true }
  | scale {d f} : RunMove c .step (.scale f) d (.scaled f) (d.writeSlot ⟨none, (d.rgbFrames d.getWriteIndex).pts⟩)
  | scaled {d f} :
      RunMove c .step (.scaled f) d (.writePts f) (d.writeSlot ⟨some f.data, (d.rgbFrames d.getWriteIndex).pts⟩)
  | writePts {d f} :
      RunMove c .step (.writePts f) d (.publish f) (d.writeSlot ⟨(d.rgbFrames d.getWriteIndex).data, f.pts⟩)
  | publish {d f} :
      RunMove c .step (.publish f) d .lock { d with totalFramesBuffered := d.totalFramesBuffered + 1 }
  | lock {d} : d.decode.holder = none →
      RunMove c .step .lock d .testFull { d with decode := { d.decode with holder := some .run } }
  | stop {d} : d.videoOutputEnded = true → RunMove c .step .checkEnded d .unlockLast d
  | goWait {d} : d.videoOutputEnded = false → RunMove c .step .checkEnded d .wait d
  | wait {d} : RunMove c .step .wait d .waiting { d with decode := d.decode.wait .run }
  | relock {d} : Thread.run ∉ d.decode.asleep → d.decode.holder = none →
      RunMove c .step .waiting d .testFull { d with decode := { d.decode with holder := some .run } }
  | spurious {d} : RunMove c .spurious .waiting d .waiting { d with decode := d.decode.spurious .run }
  | unlockLast {d} : RunMove c .step .unlockLast d .cleanup { d with decode := d.decode.unlock }
  | cleanup {d} : RunMove c .step .cleanup d .ret { d with cleanedUp := d.cleanedUp || c.isStream }
  | ret {d} : RunMove c .step .ret d .returned { d with runReturned := true }

theorem lock_step {τ : Type} {t : Thread} {l l' : τ} {d d' : VideoDecoder φ π}
    (h : ((d.decode.lock t).map fun m => (l, { d with decode := m })) = some (l', d')) :
    d.decode.holder = none ∧ l' = l ∧ d' = { d with decode := { d.decode with holder := some t } } := by
  obtain ⟨m, hm, he⟩ := Option.map_eq_some_iff.mp h
  obtain ⟨hn, rfl⟩ := Monitor.lock_eq_some hm
  cases he
  exact ⟨hn, rfl, rfl⟩

theorem run_move {c : Container} {a : RunAct φ} {l l' : RunPc φ π} {d d' : VideoDecoder φ π}
    (h : runStep c a l d = some (l', d')) : RunMove c a l d l' d' := by
  cases l <;> cases a <;> try (cases h; done)
  case lockFirst.step =>
    obtain ⟨hn, rfl, rfl⟩ := lock_step h
    exact .lockFirst hn
  case testFull.step =>
    obtain ⟨rfl, rfl⟩ := Prod.mk.inj (Option.some.inj h)
    split_ifs with hf
    · exact .full hf
    · exact .notFull hf
  case testEnded.step =>
    obtain ⟨rfl, rfl⟩ := Prod.mk.inj (Option.some.inj h)
    split_ifs with he
    · exact .seenEnded he
    · exact .notEnded (Bool.eq_false_iff.mpr he)
  case testHas.step =>
    obtain ⟨rfl, rfl⟩ := Prod.mk.inj (Option.some.inj h)
    exact .has
  case testLoop.step =>
    obtain ⟨rfl, rfl⟩ := Prod.mk.inj (Option.some.inj h)
    split_ifs with he
    · exact .leave he
    · exact .enter (Bool.eq_false_iff.mpr he)
  case receive.receive ret =>
    obtain ⟨hok, h⟩ := Option.ite_none_right_eq_some.mp h
    cases ret <;> obtain ⟨rfl, rfl⟩ := Prod.mk.inj (Option.some.inj h)
    · exact .frame
    · exact .eagain hok
    · exact .eof
    · exact .error
  case fetch.step f =>
    obtain ⟨⟨f', m⟩, hf, h⟩ := Option.map_eq_some_iff.mp h
    cases h
    exact .fetch (PacketLoop.move hf)
  case fetch.callback f =>
    cases f <;> try cases h
    obtain ⟨hs, h⟩ := Option.ite_none_right_eq_some.mp h
    cases h
    exact .callback hs
  case lock.step =>
    obtain ⟨hn, rfl, rfl⟩ := lock_step h
    exact .lock hn
  case checkEnded.step =>
    obtain ⟨rfl, rfl⟩ := Prod.mk.inj (Option.some.inj h)
    split_ifs with he
    · exact .stop he
    · exact .goWait (Bool.eq_false_iff.mpr he)
  case waiting.step =>
    obtain ⟨hs, h⟩ := Option.ite_none_left_eq_some.mp h
    obtain ⟨hn, rfl, rfl⟩ := lock_step h
    exact .relock hs hn
  -- the other steps have one outcome
  all_goals cases h
  case unlock.step => exact .unlock
  case setEnded.step => exact .setEnded
  case scale.step => exact .scale
  case scaled.step => exact .scaled
  case writePts.step => exact .writePts
  case publish.step => exact .publish
  case wait.step => exact .wait
  case waiting.spurious => exact .spurious
  case unlockLast.step => exact .unlockLast
  case cleanup.step => exact .cleanup
  case ret.step => exact .ret

/-! ## The consumer -/

inductive ConsumerMove : ConsumerAct → ConsumerPc → VideoDecoder φ π → ConsumerPc → VideoDecoder φ π → Prop
  | nextVideoFrame {d} : ConsumerMove .nextVideoFrame .idle d .readTotal d
  | isBuffered {d} : ConsumerMove .isBuffered .idle d .bufFull d
  | getCurrentFrameTimestamp {d} : ConsumerMove .getCurrentFrameTimestamp .idle d .idle d
  | delete {d} : ConsumerMove .delete .idle d .delLock d
  | readTotal {d} : ConsumerMove .step .readTotal d (.readDisplayed d.totalFramesBuffered) d
  | available {d n} : d.currentFrameDisplayed + 1 ≤ n → ConsumerMove .step (.readDisplayed n) d .lock d
  | starved {d n} : n ≤ d.currentFrameDisplayed → ConsumerMove .step (.readDisplayed n) d (.readEnded n) d
  | ended {d n} : d.videoOutputEnded = true → ConsumerMove .step (.readEnded n) d .returnNull d
  | notEnded {d n} : d.videoOutputEnded = false → ConsumerMove .step (.readEnded n) d (.readZero n) d
  | zero {d n} : d.totalFramesBuffered = 0 → ConsumerMove .step (.readZero n) d .returnNull d
  | notZero {d n} : d.totalFramesBuffered ≠ 0 → ConsumerMove .step (.readZero n) d (.returnFrame false) d
  | lock {d} : d.decode.holder = none →
      ConsumerMove .step .lock d .advance { d with decode := { d.decode with holder := some .consumer } }
  | advance {d} :
      ConsumerMove .step .advance d .signal { d with currentFrameDisplayed := d.currentFrameDisplayed + 1 }
  | signal {d} : ConsumerMove .step .signal d .unlock { d with decode := d.decode.signal }
  | unlock {d} : ConsumerMove .step .unlock d (.returnFrame true) { d with decode := d.decode.unlock }
  | returnFrame {d b} : ConsumerMove .step (.returnFrame b) d .idle d
  | returnNull {d} : ConsumerMove .step .returnNull d .idle d
  | bufFull {d} : ConsumerMove .step .bufFull d (if d.isFull then .returnBuffered true else .bufEnded) d
  | bufEnded {d} : ConsumerMove .step .bufEnded d (if d.videoOutputEnded then .bufHas else .returnBuffered false) d
  | bufHas {d} : ConsumerMove .step .bufHas d (.returnBuffered d.hasFrameBuffered) d
  | returnBuffered {d b} : ConsumerMove .step (.returnBuffered b) d .idle d
  | delLock {d} : d.decode.holder = none →
      ConsumerMove .step .delLock d .delVideo { d with decode := { d.decode with holder := some .consumer } }
  | delVideo {d} : ConsumerMove .step .delVideo d .delAudio { d with videoOutputEnded := true }
  | delAudio {d} : ConsumerMove .step .delAudio d .delSignal { d with audioOutputEnded := true }
  | delSignal {d} : ConsumerMove .step .delSignal d .delUnlock { d with decode := d.decode.signal }
  | delUnlock {d} : ConsumerMove .step .delUnlock d .delJoin { d with decode := d.decode.unlock }
  | delJoin {d} : d.runReturned = true → ConsumerMove .step .delJoin d .delFree d
  | delFree {d} : ConsumerMove .step .delFree d .deleted { d with alive := false }

theorem consumer_move {a : ConsumerAct} {l l' : ConsumerPc} {d d' : VideoDecoder φ π}
    (h : consumerStep a l d = some (l', d')) : ConsumerMove a l d l' d' := by
  cases l <;> cases a <;> try (cases h; done)
  case readDisplayed.step n =>
    obtain ⟨rfl, rfl⟩ := Prod.mk.inj (Option.some.inj h)
    split_ifs with hn
    · exact .available (by omega)
    · exact .starved (by omega)
  case readEnded.step n =>
    obtain ⟨rfl, rfl⟩ := Prod.mk.inj (Option.some.inj h)
    split_ifs with he
    · exact .ended he
    · exact .notEnded (Bool.eq_false_iff.mpr he)
  case readZero.step n =>
    obtain ⟨rfl, rfl⟩ := Prod.mk.inj (Option.some.inj h)
    split_ifs with hz
    · exact .zero hz
    · exact .notZero hz
  case lock.step =>
    obtain ⟨hn, rfl, rfl⟩ := lock_step h
    exact .lock hn
  case delLock.step =>
    obtain ⟨hn, rfl, rfl⟩ := lock_step h
    exact .delLock hn
  case delJoin.step =>
    obtain ⟨hj, h⟩ := Option.ite_none_right_eq_some.mp h
    cases h
    exact .delJoin hj
  -- the other steps have one outcome
  all_goals cases h
  case idle.nextVideoFrame => exact .nextVideoFrame
  case idle.isBuffered => exact .isBuffered
  case idle.getCurrentFrameTimestamp => exact .getCurrentFrameTimestamp
  case idle.delete => exact .delete
  case readTotal.step => exact .readTotal
  case advance.step => exact .advance
  case signal.step => exact .signal
  case unlock.step => exact .unlock
  case returnFrame.step => exact .returnFrame
  case returnNull.step => exact .returnNull
  case bufFull.step => exact .bufFull
  case bufEnded.step => exact .bufEnded
  case bufHas.step => exact .bufHas
  case returnBuffered.step => exact .returnBuffered
  case delVideo.step => exact .delVideo
  case delAudio.step => exact .delAudio
  case delSignal.step => exact .delSignal
  case delUnlock.step => exact .delUnlock
  case delFree.step => exact .delFree

/-! ## The audio thread -/

inductive AudioMove (c : Container) :
    AudioAct → AudioPc π → VideoDecoder φ π → AudioPc π → VideoDecoder φ π → Prop
  | decodeAudio {d} : d.alive = true → 0 ≤ c.audioStreamIndex → AudioMove c .decodeAudio .idle d .testEnded d
  | testEnded {d} : AudioMove c .step .testEnded d (if d.audioOutputEnded then .idle else .receive) d
  | frame {d u} : AudioMove c (.receive (.frame u)) .receive d .idle d
  | eagain {d} : (d.demuxer.codec .audio).sent.all Option.isSome = true →
      AudioMove c (.receive .eagain) .receive d (.fetch .lock) d
  | eof {d} : AudioMove c (.receive .eof) .receive d .setEnded d
  | error {d} : AudioMove c (.receive .error) .receive d .setEnded d
  | fetch {d f f' m} : f.Move c .audio d.demuxer f' m →
      AudioMove c .step (.fetch f) d (f'.elim .testEnded .fetch) { d with demuxer := m }
  | callback {d id} : c.isStream = true → AudioMove c .callback (.fetch (.read id)) d (.fetch (.read id)) d
  | setEnded {d} : AudioMove c .step .setEnded d .testEnded { d with audioOutputEnded := true }

theorem audio_move {c : Container} {a : AudioAct} {l l' : AudioPc π} {d d' : VideoDecoder φ π}
    (h : audioStep c a l d = some (l', d')) : AudioMove c a l d l' d' := by
  cases l <;> cases a <;> try (cases h; done)
  case idle.decodeAudio =>
    obtain ⟨⟨ha, hi⟩, h⟩ := Option.ite_none_right_eq_some.mp h
    cases h
    exact .decodeAudio ha hi
  case testEnded.step =>
    obtain ⟨rfl, rfl⟩ := Prod.mk.inj (Option.some.inj h)
    exact .testEnded
  case receive.receive ret =>
    obtain ⟨hok, h⟩ := Option.ite_none_right_eq_some.mp h
    cases ret <;> obtain ⟨rfl, rfl⟩ := Prod.mk.inj (Option.some.inj h)
    · exact .frame
    · exact .eagain hok
    · exact .eof
    · exact .error
  case fetch.step f =>
    obtain ⟨⟨f', m⟩, hf, h⟩ := Option.map_eq_some_iff.mp h
    cases h
    exact .fetch (PacketLoop.move hf)
  case fetch.callback f =>
    cases f <;> try cases h
    obtain ⟨hs, h⟩ := Option.ite_none_right_eq_some.mp h
    cases h
    exact .callback hs
  case setEnded.step =>
    cases h
    exact .setEnded

end ArcVideo
