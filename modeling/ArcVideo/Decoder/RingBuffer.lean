import ArcVideo.Decoder.Moves

/-!
# The ring of decoded frames

* `RingEffect` : what a step of each thread does to the ring. A counter has one writer, and slots are only written at
  `getWriteIndex()`, by the decoding thread;
* `RunRing`, `ConsumerRing` : what the two threads know of the ring at each place of their code; they hold in every
  run (`run_ring`, `consumer_ring`), whatever the mutex does;
* `ring_refines_fifo` : the ring is a queue. The frames published are the `put`s, the slots that advancing calls of
  `nextVideoFrame` return are the `get`s;
* `shown_unchanged`, `still_buffered` : what the consumer was given, and what `isBuffered()` told it, stays true until
  it advances.
-/

namespace ArcVideo
open Conc

variable {φ π : Type}

/-! ## What a step does to the ring -/

/-- The effect of a step of thread `t` on the ring and on `videoOutputEnded`. -/
structure RingEffect (t : Thread) (d d' : VideoDecoder φ π) : Prop where
  displayed_le : d.currentFrameDisplayed ≤ d'.currentFrameDisplayed
  displayed_eq : t ≠ .consumer → d'.currentFrameDisplayed = d.currentFrameDisplayed
  total_le : d.totalFramesBuffered ≤ d'.totalFramesBuffered
  total_eq : t ≠ .run → d'.totalFramesBuffered = d.totalFramesBuffered
  slot_eq : ∀ i, i ≠ d.getWriteIndex → d'.rgbFrames i = d.rgbFrames i
  slots_eq : t ≠ .run → d'.rgbFrames = d.rgbFrames
  ended_of : d.videoOutputEnded = true → d'.videoOutputEnded = true
  ended_eq : t = .audio → d'.videoOutputEnded = d.videoOutputEnded

theorem RunMove.effect {c : Container} {a : RunAct φ} {l l' : RunPc φ π} {d d' : VideoDecoder φ π}
    (h : RunMove c a l d l' d') : RingEffect .run d d' := by
  cases h with
  | setEnded =>
      exact ⟨le_rfl, fun _ => rfl, le_rfl, fun h => absurd rfl h, fun _ _ => rfl, fun h => absurd rfl h, fun _ => rfl,
        nofun⟩
  | scale | scaled | writePts =>
      exact ⟨le_rfl, fun _ => rfl, le_rfl, fun h => absurd rfl h, fun i hi => VideoDecoder.writeSlot_of_ne _ _ hi,
        fun h => absurd rfl h, id, nofun⟩
  | publish =>
      exact ⟨le_rfl, fun _ => rfl, Nat.le_succ _, fun h => absurd rfl h, fun _ _ => rfl, fun h => absurd rfl h, id,
        nofun⟩
  | _ => exact ⟨le_rfl, fun _ => rfl, le_rfl, fun h => absurd rfl h, fun _ _ => rfl, fun h => absurd rfl h, id, nofun⟩

theorem ConsumerMove.effect {a : ConsumerAct} {l l' : ConsumerPc} {d d' : VideoDecoder φ π}
    (h : ConsumerMove a l d l' d') : RingEffect .consumer d d' := by
  cases h with
  | advance =>
      exact ⟨Nat.le_succ _, fun h => absurd rfl h, le_rfl, fun _ => rfl, fun _ _ => rfl, fun _ => rfl, id, nofun⟩
  | delVideo =>
      exact ⟨le_rfl, fun h => absurd rfl h, le_rfl, fun _ => rfl, fun _ _ => rfl, fun _ => rfl, fun _ => rfl, nofun⟩
  | _ => exact ⟨le_rfl, fun h => absurd rfl h, le_rfl, fun _ => rfl, fun _ _ => rfl, fun _ => rfl, id, nofun⟩

theorem AudioMove.effect {c : Container} {a : AudioAct} {l l' : AudioPc π} {d d' : VideoDecoder φ π}
    (h : AudioMove c a l d l' d') : RingEffect .audio d d' := by
  cases h <;> exact ⟨le_rfl, fun _ => rfl, le_rfl, fun _ => rfl, fun _ _ => rfl, fun _ => rfl, id, fun _ => rfl⟩

theorem step_effect {c : Container} {t : Thread} {a : Act φ t} {l l' : Pc φ π t} {d d' : VideoDecoder φ π}
    (h : (threads φ π c).step t a l d = some (l', d')) : RingEffect t d d' := by
  cases t with
  | run => exact (run_move h).effect
  | consumer => exact (consumer_move h).effect
  | audio => exact (audio_move h).effect

theorem ConsumerMove.displayed_eq {a : ConsumerAct} {l l' : ConsumerPc} {d d' : VideoDecoder φ π}
    (h : ConsumerMove a l d l' d') (hl : l ≠ .advance) : d'.currentFrameDisplayed = d.currentFrameDisplayed := by
  cases h with
  | advance => exact absurd rfl hl
  | _ => rfl

/-! ## What the threads know of the ring -/

/-- The places of `run` between a fullness test that failed and the increment of `totalFramesBuffered`. -/
def RunPc.hasRoom : RunPc φ π → Bool
  | .testEnded | .testHas | .testLoop | .unlock | .receive | .fetch _ | .setEnded | .scale _ | .scaled _ | .writePts _
  | .publish _ => true
  | _ => false

def RunPc.isWriting : RunPc φ π → Bool
  | .scale _ | .scaled _ | .writePts _ => true
  | _ => false

theorem RunPc.hasRoom_of_isWriting {l : RunPc φ π} (h : l.isWriting = true) : l.hasRoom = true := by
  cases l <;> first | rfl | cases h

structure RunRing (l : RunPc φ π) (d : VideoDecoder φ π) : Prop where
  le : d.totalFramesBuffered ≤ d.currentFrameDisplayed + 3
  room : l.hasRoom = true → d.totalFramesBuffered ≤ d.currentFrameDisplayed + 2
  drawn : ∀ f, l = .writePts f → (d.rgbFrames d.getWriteIndex).data = some f.data
  filled : ∀ f, l = .publish f → d.rgbFrames d.getWriteIndex = f.toRgb

/-- `isBuffered()`, as it stays true while the decoding thread goes on. -/
def VideoDecoder.staysBuffered (d : VideoDecoder φ π) : Prop :=
  d.currentFrameDisplayed + 3 ≤ d.totalFramesBuffered ∨
    d.videoOutputEnded = true ∧ d.currentFrameDisplayed + 1 ≤ d.totalFramesBuffered

theorem VideoDecoder.staysBuffered.has {d : VideoDecoder φ π} (h : d.staysBuffered) :
    d.currentFrameDisplayed + 1 ≤ d.totalFramesBuffered := by
  rcases h with h | h
  · omega
  · exact h.2

theorem VideoDecoder.staysBuffered.isBuffered {d : VideoDecoder φ π} (h : d.staysBuffered)
    (hle : d.totalFramesBuffered ≤ d.currentFrameDisplayed + 3) : d.isBuffered = true := by
  rw [VideoDecoder.isBuffered_iff, VideoDecoder.isFull_iff, VideoDecoder.hasFrameBuffered_iff]
  rcases h with h | h
  · exact Or.inl (by omega)
  · exact Or.inr h

theorem VideoDecoder.staysBuffered.mono {d d' : VideoDecoder φ π} (h : d.staysBuffered)
    (hcur : d'.currentFrameDisplayed = d.currentFrameDisplayed) (htot : d.totalFramesBuffered ≤ d'.totalFramesBuffered)
    (hend : d.videoOutputEnded = true → d'.videoOutputEnded = true) : d'.staysBuffered := by
  rcases h with h | ⟨he, h⟩
  · exact Or.inl (by omega)
  · exact Or.inr ⟨hend he, by omega⟩

/-- What the consumer knows of the ring at the places of its calls. -/
def ConsumerPc.sees (d : VideoDecoder φ π) : ConsumerPc → Prop
  | .readDisplayed n => d.currentFrameDisplayed ≤ n ∧ n ≤ d.totalFramesBuffered
  | .readEnded n | .readZero n => n = d.currentFrameDisplayed
  | .lock | .advance => d.currentFrameDisplayed + 1 ≤ d.totalFramesBuffered
  | .signal | .unlock | .returnFrame true => 1 ≤ d.currentFrameDisplayed
  | .bufHas => d.videoOutputEnded = true
  | .returnBuffered true => d.staysBuffered
  | _ => True

structure ConsumerRing (l : ConsumerPc) (d : VideoDecoder φ π) : Prop where
  le : d.currentFrameDisplayed ≤ d.totalFramesBuffered
  sees : l.sees d

theorem RunMove.ring {c : Container} {a : RunAct φ} {l l' : RunPc φ π} {d d' : VideoDecoder φ π}
    (h : RunMove c a l d l' d') (hr : RunRing l d) : RunRing l' d' := by
  obtain ⟨hle, hroom, hdrawn, -⟩ := hr
  cases h with
  | notFull hf =>
      rw [VideoDecoder.isFull_iff] at hf
      exact ⟨hle, fun _ => by omega, nofun, nofun⟩
  | publish => exact ⟨Nat.succ_le_succ (hroom rfl), nofun, nofun, nofun⟩
  | has =>
      split_ifs
      · exact ⟨hle, nofun, nofun, nofun⟩
      · exact ⟨hle, fun _ => hroom rfl, nofun, nofun⟩
  | @fetch _ _ f' _ _ =>
      cases f' with
      | none => exact ⟨hle, nofun, nofun, nofun⟩
      | some f' => exact ⟨hle, fun _ => hroom rfl, nofun, nofun⟩
  | scaled =>
      refine ⟨hle, fun _ => hroom rfl, ?_, nofun⟩
      rintro f ⟨⟩
      rw [VideoDecoder.writeSlot_self]
  | writePts =>
      refine ⟨hle, fun _ => hroom rfl, nofun, ?_⟩
      rintro f ⟨⟩
      rw [VideoDecoder.writeSlot_self, hdrawn _ rfl]
      rfl
  | seenEnded | notEnded | enter | unlock | frame | eagain | eof | error | callback | scale =>
      exact ⟨hle, fun _ => hroom rfl, nofun, nofun⟩
  | _ => exact ⟨hle, nofun, nofun, nofun⟩

theorem ConsumerMove.ring {a : ConsumerAct} {l l' : ConsumerPc} {d d' : VideoDecoder φ π}
    (h : ConsumerMove a l d l' d') (hr : ConsumerRing l d) : ConsumerRing l' d' := by
  obtain ⟨hle, hsees⟩ := hr
  cases h with
  | readTotal => exact ⟨hle, hle, le_rfl⟩
  | available hn => exact ⟨hle, hn.trans hsees.2⟩
  | starved hn => exact ⟨hle, le_antisymm hn hsees.1⟩
  | notEnded | lock | signal | unlock => exact ⟨hle, hsees⟩
  | advance => exact ⟨hsees, Nat.le_add_left 1 _⟩
  | bufFull =>
      split_ifs with hf
      · exact ⟨hle, Or.inl (VideoDecoder.isFull_iff _ |>.mp hf).ge⟩
      · exact ⟨hle, trivial⟩
  | bufEnded =>
      split_ifs with he
      · exact ⟨hle, he⟩
      · exact ⟨hle, trivial⟩
  | @bufHas d =>
      cases hb : d.hasFrameBuffered with
      | false => exact ⟨hle, trivial⟩
      | true => exact ⟨hle, Or.inr ⟨hsees, (VideoDecoder.hasFrameBuffered_iff _).mp hb⟩⟩
  | _ => exact ⟨hle, trivial⟩

theorem RunRing.stable {t : Thread} {l : RunPc φ π} {d d' : VideoDecoder φ π} (h : RunRing l d)
    (he : RingEffect t d d') (ht : t ≠ .run) : RunRing l d' := by
  have hcur := he.displayed_le
  have htot := he.total_eq ht
  have hidx : d'.getWriteIndex = d.getWriteIndex := by rw [VideoDecoder.getWriteIndex, htot, VideoDecoder.getWriteIndex]
  refine ⟨?_, fun hl => ?_, fun f hf => ?_, fun f hf => ?_⟩
  · have := h.le
    omega
  · have := h.room hl
    omega
  · rw [he.slots_eq ht, hidx]
    exact h.drawn f hf
  · rw [he.slots_eq ht, hidx]
    exact h.filled f hf

theorem ConsumerRing.stable {t : Thread} {l : ConsumerPc} {d d' : VideoDecoder φ π} (h : ConsumerRing l d)
    (he : RingEffect t d d') (ht : t ≠ .consumer) : ConsumerRing l d' := by
  obtain ⟨hle, hsees⟩ := h
  have hcur := he.displayed_eq ht
  have htot := he.total_le
  refine ⟨hcur ▸ hle.trans htot, ?_⟩
  cases l with
  | readDisplayed n => exact ⟨hcur ▸ hsees.1, hsees.2.trans htot⟩
  | readEnded n | readZero n => exact hsees.trans hcur.symm
  | lock | advance => exact (congrArg (· + 1) hcur).le.trans (hsees.trans htot)
  | signal | unlock => exact hsees.trans hcur.ge
  | bufHas => exact he.ended_of hsees
  | returnFrame b =>
      cases b with
      | false => trivial
      | true => exact hsees.trans hcur.ge
  | returnBuffered b =>
      cases b with
      | false => trivial
      | true => exact VideoDecoder.staysBuffered.mono hsees hcur htot he.ended_of
  | _ => trivial

/-! ## The ring in every run -/

def knowsRing : ∀ t, Pc φ π t → VideoDecoder φ π → Prop
  | .run => RunRing
  | .consumer => ConsumerRing
  | .audio => fun _ _ => True

theorem knows_ring {c : Container} {file : List (Demuxed π)} {h : List (State φ π × Action φ)} {s : State φ π}
    (hr : (decoder φ c file).Run h s) (t : Thread) : knowsRing t (s.loc t) s.shared := by
  refine Program.relyGuarantee RingEffect ?_ ?_ ?_ hr t
  · rintro _ rfl t
    cases t with
    | run => exact ⟨Nat.zero_le _, nofun, nofun, nofun⟩
    | consumer => exact ⟨le_rfl, trivial⟩
    | audio => trivial
  · intro s t a l d hI _ hs
    refine ⟨?_, step_effect hs⟩
    cases t with
    | run => exact (run_move hs).ring (hI .run)
    | consumer => exact (consumer_move hs).ring (hI .consumer)
    | audio => trivial
  · intro t u l d d' hne hI he
    cases u with
    | run => exact RunRing.stable hI he hne.symm
    | consumer => exact ConsumerRing.stable hI he hne.symm
    | audio => trivial

section
variable {c : Container} {file : List (Demuxed π)} {h : List (State φ π × Action φ)} {s : State φ π}

theorem run_ring (hr : (decoder φ c file).Run h s) : RunRing s.run s.shared := knows_ring hr .run

theorem consumer_ring (hr : (decoder φ c file).Run h s) : ConsumerRing s.consumer s.shared := knows_ring hr .consumer

theorem numBuffered_bounds (hr : (decoder φ c file).Run h s) :
    0 ≤ s.shared.getNumBuffered ∧ s.shared.getNumBuffered ≤ VIDEOPLAYER_VIDEO_NUM_BUFFERED_FRAMES - 1 := by
  have hlo := (consumer_ring hr).le
  have hhi := (run_ring hr).le
  rw [VideoDecoder.getNumBuffered, VIDEOPLAYER_VIDEO_NUM_BUFFERED_FRAMES]
  omega

theorem writeIndex_ne (hr : (decoder φ c file).Run h s) (hw : s.run.hasRoom = true) :
    s.shared.getWriteIndex ≠ s.shared.getReadIndex := by
  have hlo := (consumer_ring hr).le
  have hhi := (run_ring hr).room hw
  exact (slot_ne (by omega) (by simp only [VIDEOPLAYER_VIDEO_NUM_BUFFERED_FRAMES]; omega)).symm

end

/-! ## The ring is a queue -/

/-- The frame a step of `run` publishes by incrementing `totalFramesBuffered`. -/
def RunPc.publishes : RunPc φ π → RunAct φ → Option (AVFrame φ)
  | .publish f, .step => some f
  | _, _ => none

/-- The slot an advancing call of `nextVideoFrame` returns in a step of the consumer. -/
def ConsumerPc.delivers (d : VideoDecoder φ π) : ConsumerPc → ConsumerAct → Option (RgbFrame φ)
  | .returnFrame true, .step => some (d.rgbFrames d.getReadIndex)
  | _, _ => none

def published (s : State φ π) : Action φ → Option (AVFrame φ)
  | ⟨.run, a⟩ => s.run.publishes a
  | _ => none

def delivered (s : State φ π) : Action φ → Option (RgbFrame φ)
  | ⟨.consumer, a⟩ => s.consumer.delivers s.shared a
  | _ => none

/-- The frames `run` has written into the ring and counted, in order. -/
def framesWritten (h : List (State φ π × Action φ)) : List (AVFrame φ) := h.filterMap fun p => published p.1 p.2

def framesDelivered (h : List (State φ π × Action φ)) : List (RgbFrame φ) := h.filterMap fun p => delivered p.1 p.2

/-- What the step does to the queue of decoded frames. -/
def ringEvent (s : State φ π) (a : Action φ) : List (Fifo.Event (RgbFrame φ)) :=
  ((published s a).map fun f => .put f.toRgb).toList ++ ((delivered s a).map .get).toList

theorem puts_ringEvent (h : List (State φ π × Action φ)) :
    Fifo.puts (h.flatMap fun p => ringEvent p.1 p.2) = (framesWritten h).map AVFrame.toRgb := by
  induction h with
  | nil => rfl
  | cons p h ih =>
      rw [List.flatMap_cons, Fifo.puts_append, ih, framesWritten, framesWritten, List.filterMap_cons, ringEvent]
      cases published p.1 p.2 <;> cases delivered p.1 p.2 <;> rfl

theorem gets_ringEvent (h : List (State φ π × Action φ)) :
    Fifo.gets (h.flatMap fun p => ringEvent p.1 p.2) = framesDelivered h := by
  induction h with
  | nil => rfl
  | cons p h ih =>
      rw [List.flatMap_cons, Fifo.gets_append, ih, framesDelivered, framesDelivered, List.filterMap_cons, ringEvent]
      cases published p.1 p.2 <;> cases delivered p.1 p.2 <;> rfl

def ConsumerPc.taken : ConsumerPc → Bool
  | .signal | .unlock | .returnFrame true => true
  | _ => false

/-- The index of the oldest frame that is still to be delivered. -/
def queueFrom (l : ConsumerPc) (d : VideoDecoder φ π) : Nat :=
  if l.taken then d.currentFrameDisplayed else d.currentFrameDisplayed + 1

structure RingHolds (l : ConsumerPc) (d : VideoDecoder φ π) (q : List (RgbFrame φ)) : Prop where
  length : queueFrom l d + q.length = d.totalFramesBuffered + 1
  holds : Holds d.rgbFrames (queueFrom l d) q

theorem RunMove.holds {c : Container} {a : RunAct φ} {l l' : RunPc φ π} {d d' : VideoDecoder φ π}
    (h : RunMove c a l d l' d') (hr : RunRing l d) {k : ConsumerPc} {q : List (RgbFrame φ)} (hq : RingHolds k d q) :
    ∃ q', (Fifo.automaton _).feed q ((l.publishes a).map fun f => .put f.toRgb).toList = some q' ∧
      RingHolds k d' q' := by
  obtain ⟨hlen, hholds⟩ := hq
  cases h with
  | @publish d f =>
      refine ⟨q ++ [f.toRgb], Fifo.feed_put q _, ?_, hholds.snoc ?_⟩
      · rw [List.length_append, List.length_singleton, ← Nat.add_assoc]
        exact congrArg (· + 1) hlen
      · rw [hlen]
        exact hr.filled f rfl
  | scale | scaled | writePts =>
      have hroom := hr.room rfl
      have hlt : q.length < VIDEOPLAYER_VIDEO_NUM_BUFFERED_FRAMES := by
        simp only [queueFrom] at hlen
        split_ifs at hlen <;> simp only [VIDEOPLAYER_VIDEO_NUM_BUFFERED_FRAMES] <;> omega
      exact ⟨q, rfl, hlen, hholds.congr hlt fun i hi => VideoDecoder.writeSlot_of_ne _ _ (by rwa [hlen] at hi)⟩
  | _ => exact ⟨q, rfl, hlen, hholds⟩

theorem ConsumerMove.holds {a : ConsumerAct} {l l' : ConsumerPc} {d d' : VideoDecoder φ π}
    (h : ConsumerMove a l d l' d') (hr : ConsumerRing l d) {q : List (RgbFrame φ)} (hq : RingHolds l d q) :
    ∃ q', (Fifo.automaton _).feed q ((l.delivers d a).map .get).toList = some q' ∧ RingHolds l' d' q' := by
  obtain ⟨hlen, hholds⟩ := hq
  cases h with
  | @returnFrame d b =>
      cases b with
      | false => exact ⟨q, rfl, hlen, hholds⟩
      | true =>
          have hle := hr.le
          cases q with
          | nil =>
              simp only [queueFrom, ConsumerPc.taken, if_true, List.length_nil] at hlen
              omega
          | cons x q =>
              have hx : d.rgbFrames d.getReadIndex = x := hholds.head
              refine ⟨q, ?_, ?_, hholds.tail⟩
              · rw [← hx]
                exact Fifo.feed_get _ q
              · rw [List.length_cons, Nat.add_comm q.length, ← Nat.add_assoc] at hlen
                exact hlen
  | bufFull | bufEnded => split_ifs <;> exact ⟨q, rfl, hlen, hholds⟩
  | _ => exact ⟨q, rfl, hlen, hholds⟩

theorem AudioMove.holds {c : Container} {a : AudioAct} {l l' : AudioPc π} {d d' : VideoDecoder φ π}
    (h : AudioMove c a l d l' d') {k : ConsumerPc} {q : List (RgbFrame φ)} (hq : RingHolds k d q) :
    RingHolds k d' q := by
  obtain ⟨hlen, hholds⟩ := hq
  cases h <;> exact ⟨hlen, hholds⟩

section
variable {c : Container} {file : List (Demuxed π)} {h : List (State φ π × Action φ)} {s : State φ π}

/-- **The ring refines a queue**: frames go in when `run` publishes them and come out when `nextVideoFrame` returns
them. -/
theorem ring_refines_fifo (hr : (decoder φ c file).Run h s) :
    ∃ q, (Fifo.automaton _).feed [] (h.flatMap fun p => ringEvent p.1 p.2) = some q ∧
      RingHolds s.consumer s.shared q := by
  refine System.accepts_of_simulation ringEvent (fun s q => RingHolds s.consumer s.shared q) ?_ ?_ hr
  · rintro _ rfl
    exact ⟨rfl, Holds.nil _ _⟩
  · rintro h s ⟨t, a⟩ s' q hr hq - hstep
    obtain ⟨l, d, hs, rfl⟩ := Program.next_eq_some hstep
    cases t with
    | run =>
        obtain ⟨q', hf, hq'⟩ := (run_move hs).holds (run_ring hr) hq
        exact ⟨q', by rwa [← List.append_nil (Option.toList _)] at hf, hq'⟩
    | consumer => exact (consumer_move hs).holds (consumer_ring hr) hq
    | audio => exact ⟨q, rfl, (audio_move hs).holds hq⟩

theorem written_eq_delivered (hr : (decoder φ c file).Run h s) :
    ∃ q, (framesWritten h).map AVFrame.toRgb = framesDelivered h ++ q ∧ RingHolds s.consumer s.shared q := by
  obtain ⟨q, hf, hq⟩ := ring_refines_fifo hr
  refine ⟨q, ?_, hq⟩
  rw [← puts_ringEvent, ← gets_ringEvent]
  exact Fifo.puts_eq hf

end

theorem ConsumerMove.queueFrom_eq {a : ConsumerAct} {l l' : ConsumerPc} {d d' : VideoDecoder φ π}
    (h : ConsumerMove a l d l' d') : queueFrom l' d' = queueFrom l d + (l.delivers d a).toList.length := by
  cases h with
  | @returnFrame d b => cases b <;> rfl
  | bufFull | bufEnded => split_ifs <;> rfl
  | _ => rfl

theorem framesDelivered_snoc (h : List (State φ π × Action φ)) (s : State φ π) (a : Action φ) :
    framesDelivered (h ++ [(s, a)]) = framesDelivered h ++ (delivered s a).toList := by
  unfold framesDelivered
  rw [List.filterMap_append]
  congr 1

/-- The number of the oldest frame still to be delivered: the frames before it have been. -/
theorem queueFrom_eq {c : Container} {file : List (Demuxed π)} {h : List (State φ π × Action φ)} {s : State φ π}
    (hr : (decoder φ c file).Run h s) : queueFrom s.consumer s.shared = (framesDelivered h).length + 1 := by
  refine System.RunWhen.induction (P := fun h s =>
    queueFrom s.consumer s.shared = (framesDelivered h).length + 1) ?_ ?_ hr
  · rintro _ rfl
    rfl
  · rintro h s ⟨t, a⟩ s' - ih - hstep
    obtain ⟨l, d, hs, rfl⟩ := Program.next_eq_some hstep
    rw [framesDelivered_snoc, List.length_append]
    cases t with
    | run =>
        have hcur := (run_move hs).effect.displayed_eq nofun
        unfold queueFrom at ih ⊢
        rw [Config.put_shared, hcur]
        exact ih
    | audio =>
        have hcur := (audio_move hs).effect.displayed_eq nofun
        unfold queueFrom at ih ⊢
        rw [Config.put_shared, hcur]
        exact ih
    | consumer =>
        have hm := (consumer_move hs).queueFrom_eq
        rw [Nat.add_right_comm, ← ih]
        exact hm

/-! ## Between two advancing calls -/

/-- Any step but the increment of `currentFrameDisplayed`. -/
def keepsFrame (s : State φ π) (a : Action φ) : Prop := a.1 = .consumer → s.consumer ≠ .advance

theorem RunMove.slots_eq {c : Container} {a : RunAct φ} {l l' : RunPc φ π} {d d' : VideoDecoder φ π}
    (h : RunMove c a l d l' d') (hl : l.isWriting = false) : d'.rgbFrames = d.rgbFrames := by
  cases h with
  | scale | scaled | writePts => cases hl
  | _ => rfl

/-- The places where a call of `nextVideoFrame` has found no frame, or is about to. -/
def ConsumerPc.starved (d : VideoDecoder φ π) : ConsumerPc → Prop
  | .readDisplayed n => n ≤ d.currentFrameDisplayed
  | .readEnded _ | .readZero _ | .returnNull | .returnFrame false => True
  | _ => False

theorem ConsumerPc.starved.congr {l : ConsumerPc} {d d' : VideoDecoder φ π} (h : l.starved d')
    (hcur : d'.currentFrameDisplayed = d.currentFrameDisplayed) : l.starved d := by
  cases l with
  | readDisplayed n => exact h.trans hcur.le
  | returnFrame b => cases b <;> exact h
  | _ => exact h

theorem ConsumerMove.not_starved {a : ConsumerAct} {l l' : ConsumerPc} {d d' : VideoDecoder φ π}
    (h : ConsumerMove a l d l' d') (hb : d.staysBuffered) (hl : ¬ l.starved d) : ¬ l'.starved d' := by
  cases h with
  | readTotal => exact Nat.not_le_of_lt hb.has
  | starved hn => exact absurd hn hl
  | ended | notEnded | zero | notZero => exact absurd trivial hl
  | bufFull | bufEnded => split_ifs <;> exact id
  | _ => exact id

section
variable {c : Container} {file : List (Demuxed π)} {h h' : List (State φ π × Action φ)} {s s' : State φ π}

theorem step_displayed {a : Action φ} (hstep : (decoder φ c file).step s a = some s') (hok : keepsFrame s a) :
    s'.shared.currentFrameDisplayed = s.shared.currentFrameDisplayed := by
  obtain ⟨t, a⟩ := a
  obtain ⟨l, d, hs, rfl⟩ := Program.next_eq_some hstep
  by_cases ht : t = .consumer
  · subst ht
    exact (consumer_move hs).displayed_eq (hok rfl)
  · exact (step_effect hs).displayed_eq ht

theorem step_shown (hr : (decoder φ c file).Run h s) {a : Action φ} (hstep : (decoder φ c file).step s a = some s') :
    s'.shared.rgbFrames s.shared.getReadIndex = s.shared.rgbFrames s.shared.getReadIndex := by
  obtain ⟨t, a⟩ := a
  obtain ⟨l, d, hs, rfl⟩ := Program.next_eq_some hstep
  by_cases ht : t = .run
  · subst ht
    cases hw : s.run.isWriting with
    | false => exact congrFun ((run_move hs).slots_eq hw) _
    | true => exact (step_effect hs).slot_eq _ (writeIndex_ne hr (RunPc.hasRoom_of_isWriting hw)).symm
  · exact congrFun ((step_effect hs).slots_eq ht) _

/-- Until the next increment, the slot the consumer was given is designated and is not written. -/
theorem shown_unchanged (hr : (decoder φ c file).Run h s) (hp : (decoder φ c file).Path keepsFrame s h' s') :
    s'.shared.getReadIndex = s.shared.getReadIndex ∧
      s'.shared.rgbFrames s.shared.getReadIndex = s.shared.rgbFrames s.shared.getReadIndex := by
  have hinv := hp.invariant (P := fun u => (∃ g, (decoder φ c file).Run g u) ∧
    u.shared.getReadIndex = s.shared.getReadIndex ∧
      u.shared.rgbFrames s.shared.getReadIndex = s.shared.rgbFrames s.shared.getReadIndex) ?_ ⟨⟨h, hr⟩, rfl, rfl⟩
  · exact hinv.2
  · rintro u a v ⟨⟨g, hu⟩, hidx, hslot⟩ hok hs
    refine ⟨⟨_, hu.snoc trivial hs⟩, ?_, ?_⟩
    · rw [← hidx, VideoDecoder.getReadIndex, step_displayed hs hok, VideoDecoder.getReadIndex]
    · rw [← hslot, ← hidx]
      exact step_shown hu hs

theorem step_buffered {a : Action φ} (hstep : (decoder φ c file).step s a = some s') (hok : keepsFrame s a)
    (hb : s.shared.staysBuffered) (hl : ¬ s.consumer.starved s.shared) :
    s'.shared.staysBuffered ∧ ¬ s'.consumer.starved s'.shared := by
  have hcur := step_displayed hstep hok
  obtain ⟨t, a⟩ := a
  obtain ⟨l, d, hs, rfl⟩ := Program.next_eq_some hstep
  have he := step_effect hs
  refine ⟨hb.mono hcur he.total_le he.ended_of, ?_⟩
  by_cases ht : t = .consumer
  · subst ht
    exact (consumer_move hs).not_starved hb hl
  · rw [State.consumer, Config.put_loc_of_ne _ (Ne.symm ht)]
    exact fun h => hl (h.congr hcur)

/-- Once `isBuffered()` has returned true, it stays true and no call finds the ring empty until the next increment. -/
theorem still_buffered (hr : (decoder φ c file).Run h s) (hb : s.consumer = .returnBuffered true)
    (hp : (decoder φ c file).Path keepsFrame s h' s') :
    s'.shared.isBuffered = true ∧ s'.shared.hasFrameBuffered = true ∧ ¬ s'.consumer.starved s'.shared := by
  have hsees := (consumer_ring hr).sees
  rw [hb] at hsees
  have hinv := hp.invariant (P := fun u => u.shared.staysBuffered ∧ ¬ u.consumer.starved u.shared)
    (fun u a v hu hok hs => step_buffered hs hok hu.1 hu.2) ⟨hsees, by rw [hb]; exact id⟩
  have hle := (run_ring (hr.append (hp.mono fun _ _ _ => trivial))).le
  exact ⟨hinv.1.isBuffered hle, (VideoDecoder.hasFrameBuffered_iff _).mpr hinv.1.has, hinv.2⟩

/-- **Safety of the ring and exactly-once delivery**, in every run:

* the number of buffered frames is between 0 and `VIDEOPLAYER_VIDEO_NUM_BUFFERED_FRAMES - 1`;
* the slot being written is not the slot `getReadIndex()` designates;
* what the consumer was given is designated and unchanged until it advances;
* the advancing calls return the frames written, pixels and timestamp, in order and each once;
* once `isBuffered()` has returned true, it stays true and the next call of `nextVideoFrame` advances. -/
theorem ring_buffer_safe (hr : (decoder φ c file).Run h s) :
    (0 ≤ s.shared.getNumBuffered ∧ s.shared.getNumBuffered ≤ VIDEOPLAYER_VIDEO_NUM_BUFFERED_FRAMES - 1) ∧
    (s.run.isWriting = true → s.shared.getWriteIndex ≠ s.shared.getReadIndex) ∧
    (∀ h' s', (decoder φ c file).Path keepsFrame s h' s' → s'.shared.getReadIndex = s.shared.getReadIndex ∧
      s'.shared.rgbFrames s.shared.getReadIndex = s.shared.rgbFrames s.shared.getReadIndex) ∧
    framesDelivered h <+: (framesWritten h).map AVFrame.toRgb ∧
    (s.consumer = .returnBuffered true → ∀ h' s', (decoder φ c file).Path keepsFrame s h' s' →
      s'.shared.isBuffered = true ∧ s'.shared.hasFrameBuffered = true ∧ ¬ s'.consumer.starved s'.shared) := by
  obtain ⟨q, hq, -⟩ := written_eq_delivered hr
  exact ⟨numBuffered_bounds hr, fun hw => writeIndex_ne hr (RunPc.hasRoom_of_isWriting hw),
    fun _ _ hp => shown_unchanged hr hp, ⟨q, hq.symm⟩, fun hb _ _ hp => still_buffered hr hb hp⟩

end

/-- The decoding thread is overwriting slot 2 while the consumer shows slot 1. -/
theorem ring_buffer_safe_writing : ∃ s : State Nat Unit, s.run = .scaled ⟨8, 40⟩ ∧ s.consumer = .idle ∧
    s.shared.getReadIndex = 1 ∧ s.shared.rgbFrames 1 = ⟨some 7, 0⟩ ∧
      s.shared.getWriteIndex ≠ s.shared.getReadIndex := by
  obtain ⟨h, s, hr, hrun, hcons, hidx, hslot⟩ := (videoDecoder 2).exists_run rfl
    (Action.decodes ⟨7, 0⟩ ++ Action.runs 4 ++ Action.calls .nextVideoFrame 7 ++ Action.decodes ⟨8, 40⟩ ++
      Action.runs 1)
    (fun _ s => s.run = .scaled ⟨8, 40⟩ ∧ s.consumer = .idle ∧ s.shared.getReadIndex = 1 ∧
      s.shared.rgbFrames 1 = ⟨some 7, 0⟩) (by decide +kernel)
  exact ⟨s, hrun, hcons, hidx, hslot, (ring_buffer_safe hr).2.1 (by rw [hrun]; rfl)⟩

end ArcVideo
