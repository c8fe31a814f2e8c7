import ArcVideo.Conc.Words
import ArcVideo.Decoder.RingBuffer

/-!
# The counters of the ring as C ints

`VideoDecoder` counts the frames in two ints of 32 bits, which wrap.

* `RingCounters` : the two members and the functions of them, with the remainder of C;
* `CountedRing`, `countedRing` : the increments with the tests before them, beside the true counts;
* `RingArithmetic` : what the ring computes from the counters is right;
* `arithmetic_iff` : it is all through a run if and only if at most 2^31 - 2 frames are decoded in it;
* `State.counted`, `counted_run` : every run of the decoder and its threads is a run of the counters;
* `index_eq` : up to that many frames the indices are those of the unbounded counters.
-/

namespace ArcVideo
open Conc

/-! ## The counters -/

structure RingCounters where
  /-- Tail of the ring buffer. -/
  currentFrameDisplayed : Int32
  /-- Head of the ring buffer. -/
  totalFramesBuffered : Int32

namespace RingCounters

/-- `VIDEOPLAYER_VIDEO_NUM_BUFFERED_FRAMES` in an expression of ints. -/
def numBufferedFrames : Int32 := Int32.ofNat VIDEOPLAYER_VIDEO_NUM_BUFFERED_FRAMES

def getReadIndex (r : RingCounters) : Int32 := r.currentFrameDisplayed % numBufferedFrames

def getWriteIndex (r : RingCounters) : Int32 := (r.totalFramesBuffered + 1) % numBufferedFrames

def getNumBuffered (r : RingCounters) : Int32 := r.totalFramesBuffered - r.currentFrameDisplayed

def hasFrameBuffered (r : RingCounters) : Bool := decide (r.getNumBuffered ≥ 1)

/-- The first disjunct of `isBuffered`. -/
def isFull (r : RingCounters) : Bool := decide (r.getNumBuffered = numBufferedFrames - 1)

end RingCounters

/-- The counters, what the two threads have found when they tested them last, and the true counts. -/
structure CountedRing where
  ring : RingCounters
  /-- `run` has found room and not used it. -/
  hasRoom : Bool
  /-- `nextVideoFrame` has found a frame and not taken it. -/
  hasFrame : Bool
  /-- The frames decoded. -/
  decoded : Nat
  /-- The frames delivered. -/
  delivered : Nat

namespace CountedRing

def start : CountedRing := ⟨⟨0, 0⟩, false, false, 0, 0⟩

end CountedRing

inductive CountAct
  /-- `run` tests whether the ring is full. -/
  | testFull
  /-- `run` goes back to its test without a frame. -/
  | leave
  /-- `run` increments `totalFramesBuffered`. -/
  | publish
  /-- `nextVideoFrame` tests whether there is a frame. -/
  | testHas
  /-- `nextVideoFrame` increments `currentFrameDisplayed`. -/
  | advance
  deriving DecidableEq

namespace CountedRing

def step (s : CountedRing) : CountAct → Option CountedRing
  | .testFull => some { s with hasRoom := !s.ring.isFull }
  | .leave => some { s with hasRoom := false }
  | .publish =>
    if s.hasRoom then
      some { s with
        ring := { s.ring with totalFramesBuffered := s.ring.totalFramesBuffered + 1 }
        hasRoom := false
        decoded := s.decoded + 1 }
    else none
  | .testHas => some { s with hasFrame := s.ring.hasFrameBuffered }
  | .advance =>
    if s.hasFrame then
      some { s with
        ring := { s.ring with currentFrameDisplayed := s.ring.currentFrameDisplayed + 1 }
        hasFrame := false
        delivered := s.delivered + 1 }
    else none

end CountedRing

/-- **The counters in every order the ring allows.** -/
def countedRing : System CountedRing CountAct := ⟨(· = CountedRing.start), CountedRing.step⟩

structure RingArithmetic (s : CountedRing) : Prop where
  readIndex : 0 ≤ s.ring.getReadIndex.toInt ∧ s.ring.getReadIndex.toInt < VIDEOPLAYER_VIDEO_NUM_BUFFERED_FRAMES
  writeIndex : 0 ≤ s.ring.getWriteIndex.toInt ∧ s.ring.getWriteIndex.toInt < VIDEOPLAYER_VIDEO_NUM_BUFFERED_FRAMES
  numBuffered : s.ring.getNumBuffered.toInt = s.decoded - s.delivered
  /-- The addition in `getWriteIndex` does not overflow. -/
  addition : s.ring.totalFramesBuffered.toInt + 1 < 2 ^ 31
  zero : s.ring.totalFramesBuffered = 0 → s.decoded = 0

/-! ## The counters in every run -/

namespace CountedRing

/-- The counters have been incremented once for every frame, and the threads have found what they say. -/
structure Counts (s : CountedRing) : Prop where
  total : s.ring.totalFramesBuffered = Int32.ofNat s.decoded
  displayed : s.ring.currentFrameDisplayed = Int32.ofNat s.delivered
  le : s.delivered ≤ s.decoded
  full : s.decoded ≤ s.delivered + 3
  room : s.hasRoom = true → s.decoded ≤ s.delivered + 2
  frame : s.hasFrame = true → s.delivered + 1 ≤ s.decoded

theorem Counts.numBuffered {s : CountedRing} (h : s.Counts) :
    s.ring.getNumBuffered.toInt = s.decoded - s.delivered := by
  have hle := h.le
  have hfull := h.full
  rw [RingCounters.getNumBuffered, h.total, h.displayed]
  exact toInt_ofNat_sub hle (by omega)

theorem Counts.isFull_iff {s : CountedRing} (h : s.Counts) : s.ring.isFull = true ↔ s.decoded = s.delivered + 3 := by
  rw [RingCounters.isFull, decide_eq_true_iff, ← Int32.toInt_inj, h.numBuffered,
    show (RingCounters.numBufferedFrames - 1).toInt = 3 from rfl]
  omega

theorem Counts.hasFrameBuffered_iff {s : CountedRing} (h : s.Counts) :
    s.ring.hasFrameBuffered = true ↔ s.delivered + 1 ≤ s.decoded := by
  rw [RingCounters.hasFrameBuffered, decide_eq_true_iff, ge_iff_le, Int32.le_iff_toInt_le, h.numBuffered,
    Int32.toInt_one]
  omega

theorem Counts.step {s t : CountedRing} {a : CountAct} (h : s.Counts) (hs : s.step a = some t) : t.Counts := by
  have hle := h.le
  have hfull := h.full
  cases a with
  | testFull =>
      cases hs
      refine ⟨h.total, h.displayed, hle, hfull, fun hroom => ?_, h.frame⟩
      have hnot : ¬ s.ring.isFull = true := by simpa using hroom
      rw [h.isFull_iff] at hnot
      show s.decoded ≤ s.delivered + 2
      omega
  | leave =>
      cases hs
      exact ⟨h.total, h.displayed, hle, hfull, nofun, h.frame⟩
  | publish =>
      obtain ⟨hroom, hs⟩ := Option.ite_none_right_eq_some.mp hs
      cases hs
      have hlt := h.room hroom
      refine ⟨?_, h.displayed, ?_, ?_, nofun, fun hframe => ?_⟩
      · show s.ring.totalFramesBuffered + 1 = _
        rw [h.total, ofNat_succ]
      · exact Nat.le_succ_of_le hle
      · exact Nat.succ_le_succ hlt
      · exact Nat.le_succ_of_le (h.frame hframe)
  | testHas =>
      cases hs
      refine ⟨h.total, h.displayed, hle, hfull, h.room, fun hframe => ?_⟩
      exact h.hasFrameBuffered_iff.mp hframe
  | advance =>
      obtain ⟨hframe, hs⟩ := Option.ite_none_right_eq_some.mp hs
      cases hs
      have hlt := h.frame hframe
      refine ⟨h.total, ?_, hlt, ?_, fun hroom => ?_, nofun⟩
      · show s.ring.currentFrameDisplayed + 1 = _
        rw [h.displayed, ofNat_succ]
      · show s.decoded ≤ s.delivered + 1 + 3
        omega
      · have := h.room hroom
        show s.decoded ≤ s.delivered + 1 + 2
        omega

theorem counts_of_run {h : List (CountedRing × CountAct)} {s : CountedRing} (hr : countedRing.Run h s) : s.Counts := by
  refine System.RunWhen.induction (P := fun _ s => s.Counts) ?_ ?_ hr
  · rintro s rfl
    exact ⟨rfl, rfl, le_rfl, Nat.zero_le _, nofun, nofun⟩
  · rintro h s a t - hs - hstep
    exact hs.step hstep

/-! ## Up to the limit and beyond -/

theorem Counts.readIndex {s : CountedRing} (h : s.Counts) (hlimit : s.delivered < 2 ^ 31) :
    s.ring.getReadIndex.toInt = (s.delivered % VIDEOPLAYER_VIDEO_NUM_BUFFERED_FRAMES : Nat) := by
  rw [RingCounters.getReadIndex, h.displayed]
  exact toInt_ofNat_mod hlimit (by decide)

theorem Counts.writeIndex {s : CountedRing} (h : s.Counts) (hlimit : s.decoded + 1 < 2 ^ 31) :
    s.ring.getWriteIndex.toInt = ((s.decoded + 1) % VIDEOPLAYER_VIDEO_NUM_BUFFERED_FRAMES : Nat) := by
  rw [RingCounters.getWriteIndex, h.total, ← ofNat_succ]
  exact toInt_ofNat_mod hlimit (by decide)

theorem mod_bounds (n : Nat) : 0 ≤ ((n % VIDEOPLAYER_VIDEO_NUM_BUFFERED_FRAMES : Nat) : Int) ∧
    ((n % VIDEOPLAYER_VIDEO_NUM_BUFFERED_FRAMES : Nat) : Int) < VIDEOPLAYER_VIDEO_NUM_BUFFERED_FRAMES :=
  ⟨Int.natCast_nonneg _, Int.ofNat_lt.mpr (Nat.mod_lt n (by decide))⟩

theorem Counts.arithmetic {s : CountedRing} (h : s.Counts) (hlimit : s.decoded + 2 ≤ 2 ^ 31) : RingArithmetic s := by
  have hle := h.le
  refine ⟨?_, ?_, h.numBuffered, ?_, fun hz => ?_⟩
  · rw [h.readIndex (by omega)]
    exact mod_bounds _
  · rw [h.writeIndex (by omega)]
    exact mod_bounds _
  · rw [h.total, Int32.toInt_ofNat_of_lt (by omega)]
    omega
  · rw [h.total, ofNat_eq_zero_iff] at hz
    exact Nat.eq_zero_of_dvd_of_lt hz (by omega)

/-- At 2^31 - 1 frames the addition in `getWriteIndex` overflows. -/
theorem Counts.overflows {s : CountedRing} (h : s.Counts) (hd : s.decoded = 2 ^ 31 - 1) : ¬ RingArithmetic s := by
  intro hs
  have hadd := hs.addition
  rw [h.total, hd] at hadd
  exact absurd hadd (by decide)

theorem step_decoded {s t : CountedRing} {a : CountAct} (hs : s.step a = some t) :
    s.decoded ≤ t.decoded ∧ t.decoded ≤ s.decoded + 1 := by
  cases a with
  | publish =>
      obtain ⟨-, hs⟩ := Option.ite_none_right_eq_some.mp hs
      cases hs
      exact ⟨Nat.le_succ _, le_rfl⟩
  | advance =>
      obtain ⟨-, hs⟩ := Option.ite_none_right_eq_some.mp hs
      cases hs
      exact ⟨le_rfl, Nat.le_succ _⟩
  | testFull | leave | testHas =>
      cases hs
      exact ⟨le_rfl, Nat.le_succ _⟩

/-! ## A run of any length -/

theorem exists_publish {h : List (CountedRing × CountAct)} {s : CountedRing} (hr : countedRing.Run h s)
    (he : s.delivered = s.decoded) :
    ∃ h t, countedRing.Run h t ∧ t.decoded = s.decoded + 1 ∧ t.delivered = s.delivered := by
  have hroom : s.ring.isFull = false := by
    rw [Bool.eq_false_iff, ne_eq, (counts_of_run hr).isFull_iff]
    omega
  have htest : countedRing.step s .testFull = some { s with hasRoom := true } := by
    show some { s with hasRoom := !s.ring.isFull } = _
    rw [hroom]
    rfl
  have hpublish : countedRing.step { s with hasRoom := true } .publish = some { s with
      ring := { s.ring with totalFramesBuffered := s.ring.totalFramesBuffered + 1 }
      hasRoom := false
      decoded := s.decoded + 1 } := rfl
  exact ⟨_, _, (hr.snoc trivial htest).snoc trivial hpublish, rfl, rfl⟩

theorem exists_advance {h : List (CountedRing × CountAct)} {s : CountedRing} (hr : countedRing.Run h s)
    (he : s.decoded = s.delivered + 1) :
    ∃ h t, countedRing.Run h t ∧ t.decoded = s.decoded ∧ t.delivered = s.delivered + 1 := by
  have hhas : s.ring.hasFrameBuffered = true := (counts_of_run hr).hasFrameBuffered_iff.mpr he.ge
  have htest : countedRing.step s .testHas = some { s with hasFrame := true } := by
    show some { s with hasFrame := s.ring.hasFrameBuffered } = _
    rw [hhas]
  have hadvance : countedRing.step { s with hasFrame := true } .advance = some { s with
      ring := { s.ring with currentFrameDisplayed := s.ring.currentFrameDisplayed + 1 }
      hasFrame := false
      delivered := s.delivered + 1 } := rfl
  exact ⟨_, _, (hr.snoc trivial htest).snoc trivial hadvance, rfl, rfl⟩

/-- Any number of frames can be decoded, each delivered before the next. -/
theorem exists_run (n : Nat) : ∃ h s, countedRing.Run h s ∧ s.decoded = n ∧ s.delivered = n := by
  induction n with
  | zero => exact ⟨[], start, ⟨start, rfl, .nil⟩, rfl, rfl⟩
  | succ n ih =>
      obtain ⟨h, s, hr, hdec, hdel⟩ := ih
      obtain ⟨g, t, ht, htdec, htdel⟩ := exists_publish hr (hdel.trans hdec.symm)
      obtain ⟨k, u, hu, hudec, hudel⟩ := exists_advance ht (by omega)
      exact ⟨k, u, hu, by omega, by omega⟩

end CountedRing

/-- **The ring arithmetic is right all through a run if and only if at most 2^31 - 2 frames are decoded in it**, in any
order of decoding and delivering that the ring allows. -/
theorem arithmetic_iff {h : List (CountedRing × CountAct)} {s : CountedRing} (hr : countedRing.Run h s) :
    ((∀ p ∈ h, RingArithmetic p.1) ∧ RingArithmetic s) ↔ s.decoded ≤ 2 ^ 31 - 2 := by
  have hbefore : ∀ p ∈ h, p.1.Counts := by
    intro p hp
    obtain ⟨g, -, -, hg, -⟩ := hr.prefix_of_mem hp
    exact CountedRing.counts_of_run hg
  constructor
  · rintro ⟨hall, hs⟩
    by_contra hmany
    have hpass := hr.passes CountedRing.decoded (by rintro s rfl; rfl) (fun _ _ _ hs => (CountedRing.step_decoded hs).2)
      (k := 2 ^ 31 - 1) (by omega)
    rcases hpass with he | ⟨p, hp, he⟩
    · exact (CountedRing.counts_of_run hr).overflows he hs
    · exact (hbefore p hp).overflows he (hall p hp)
  · intro hlimit
    refine ⟨fun p hp => ?_, (CountedRing.counts_of_run hr).arithmetic (by omega)⟩
    have hle := hr.le_of_mem CountedRing.decoded (fun _ _ _ hs => (CountedRing.step_decoded hs).1) hp
    exact (hbefore p hp).arithmetic (by omega)

theorem arithmetic_one_frame : ∃ h s, countedRing.Run h s ∧ s.decoded = 1 ∧ s.delivered = 1 ∧
    (∀ p ∈ h, RingArithmetic p.1) ∧ RingArithmetic s := by
  obtain ⟨h, s, hr, hdec, hdel⟩ := CountedRing.exists_run 1
  exact ⟨h, s, hr, hdec, hdel, (arithmetic_iff hr).mpr (by omega)⟩

/-- After 2^31 frames the write index is -3. -/
theorem write_index_negative : ∃ h s, countedRing.Run h s ∧ s.decoded = 2 ^ 31 ∧ s.delivered = 2 ^ 31 ∧
    s.ring.getWriteIndex.toInt = -3 ∧ ¬ RingArithmetic s := by
  obtain ⟨h, s, hr, hdec, hdel⟩ := CountedRing.exists_run (2 ^ 31)
  have hindex : s.ring.getWriteIndex.toInt = -3 := by
    rw [RingCounters.getWriteIndex, (CountedRing.counts_of_run hr).total, hdec]
    decide
  refine ⟨h, s, hr, hdec, hdel, hindex, fun hs => ?_⟩
  have hnonneg := hs.writeIndex.1
  rw [hindex] at hnonneg
  exact absurd hnonneg (by decide)

/-! ## The runs of the decoder -/

/-- The places of `nextVideoFrame` between a test that found a frame and the increment of `currentFrameDisplayed`. -/
def ConsumerPc.hasFrame : ConsumerPc → Bool
  | .lock | .advance => true
  | _ => false

variable {φ π : Type}

def countedAt (l : RunPc φ π) (k : ConsumerPc) (d : VideoDecoder φ π) : CountedRing where
  ring := ⟨Int32.ofNat d.currentFrameDisplayed, Int32.ofNat d.totalFramesBuffered⟩
  hasRoom := l.hasRoom
  hasFrame := k.hasFrame
  decoded := d.totalFramesBuffered
  delivered := d.currentFrameDisplayed

def State.counted (s : State φ π) : CountedRing := countedAt s.run s.consumer s.shared

theorem counts_countedAt {l : RunPc φ π} {k : ConsumerPc} {d : VideoDecoder φ π} (hl : RunRing l d)
    (hk : ConsumerRing k d) : (countedAt l k d).Counts := by
  refine ⟨rfl, rfl, hk.le, hl.le, hl.room, fun hframe => ?_⟩
  have hsees := hk.sees
  cases k with
  | lock | advance => exact hsees
  | _ => cases hframe

/-- No step or one. -/
def CountedRing.Moves (s t : CountedRing) : Prop := t = s ∨ ∃ a, s.step a = some t

/-- **A step of the decoding thread** is at most one of the counters. -/
theorem RunMove.counts {c : Container} {a : RunAct φ} {l l' : RunPc φ π} {k : ConsumerPc} {d d' : VideoDecoder φ π}
    (h : RunMove c a l d l' d') (hl : RunRing l d) (hk : ConsumerRing k d) :
    (countedAt l k d).Moves (countedAt l' k d') := by
  have hcounts := counts_countedAt hl hk
  cases h with
  | notFull hf =>
      refine Or.inr ⟨.testFull, ?_⟩
      have hnot : (countedAt .testFull k d).ring.isFull = false := by
        rw [Bool.eq_false_iff, ne_eq, hcounts.isFull_iff]
        rwa [VideoDecoder.isFull_iff] at hf
      show some { countedAt .testFull k d with hasRoom := !(countedAt .testFull k d).ring.isFull } = _
      rw [hnot]
      rfl
  | has =>
      split
      · exact Or.inr ⟨.leave, rfl⟩
      · exact Or.inl rfl
  | leave | setEnded => exact Or.inr ⟨.leave, rfl⟩
  | @fetch _ _ f' _ _ =>
      cases f' with
      | none => exact Or.inr ⟨.leave, rfl⟩
      | some f' => exact Or.inl rfl
  | publish =>
      refine Or.inr ⟨.publish, ?_⟩
      show some _ = some _
      unfold countedAt
      rw [ofNat_succ]
      rfl
  | _ => exact Or.inl rfl

/-- **A step of the consumer** is at most one of the counters. -/
theorem ConsumerMove.counts {a : ConsumerAct} {l : RunPc φ π} {k k' : ConsumerPc} {d d' : VideoDecoder φ π}
    (h : ConsumerMove a k d k' d') (hl : RunRing l d) (hk : ConsumerRing k d) :
    (countedAt l k d).Moves (countedAt l k' d') := by
  have hcounts := counts_countedAt hl hk
  cases h with
  | @available _ n hn =>
      refine Or.inr ⟨.testHas, ?_⟩
      have hhas : (countedAt l (.readDisplayed n) d).ring.hasFrameBuffered = true :=
        hcounts.hasFrameBuffered_iff.mpr (hn.trans hk.sees.2)
      show some { countedAt l (.readDisplayed n) d with
        hasFrame := (countedAt l (.readDisplayed n) d).ring.hasFrameBuffered } = _
      rw [hhas]
      rfl
  | advance =>
      refine Or.inr ⟨.advance, ?_⟩
      show some _ = some _
      unfold countedAt
      rw [ofNat_succ]
      rfl
  | bufFull | bufEnded =>
      split
      · exact Or.inl rfl
      · exact Or.inl rfl
  | _ => exact Or.inl rfl

theorem AudioMove.counts {c : Container} {a : AudioAct} {l l' : AudioPc π} {d d' : VideoDecoder φ π}
    (h : AudioMove c a l d l' d') (r : RunPc φ π) (k : ConsumerPc) : countedAt r k d' = countedAt r k d := by
  cases h <;> rfl

section
variable {c : Container} {file : List (Demuxed π)} {h : List (State φ π × Action φ)} {s t : State φ π}

theorem counted_step (hr : (decoder φ c file).Run h s) {a : Action φ} (hs : (decoder φ c file).step s a = some t) :
    s.counted.Moves t.counted := by
  obtain ⟨i, a⟩ := a
  obtain ⟨l, d, hmove, rfl⟩ := Program.next_eq_some hs
  have hl := run_ring hr
  have hk := consumer_ring hr
  have hown : (Config.put s i l d).loc i = l := Config.put_loc_self s i l d
  have hother : ∀ j, j ≠ i → (Config.put s i l d).loc j = s.loc j := fun j hj => Config.put_loc_of_ne s hj l d
  show (countedAt s.run s.consumer s.shared).Moves
    (countedAt ((Config.put s i l d).loc .run) ((Config.put s i l d).loc .consumer) d)
  cases i with
  | run =>
      rw [hown, hother .consumer (by decide)]
      exact (run_move hmove).counts hl hk
  | consumer =>
      rw [hown, hother .run (by decide)]
      exact (consumer_move hmove).counts hl hk
  | audio =>
      rw [hother .run (by decide), hother .consumer (by decide)]
      exact Or.inl ((audio_move hmove).counts s.run s.consumer)

/-- **The counters of every run** of the decoder and its threads are those of a run of the ring's counters. -/
theorem counted_run (hr : (decoder φ c file).Run h s) : ∃ k, countedRing.Run k s.counted := by
  refine System.RunWhen.induction (P := fun _ s => ∃ k, countedRing.Run k s.counted) ?_ ?_ hr
  · rintro _ rfl
    exact ⟨[], CountedRing.start, rfl, .nil⟩
  · rintro h s a t hr ⟨k, hk⟩ - hs
    rcases counted_step hr hs with he | ⟨b, hb⟩
    · exact ⟨k, he ▸ hk⟩
    · exact ⟨_, hk.snoc trivial hb⟩

/-- Up to 2^31 - 2 frames the indices are those of the unbounded counters. -/
theorem index_eq (hr : (decoder φ c file).Run h s) (hlimit : s.shared.totalFramesBuffered ≤ 2 ^ 31 - 2) :
    s.counted.ring.getReadIndex.toInt = s.shared.getReadIndex.val ∧
      s.counted.ring.getWriteIndex.toInt = s.shared.getWriteIndex.val := by
  have hcounts := counts_countedAt (run_ring hr) (consumer_ring hr)
  have hle : s.shared.currentFrameDisplayed ≤ s.shared.totalFramesBuffered := hcounts.le
  have hdisplayed : s.shared.currentFrameDisplayed < 2 ^ 31 := by omega
  have htotal : s.shared.totalFramesBuffered + 1 < 2 ^ 31 := by omega
  exact ⟨hcounts.readIndex hdisplayed, hcounts.writeIndex htotal⟩

end

end ArcVideo
