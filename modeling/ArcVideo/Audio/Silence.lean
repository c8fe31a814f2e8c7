import Mathlib.Data.Rat.Lemmas
import Mathlib.Tactic.FieldSimp
import Mathlib.Tactic.Linarith
import Mathlib.Tactic.Ring
import ArcVideo.Audio.Blocks

/-!
# Silence and the clock of the video

`loadContainer` computes the playing time of a block of silence, by which `updateAudioBuffer` moves the timestamps of
the video whenever it plays one before the stream has ended.

* `AudioSource`, `AudioSetup`, `setupAudio` : the source stream, and what `loadContainer` sets up for it;
* `AudioFormat.playingTime` : how long bytes of a format play;
* `offset_eq` : the offset is the number of silent blocks times `secPerKbBlock`;
* `Exact`, `exact_iff` : the offset is the playing time of the silence that was played, and the channels reported are
  those emitted, exactly for a stereo source for which no silence was played.
-/

namespace ArcVideo
open Conc

/-! ## Set-up -/

structure AudioSource where
  channels : Nat
  sampleRate : Nat
  channels_pos : 1 ≤ channels
  sampleRate_pos : 1 ≤ sampleRate

structure AudioFormat where
  channels : Nat
  sampleFormat : AVSampleFormat
  sampleRate : Nat

/-- How long `n` bytes play, in seconds. -/
def AudioFormat.playingTime (f : AudioFormat) (n : Nat) : ℚ := n / (f.channels * f.sampleFormat.bytes * f.sampleRate)

/-- The audio set-up of `loadContainer`. -/
structure AudioSetup where
  /-- The channels and the rate in `VideoBufferInfo`. -/
  audioChannels : Nat
  audioSampleRate : Nat
  /-- The output of the resampler. -/
  out : AudioFormat
  secPerKbBlock : ℚ

/-- `loadContainer`, lines 206 to 232. -/
def setupAudio (s : AudioSource) : AudioSetup where
  audioChannels := s.channels
  audioSampleRate := s.sampleRate
  out := ⟨AV_CHANNEL_LAYOUT_STEREO, AV_SAMPLE_FMT_S16, s.sampleRate⟩
  secPerKbBlock := 1024 / 1 / s.channels / s.sampleRate

/-- `getCurrentFrameTimestamp()` for a frame with that `pts`. -/
def AudioDecoder.getCurrentFrameTimestamp (d : AudioDecoder) (pts : Int) (timeBase : ℚ) : ℚ :=
  pts * timeBase + d.timestampOffset

/-! ## Silence -/

def DecodeResult.silent (r : DecodeResult) : Bool := decide (r.ret ≤ 0) && !r.audioOutputEnded

def silences (results : Nat → DecodeResult) (k : Nat) : Nat := (List.range k).countP fun i => (results i).silent

/-- The silent bytes substituted for the first `k` results before the stream had ended. -/
def silentBytes (results : Nat → DecodeResult) (k : Nat) : List UInt8 :=
  (List.range k).flatMap fun i => if (results i).silent then (results i).bytes else []

theorem silences_succ (results : Nat → DecodeResult) (k : Nat) :
    silences results (k + 1) = silences results k + if (results k).silent then 1 else 0 := by
  simp [silences, List.range_succ]

theorem DecodeResult.length_silent {r : DecodeResult} (h : r.silent = true) : r.bytes.length = 1024 := by
  unfold silent at h
  have hret : r.ret ≤ 0 := of_decide_eq_true (Bool.and_eq_true_iff.mp h).1
  have hlen := r.length_bytes
  rw [if_pos hret] at hlen
  omega

theorem length_silentBytes (results : Nat → DecodeResult) (k : Nat) :
    (silentBytes results k).length = silences results k * 1024 := by
  unfold silentBytes
  induction k with
  | zero => simp [silences]
  | succ k ih =>
      rw [silences_succ, List.range_succ, List.flatMap_append, List.length_append, ih, List.flatMap_singleton]
      split
      next hs => rw [DecodeResult.length_silent hs, Nat.succ_mul]
      next => rw [List.length_nil, Nat.add_zero, Nat.add_zero]

theorem silences_eq_zero (results : Nat → DecodeResult) (k : Nat) :
    silences results k = 0 ↔ ∀ i < k, (results i).silent = false := by
  simp [silences, List.countP_eq_zero]

variable {results : Nat → DecodeResult}

/-- The offset is the number of silent results times `secPerKbBlock`. -/
def OffsetInv (results : Nat → DecodeResult) (secPerKbBlock : ℚ) (d : AudioDecoder) : Prop :=
  d.secPerKbBlock = secPerKbBlock ∧ d.timestampOffset = silences results d.decoded * secPerKbBlock

theorem OffsetInv.nextDecoded {secPerKbBlock : ℚ} {d : AudioDecoder} (h : OffsetInv results secPerKbBlock d) :
    OffsetInv results secPerKbBlock (d.nextDecoded results) := by
  obtain ⟨hsec, hoff⟩ := h
  unfold AudioDecoder.nextDecoded
  split
  · unfold AudioDecoder.refill OffsetInv
    have hsilent : (results d.decoded).silent =
      (decide ((results d.decoded).ret ≤ 0) && !(results d.decoded).audioOutputEnded) := rfl
    split
    next hret =>
      rw [decide_eq_true hret, Bool.true_and] at hsilent
      refine ⟨hsec, ?_⟩
      dsimp only
      rw [silences_succ, hsilent, hoff, hsec]
      split
      · push_cast
        ring
      · simp
    next hret =>
      rw [decide_eq_false hret, Bool.false_and] at hsilent
      refine ⟨hsec, ?_⟩
      dsimp only
      rw [silences_succ, hsilent, hoff]
      simp
  · exact ⟨hsec, hoff⟩

theorem OffsetInv.copy {secPerKbBlock : ℚ} {d e : AudioDecoder} {sizeLeft : Int}
    (h : OffsetInv results secPerKbBlock d) (he : d.copy sizeLeft = some e) : OffsetInv results secPerKbBlock e := by
  obtain ⟨buffer, -, rfl⟩ := Option.map_eq_some_iff.mp he
  exact h

theorem OffsetInv.fill {secPerKbBlock : ℚ} {out : List UInt8} {d e : AudioDecoder} {sizeLeft : Int}
    (hfill : FillInv results out d sizeLeft) (h : OffsetInv results secPerKbBlock d)
    (he : d.fill results sizeLeft = some e) : OffsetInv results secPerKbBlock e := by
  obtain ⟨e', -, he', -, -, h'⟩ := AudioDecoder.fill_induction
    (P := fun d sizeLeft => FillInv results out d sizeLeft ∧ OffsetInv results secPerKbBlock d)
    (fun d sizeLeft hd hpos => by
      obtain ⟨f, hf, hfill⟩ := hd.1.step hpos
      exact ⟨f, hf, hfill, hd.2.nextDecoded.copy hf⟩)
    d sizeLeft ⟨hfill, h⟩
  rw [he] at he'
  cases he'
  exact h'

/-- **The offset after any number of calls**, with the invariant of the blocks. -/
theorem offset_eq (results : Nat → DecodeResult) (secPerKbBlock : ℚ) (m : Nat) :
    ∃ bs d, (AudioDecoder.loaded secPerKbBlock).updates results m = some (bs, d) ∧ bs.length = m ∧
      BlocksInv results bs d ∧ OffsetInv results secPerKbBlock d := by
  refine AudioDecoder.updates_induction (P := fun bs d => BlocksInv results bs d ∧ OffsetInv results secPerKbBlock d)
    ?_ ⟨blocksInv_loaded secPerKbBlock, rfl, ?_⟩ m
  · rintro bs d ⟨hb, ho⟩
    obtain ⟨e, he, hb'⟩ := hb.step
    exact ⟨e, he, hb', ho.fill hb.audio.fillInv he⟩
  · show (0 : ℚ) = (0 : Nat) * secPerKbBlock
    simp

theorem BlocksInv.lt_decoded_iff {bs : List (List UInt8)} {d : AudioDecoder} (h : BlocksInv results bs d) (i : Nat) :
    i < d.decoded ↔ ((chunks results).joined i).length < bs.length * 1024 := by
  rw [← h.length_flatten]
  exact h.audio.read.lt_next_iff h.audio.only_needed i

/-! ## The clocks -/

/-- After `m` calls the offset is the playing time of the silence in the format that is emitted, so that the timestamps
of the frames are moved by that time; and the channels reported are those emitted. -/
structure Exact (s : AudioSource) (results : Nat → DecodeResult) (m : Nat) : Prop where
  offset : ∀ bs d, (AudioDecoder.loaded (setupAudio s).secPerKbBlock).updates results m = some (bs, d) →
    d.timestampOffset = (setupAudio s).out.playingTime (silentBytes results d.decoded).length
  timestamps : ∀ bs d, (AudioDecoder.loaded (setupAudio s).secPerKbBlock).updates results m = some (bs, d) →
    ∀ (pts : Int) (timeBase : ℚ), d.getCurrentFrameTimestamp pts timeBase =
      pts * timeBase + (setupAudio s).out.playingTime (silentBytes results d.decoded).length
  channels : (setupAudio s).audioChannels = (setupAudio s).out.channels

/-- The playing time of `n` silent blocks, and the time the code takes them to play. -/
theorem playingTime_blocks (s : AudioSource) (n : Nat) :
    (setupAudio s).out.playingTime (n * 1024) = n * (256 / s.sampleRate) ∧
      n * (setupAudio s).secPerKbBlock = n * (1024 / s.channels / s.sampleRate) := by
  have hr : (s.sampleRate : ℚ) ≠ 0 := Nat.cast_ne_zero.mpr (Nat.ne_of_gt s.sampleRate_pos)
  refine ⟨?_, by simp [setupAudio]⟩
  simp only [setupAudio, AudioFormat.playingTime, AVSampleFormat.bytes]
  push_cast
  field_simp
  ring

theorem playingTime_eq_iff (s : AudioSource) (n : Nat) :
    n * (setupAudio s).secPerKbBlock = (setupAudio s).out.playingTime (n * 1024) ↔ n = 0 ∨ s.channels = 4 := by
  have hr : (s.sampleRate : ℚ) ≠ 0 := Nat.cast_ne_zero.mpr (Nat.ne_of_gt s.sampleRate_pos)
  have hc : (s.channels : ℚ) ≠ 0 := Nat.cast_ne_zero.mpr (Nat.ne_of_gt s.channels_pos)
  obtain ⟨ht, hk⟩ := playingTime_blocks s n
  have hcount : ((n : Nat) : ℚ) = 0 ↔ n = 0 := Nat.cast_eq_zero
  rw [ht, hk, mul_eq_mul_left_iff, div_left_inj' hr, div_eq_iff hc, hcount, or_comm]
  refine or_congr_right ⟨fun h => ?_, fun h => ?_⟩
  · have hfour : (s.channels : ℚ) = (4 : Nat) := by
      push_cast
      linarith
    exact Nat.cast_injective hfour
  · rw [h]
    norm_num

/-- **The offset is exact** if and only if the source is stereo and none of the results that the calls decode is played
as silence before the end: results are decoded while the ones before fall short of the blocks. -/
theorem exact_iff (s : AudioSource) (results : Nat → DecodeResult) (m : Nat) :
    Exact s results m ↔
      s.channels = 2 ∧ ∀ i, ((chunks results).joined i).length < m * 1024 → (results i).silent = false := by
  obtain ⟨bs, d, hu, hlen, hb, hsec, hoff⟩ := offset_eq results (setupAudio s).secPerKbBlock m
  have hnone : (∀ i, ((chunks results).joined i).length < m * 1024 → (results i).silent = false) ↔
      silences results d.decoded = 0 := by
    rw [silences_eq_zero]
    refine forall_congr' fun i => ?_
    rw [hb.lt_decoded_iff, hlen]
  have hchannels : (setupAudio s).audioChannels = (setupAudio s).out.channels ↔ s.channels = 2 := Iff.rfl
  have htime := playingTime_eq_iff s (silences results d.decoded)
  rw [← hoff, ← length_silentBytes] at htime
  rw [hnone]
  constructor
  · intro h
    have hstereo := hchannels.mp h.channels
    refine ⟨hstereo, ?_⟩
    rcases htime.mp (h.offset bs d hu) with hz | hfour
    · exact hz
    · omega
  · rintro ⟨hstereo, hz⟩
    have hexact := htime.mpr (Or.inl hz)
    refine ⟨?_, ?_, hchannels.mpr hstereo⟩
    · intro bs' d' hu'
      rw [hu] at hu'
      cases hu'
      exact hexact
    · intro bs' d' hu' pts timeBase
      rw [hu] at hu'
      cases hu'
      rw [AudioDecoder.getCurrentFrameTimestamp, hexact]

def AudioSource.mono : AudioSource := ⟨1, 44100, by decide, by decide⟩

theorem einval_le (n : Nat) : AVERROR_EINVAL ≤ n := by
  unfold AVERROR_EINVAL
  omega

def unconverted (_ : Nat) : DecodeResult := ⟨[], AVERROR_EINVAL, false, Nat.zero_le _, einval_le 0⟩

/-- `decodeAudio` gives that result on a frame that is not converted. -/
theorem unconverted_decoded (i : Nat) : decodeAudio false [.frame 1024 ⟨AVERROR_EINVAL, [], by decide, by decide⟩] =
    some (unconverted i) := rfl

/-- One block of a mono source, silent because its first frame is not converted: the offset is four times the time the
block plays, and one channel is reported where two are emitted. -/
theorem silence_too_long : (∀ i, ∃ answers, decodeAudio false answers = some (unconverted i)) ∧ ∃ bs d,
    (AudioDecoder.loaded (setupAudio .mono).secPerKbBlock).updates unconverted 1 = some (bs, d) ∧
      d.timestampOffset = 1024 / 44100 ∧
      (setupAudio .mono).out.playingTime (silentBytes unconverted d.decoded).length = 256 / 44100 ∧
      (setupAudio .mono).audioChannels = 1 ∧ (setupAudio .mono).out.channels = 2 ∧ ¬ Exact .mono unconverted 1 := by
  obtain ⟨bs, d, hu, hlen, hb, hsec, hoff⟩ := offset_eq unconverted (setupAudio .mono).secPerKbBlock 1
  have hone : d.decoded = 1 := by
    have hzero := hb.lt_decoded_iff 0
    have hnext := hb.lt_decoded_iff 1
    have hbytes : ((chunks unconverted).joined 1).length = 1024 := by
      rw [Chunks.joined_succ, Chunks.joined_zero, List.nil_append]
      exact DecodeResult.length_silent (r := unconverted 0) rfl
    rw [hlen, Chunks.joined_zero, List.length_nil] at hzero
    rw [hlen, hbytes] at hnext
    omega
  have hsilences : silences unconverted d.decoded = 1 := by
    rw [hone]
    rfl
  refine ⟨fun i => ⟨_, unconverted_decoded i⟩, bs, d, hu, ?_, ?_, rfl, rfl, fun h => absurd h.channels (by decide)⟩
  · rw [hoff, hsilences]
    norm_num [setupAudio, AudioSource.mono]
  · rw [length_silentBytes, hsilences, (playingTime_blocks _ 1).1]
    norm_num [AudioSource.mono]

end ArcVideo
