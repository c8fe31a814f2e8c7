import Mathlib.Data.Rat.Defs
import Mathlib.Tactic.NormNum
import ArcVideo.Conc.Pieces
import ArcVideo.Load.Native

/-!
# The audio blocks

`VideoDecoder::decodeAudio` and `updateAudioBuffer`, the functions behind `audioBuffer`.

* `decodeAudio` : one call, on the answers of the codec and the resampler; `DecodeResult` is what a call can leave;
* `AudioDecoder` : the members `updateAudioBuffer` works on; `refill` and `copy` are the two halves of its loop, `fill`
  the loop, `updates` any number of calls;
* `AudioInv` : the blocks so far, followed by the bytes not used yet, are the results so far;
* `blocks_recut` : the blocks are the results, cut into pieces of 1024 bytes.

The sizes are C ints far below their limit and are integers here; `timestampOffset` is an exact rational.
-/

namespace ArcVideo
open Conc

/-! ## Decoding -/

def INT_MAX : Int := 2147483647

def AVERROR_EINVAL : Int := -22

/-- The sample formats; the last letter of the planar ones is a p. -/
inductive AVSampleFormat
  | u8 | s16 | s32 | flt | dbl | u8p | s16p | s32p | fltp | dblp | s64 | s64p
  deriving DecidableEq

/-- `av_get_bytes_per_sample` -/
def AVSampleFormat.bytes : AVSampleFormat → Nat
  | .u8 | .u8p => 1
  | .s16 | .s16p => 2
  | .s32 | .s32p | .flt | .fltp => 4
  | .dbl | .dblp | .s64 | .s64p => 8

abbrev AV_SAMPLE_FMT_S16 : AVSampleFormat := .s16

/-- The number of channels of `AV_CHANNEL_LAYOUT_STEREO`. -/
abbrev AV_CHANNEL_LAYOUT_STEREO : Nat := 2

/-- `av_samples_get_buffer_size(NULL, nbChannels, nbSamples, format, 1)`: an alignment of 1 rounds nothing, so a planar
format takes as much as an interleaved one. -/
def avSamplesGetBufferSize (nbChannels nbSamples : Int) (format : AVSampleFormat) : Int :=
  if format.bytes = 0 ∨ nbSamples ≤ 0 ∨ nbChannels ≤ 0 then AVERROR_EINVAL
  else if nbChannels > INT_MAX ∨ nbChannels * nbSamples > (INT_MAX - nbChannels) / format.bytes then AVERROR_EINVAL
  else nbSamples * format.bytes * nbChannels

abbrev AUDIO_BUF_SAMPLES : Nat := 64000

/-- The bytes of `audioDecodingBuffer`: 64000 stereo samples of 16 bits. -/
abbrev AUDIO_DECODING_BUFFER_SIZE : Nat := AUDIO_BUF_SAMPLES * AV_CHANNEL_LAYOUT_STEREO * AV_SAMPLE_FMT_S16.bytes

theorem audioDecodingBufferSize : AUDIO_DECODING_BUFFER_SIZE = 256000 := rfl

/-- What `swr_convert` does: it returns a number of samples, or an error, and has written at least these. -/
structure Converted where
  outSamples : Int
  data : List UInt8
  written : outSamples * 4 ≤ data.length
  fits : data.length ≤ AUDIO_DECODING_BUFFER_SIZE

/-- An answer of `avcodec_receive_frame`, a frame with the answers of `swr_get_out_samples` and `swr_convert` on it. -/
inductive AudioAnswer
  /-- `AVERROR(EAGAIN)`: a packet is sent. -/
  | again
  /-- An error or the end of the stream. -/
  | failed
  | frame (maxSamples : Int) (converted : Converted)

/-- What a call of `decodeAudio` leaves: the bytes at the front of the decoding buffer, its result, and
`audioOutputEnded`. -/
structure DecodeResult where
  written : List UInt8
  ret : Int
  audioOutputEnded : Bool
  fits : written.length ≤ AUDIO_DECODING_BUFFER_SIZE
  ret_le : ret ≤ written.length

theorem avSamplesGetBufferSize_stereo (n : Int) (h : 0 < n) (hn : n ≤ AUDIO_BUF_SAMPLES) :
    avSamplesGetBufferSize AV_CHANNEL_LAYOUT_STEREO n AV_SAMPLE_FMT_S16 = n * 4 := by
  have hn : n ≤ 64000 := hn
  simp only [avSamplesGetBufferSize, AVSampleFormat.bytes, INT_MAX]
  norm_num
  omega

theorem avSamplesGetBufferSize_nonpos (n : Int) (h : n ≤ 0) :
    avSamplesGetBufferSize AV_CHANNEL_LAYOUT_STEREO n AV_SAMPLE_FMT_S16 = AVERROR_EINVAL := by
  rw [avSamplesGetBufferSize, if_pos (Or.inr (Or.inl h))]

namespace Converted

theorem outSamples_le (c : Converted) : c.outSamples ≤ AUDIO_BUF_SAMPLES := by
  have hw := c.written
  have hf : c.data.length ≤ 256000 := c.fits
  change c.outSamples ≤ 64000
  omega

def size (c : Converted) : Int := avSamplesGetBufferSize AV_CHANNEL_LAYOUT_STEREO c.outSamples AV_SAMPLE_FMT_S16

theorem size_le (c : Converted) : c.size ≤ c.data.length := by
  unfold size
  rcases lt_or_ge 0 c.outSamples with h | h
  · rw [avSamplesGetBufferSize_stereo _ h c.outSamples_le]
    exact c.written
  · rw [avSamplesGetBufferSize_nonpos _ h, AVERROR_EINVAL]
    omega

def none : Converted := ⟨0, [], by decide, by decide⟩

end Converted

/-- A call of `decodeAudio` on the answers it gets; `none` when they run out before it returns. -/
def decodeAudio (audioOutputEnded : Bool) (answers : List AudioAnswer) : Option DecodeResult :=
  if audioOutputEnded then some ⟨[], 0, true, by decide, Int.le_refl 0⟩
  else match answers with
    | [] => none
    | .again :: answers => decodeAudio false answers
    | .failed :: answers => decodeAudio true answers
    | .frame maxSamples converted :: _ =>
      let c := if 0 < maxSamples then converted else Converted.none
      some ⟨c.data, c.size, false, c.fits, c.size_le⟩

/-- Once the stream has ended every call returns 0. -/
theorem decodeAudio_ended (answers : List AudioAnswer) :
    decodeAudio true answers = some ⟨[], 0, true, by decide, Int.le_refl 0⟩ := by
  unfold decodeAudio
  rfl

/-- **A call returns whole stereo samples**, or no more than 0. -/
theorem decodeAudio_whole_samples {audioOutputEnded : Bool} {answers : List AudioAnswer} {r : DecodeResult}
    (h : decodeAudio audioOutputEnded answers = some r) :
    r.ret ≤ 0 ∨ ∃ n ≤ AUDIO_BUF_SAMPLES, r.ret = (n : Int) * 4 := by
  induction answers generalizing audioOutputEnded with
  | nil =>
      unfold decodeAudio at h
      split at h <;> cases h
      exact Or.inl (Int.le_refl 0)
  | cons a answers ih =>
      unfold decodeAudio at h
      split at h
      · cases h
        exact Or.inl (Int.le_refl 0)
      cases a with
      | again => exact ih h
      | failed => exact ih h
      | frame maxSamples converted =>
          cases h
          generalize (if 0 < maxSamples then converted else Converted.none) = c
          have hle : c.outSamples ≤ 64000 := c.outSamples_le
          dsimp only
          unfold Converted.size
          rcases lt_or_ge 0 c.outSamples with hpos | hneg
          · rw [avSamplesGetBufferSize_stereo _ hpos c.outSamples_le]
            refine Or.inr ⟨c.outSamples.toNat, ?_, ?_⟩
            · change c.outSamples.toNat ≤ 64000
              omega
            · omega
          · rw [avSamplesGetBufferSize_nonpos _ hneg, AVERROR_EINVAL]
            exact Or.inl (by omega)

/-! ## The buffer -/

/-- The bytes that a result puts into the stream: a result of 0 or less is played as 1024 bytes of silence. -/
def DecodeResult.bytes (r : DecodeResult) : List UInt8 :=
  if r.ret ≤ 0 then List.replicate 1024 0 else r.written.take r.ret.toNat

/-- Write `src` over the elements of `dst` from `i` on. -/
def overwrite (dst : List UInt8) (i : Nat) (src : List UInt8) : List UInt8 :=
  dst.take i ++ src ++ dst.drop (i + src.length)

/-- `memcpy(dst + i, src + j, n)`; `none` when it would leave one of the two. -/
def memcpy (dst : List UInt8) (i : Int) (src : List UInt8) (j n : Int) : Option (List UInt8) :=
  if 0 ≤ n ∧ 0 ≤ i ∧ i + n ≤ dst.length ∧ 0 ≤ j ∧ j + n ≤ src.length then
    some (overwrite dst i.toNat ((src.drop j.toNat).take n.toNat))
  else none

/-- A `memcpy` of `updateAudioBuffer`, with the number of the last result. -/
structure Copy where
  writeAt : Int
  readAt : Int
  length : Int
  result : Nat

/-- The members `updateAudioBuffer` reads and sets. -/
structure AudioDecoder where
  audioBuffer : List UInt8
  audioDecodingBuffer : Option (List UInt8)
  audioDecodedSize : Int
  audioDecodedUsed : Int
  audioOutputEnded : Bool
  secPerKbBlock : ℚ
  timestampOffset : ℚ
  /-- The number of `decodeAudio` calls made. -/
  decoded : Nat
  /-- The `memcpy` calls made. -/
  copies : List Copy

namespace AudioDecoder

/-- The members after a load with audio. -/
def loaded (secPerKbBlock : ℚ) : AudioDecoder where
  audioBuffer := List.replicate VIDEOPLAYER_AUDIO_BUFFER_SIZE 0
  audioDecodingBuffer := none
  audioDecodedSize := 0
  audioDecodedUsed := 0
  audioOutputEnded := false
  secPerKbBlock := secPerKbBlock
  timestampOffset := 0
  decoded := 0
  copies := []

/-- `updateAudioBuffer`, lines 303 to 326: call `decodeAudio`, or play silence. `av_samples_alloc` clears what it
allocates. -/
def refill (d : AudioDecoder) (r : DecodeResult) : AudioDecoder :=
  let buffer := d.audioDecodingBuffer.getD (List.replicate AUDIO_DECODING_BUFFER_SIZE 0)
  let buffer := overwrite buffer 0 r.written
  let d := { d with audioDecodedUsed := 0, audioOutputEnded := r.audioOutputEnded, decoded := d.decoded + 1 }
  if r.ret ≤ 0 then
    { d with
      audioDecodedSize := 1024
      audioDecodingBuffer := some (overwrite buffer 0 (List.replicate 1024 0))
      timestampOffset := if !d.audioOutputEnded then d.timestampOffset + d.secPerKbBlock else d.timestampOffset }
  else { d with audioDecodedSize := r.ret, audioDecodingBuffer := some buffer }

/-- The first half of the loop's body: new bytes when the last ones are used up. -/
def nextDecoded (results : Nat → DecodeResult) (d : AudioDecoder) : AudioDecoder :=
  if d.audioDecodedUsed ≥ d.audioDecodedSize then d.refill (results d.decoded) else d

def lengthToCopy (d : AudioDecoder) (sizeLeft : Int) : Int :=
  if d.audioDecodedSize - d.audioDecodedUsed > sizeLeft then sizeLeft else d.audioDecodedSize - d.audioDecodedUsed

/-- The second half of the loop's body: copy into `audioBuffer`. -/
def copy (d : AudioDecoder) (sizeLeft : Int) : Option AudioDecoder :=
  let n := d.lengthToCopy sizeLeft
  (memcpy d.audioBuffer (VIDEOPLAYER_AUDIO_BUFFER_SIZE - sizeLeft) (d.audioDecodingBuffer.getD []) d.audioDecodedUsed
    n).map fun audioBuffer => { d with
      audioBuffer := audioBuffer
      audioDecodedUsed := d.audioDecodedUsed + n
      copies := d.copies ++ [⟨VIDEOPLAYER_AUDIO_BUFFER_SIZE - sizeLeft, d.audioDecodedUsed, n, d.decoded - 1⟩] }

theorem nextDecoded_used_lt (results : Nat → DecodeResult) (d : AudioDecoder) :
    (d.nextDecoded results).audioDecodedUsed < (d.nextDecoded results).audioDecodedSize := by
  unfold nextDecoded refill
  split
  · dsimp only
    split
    · show (0 : Int) < 1024
      decide
    · dsimp only
      omega
  · omega

theorem lengthToCopy_pos {d : AudioDecoder} {sizeLeft : Int} (h : d.audioDecodedUsed < d.audioDecodedSize)
    (hs : 0 < sizeLeft) : 0 < d.lengthToCopy sizeLeft := by
  unfold lengthToCopy
  split <;> omega

/-- The loop of `updateAudioBuffer`. -/
def fill (results : Nat → DecodeResult) (d : AudioDecoder) (sizeLeft : Int) : Option AudioDecoder :=
  if 0 < sizeLeft then
    ((d.nextDecoded results).copy sizeLeft).bind fun e =>
      fill results e (sizeLeft - (d.nextDecoded results).lengthToCopy sizeLeft)
  else some d
termination_by sizeLeft.toNat
decreasing_by
  have hpos := lengthToCopy_pos (nextDecoded_used_lt results d) ‹_›
  omega

def updateAudioBuffer (results : Nat → DecodeResult) (d : AudioDecoder) : Option AudioDecoder :=
  d.fill results VIDEOPLAYER_AUDIO_BUFFER_SIZE

def updates (results : Nat → DecodeResult) (d : AudioDecoder) : Nat → Option (List (List UInt8) × AudioDecoder)
  | 0 => some ([], d)
  | m + 1 => (d.updates results m).bind fun s =>
      (s.2.updateAudioBuffer results).map fun e => (s.1 ++ [e.audioBuffer], e)

/-! ## The loop -/

/-- **A property that a refill and a copy keep, the loop keeps**; the copy is made with unused bytes left. -/
theorem fill_induction {results : Nat → DecodeResult} {P : AudioDecoder → Int → Prop}
    (step : ∀ d sizeLeft, P d sizeLeft → 0 < sizeLeft →
      ∃ e, (d.nextDecoded results).copy sizeLeft = some e ∧
        P e (sizeLeft - (d.nextDecoded results).lengthToCopy sizeLeft))
    (d : AudioDecoder) (sizeLeft : Int) (h : P d sizeLeft) :
    ∃ e n, d.fill results sizeLeft = some e ∧ n ≤ 0 ∧ P e n := by
  induction d, sizeLeft using fill.induct results with
  | case1 d sizeLeft hpos ih =>
      obtain ⟨e, he, hP⟩ := step d sizeLeft h hpos
      obtain ⟨e', n, he', hn, hP'⟩ := ih e hP
      refine ⟨e', n, ?_, hn, hP'⟩
      rw [fill, if_pos hpos, he]
      exact he'
  | case2 d sizeLeft hneg =>
      refine ⟨d, sizeLeft, ?_, by omega, h⟩
      rw [fill, if_neg hneg]

/-- **A property of the blocks that every call keeps**, any number of calls keep. -/
theorem updates_induction {results : Nat → DecodeResult} {P : List (List UInt8) → AudioDecoder → Prop}
    (step : ∀ bs d, P bs d → ∃ e, d.updateAudioBuffer results = some e ∧ P (bs ++ [e.audioBuffer]) e)
    {d : AudioDecoder} (h : P [] d) (m : Nat) :
    ∃ bs e, d.updates results m = some (bs, e) ∧ bs.length = m ∧ P bs e := by
  induction m with
  | zero => exact ⟨[], d, rfl, rfl, h⟩
  | succ m ih =>
      obtain ⟨bs, e, hu, hlen, hP⟩ := ih
      obtain ⟨e', hu', hP'⟩ := step bs e hP
      refine ⟨bs ++ [e'.audioBuffer], e', ?_, ?_, hP'⟩
      · rw [updates, hu, Option.bind_some, hu', Option.map_some]
      · rw [List.length_append, hlen, List.length_singleton]

end AudioDecoder

/-! ## Bytes -/

theorem length_overwrite {dst src : List UInt8} {i : Nat} (h : i + src.length ≤ dst.length) :
    (overwrite dst i src).length = dst.length := by
  simp only [overwrite, List.length_append, List.length_take, List.length_drop]
  omega

theorem take_overwrite {dst src : List UInt8} {i : Nat} (h : i ≤ dst.length) :
    (overwrite dst i src).take (i + src.length) = dst.take i ++ src := by
  unfold overwrite
  apply List.take_left'
  rw [List.length_append, List.length_take, Nat.min_eq_left h]

theorem take_overwrite_zero {dst src : List UInt8} {n : Nat} (h : n ≤ src.length) :
    (overwrite dst 0 src).take n = src.take n := by
  unfold overwrite
  rw [List.take_zero, List.nil_append, List.take_append_of_le_length h]

theorem memcpy_inside {dst src : List UInt8} {i j n : Nat} (hi : i + n ≤ dst.length) (hj : j + n ≤ src.length) :
    memcpy dst i src j n = some (overwrite dst i ((src.drop j).take n)) := by
  unfold memcpy
  rw [if_pos (by omega)]
  simp

namespace DecodeResult

theorem length_bytes (r : DecodeResult) : (r.bytes.length : Int) = if r.ret ≤ 0 then 1024 else r.ret := by
  have hle := r.ret_le
  unfold bytes
  split
  · rw [List.length_replicate]
    rfl
  · rw [List.length_take]
    omega

theorem bytes_ne_nil (r : DecodeResult) : r.bytes ≠ [] := by
  intro h
  have hlen := r.length_bytes
  rw [h, List.length_nil] at hlen
  split at hlen <;> omega

end DecodeResult

def chunks (results : Nat → DecodeResult) : Chunks UInt8 where
  chunk i := (results i).bytes
  ne_nil i := (results i).bytes_ne_nil

def Copy.Inside (results : Nat → DecodeResult) (c : Copy) : Prop :=
  0 ≤ c.length ∧ 0 ≤ c.readAt ∧ c.readAt + c.length ≤ (results c.result).bytes.length ∧
    0 ≤ c.writeAt ∧ c.writeAt + c.length ≤ VIDEOPLAYER_AUDIO_BUFFER_SIZE

def AudioDecoder.unused (d : AudioDecoder) : List UInt8 :=
  ((d.audioDecodingBuffer.getD []).take d.audioDecodedSize.toNat).drop d.audioDecodedUsed.toNat

structure AudioSizes (results : Nat → DecodeResult) (d : AudioDecoder) : Prop where
  audioBuffer : d.audioBuffer.length = VIDEOPLAYER_AUDIO_BUFFER_SIZE
  allocated : ∀ b, d.audioDecodingBuffer = some b → b.length = AUDIO_DECODING_BUFFER_SIZE
  used_nonneg : 0 ≤ d.audioDecodedUsed
  used_le : d.audioDecodedUsed ≤ d.audioDecodedSize
  size_le : d.audioDecodedSize ≤ (d.audioDecodingBuffer.getD []).length
  last : d.audioDecodedSize = if d.decoded = 0 then 0 else ((results (d.decoded - 1)).bytes.length : Int)
  copies : ∀ c ∈ d.copies, c.Inside results

/-- The bytes `out` have been copied, and those that are left follow them in the stream of the results. -/
structure AudioInv (results : Nat → DecodeResult) (out : List UInt8) (d : AudioDecoder) : Prop where
  sizes : AudioSizes results d
  read : (chunks results).Read out ⟨d.unused, d.decoded⟩
  only_needed : (chunks results).Lazy out ⟨d.unused, d.decoded⟩

variable {results : Nat → DecodeResult}

theorem audioInv_loaded (secPerKbBlock : ℚ) : AudioInv results [] (AudioDecoder.loaded secPerKbBlock) where
  sizes :=
    { audioBuffer := List.length_replicate
      allocated := fun _ h => by cases h
      used_nonneg := Int.le_refl 0
      used_le := Int.le_refl 0
      size_le := Int.le_refl 0
      last := rfl
      copies := fun _ h => absurd h List.not_mem_nil }
  read := Chunks.Read.start
  only_needed := Chunks.Lazy.start

/-! ## A refill -/

theorem refill_unused {d : AudioDecoder}
    (hb : ∀ b, d.audioDecodingBuffer = some b → b.length = AUDIO_DECODING_BUFFER_SIZE) (r : DecodeResult) :
    (d.refill r).unused = r.bytes ∧
      (∀ b, (d.refill r).audioDecodingBuffer = some b → b.length = AUDIO_DECODING_BUFFER_SIZE) ∧
      (d.refill r).audioDecodedSize = r.bytes.length := by
  have hold : (d.audioDecodingBuffer.getD (List.replicate AUDIO_DECODING_BUFFER_SIZE 0)).length =
      AUDIO_DECODING_BUFFER_SIZE := by
    cases hd : d.audioDecodingBuffer with
    | none => exact List.length_replicate
    | some b => exact hb b hd
  unfold AudioDecoder.refill
  generalize d.audioDecodingBuffer.getD (List.replicate AUDIO_DECODING_BUFFER_SIZE 0) = old at hold ⊢
  have hfits := r.fits
  have hnew : (overwrite old 0 r.written).length = AUDIO_DECODING_BUFFER_SIZE := by
    rw [length_overwrite (by omega), hold]
  have hle := r.ret_le
  dsimp only
  rw [r.length_bytes]
  unfold DecodeResult.bytes
  split
  · refine ⟨?_, ?_, rfl⟩
    · unfold AudioDecoder.unused
      simp only [Option.getD_some]
      have htake : (overwrite (overwrite old 0 r.written) 0 (List.replicate 1024 0)).take 1024 =
          (List.replicate 1024 0).take 1024 := take_overwrite_zero (by rw [List.length_replicate])
      rw [List.take_replicate] at htake
      exact htake
    · rintro b ⟨⟩
      have hroom : 0 + (List.replicate 1024 (0 : UInt8)).length ≤ (overwrite old 0 r.written).length := by
        rw [List.length_replicate, hnew, audioDecodingBufferSize]
        omega
      rw [length_overwrite hroom, hnew]
  · refine ⟨?_, ?_, rfl⟩
    · unfold AudioDecoder.unused
      simp only [Option.getD_some]
      exact take_overwrite_zero (by omega)
    · rintro b ⟨⟩
      exact hnew

theorem AudioSizes.length_unused {d : AudioDecoder} (hs : AudioSizes results d) :
    (d.unused.length : Int) = d.audioDecodedSize - d.audioDecodedUsed := by
  have h0 := hs.used_nonneg
  have hle := hs.used_le
  have hsize := hs.size_le
  unfold AudioDecoder.unused
  rw [List.length_drop, List.length_take]
  omega

theorem refill_members (d : AudioDecoder) (r : DecodeResult) :
    (d.refill r).decoded = d.decoded + 1 ∧ (d.refill r).audioDecodedUsed = 0 ∧
      (d.refill r).audioBuffer = d.audioBuffer ∧ (d.refill r).copies = d.copies ∧
      ∃ b, (d.refill r).audioDecodingBuffer = some b := by
  unfold AudioDecoder.refill
  dsimp only
  split <;> exact ⟨rfl, rfl, rfl, rfl, _, rfl⟩

theorem AudioSizes.refill {d : AudioDecoder} (hs : AudioSizes results d) :
    AudioSizes results (d.refill (results d.decoded)) := by
  obtain ⟨-, halloc, hsize⟩ := refill_unused hs.allocated (results d.decoded)
  obtain ⟨hd, hused, hbuf, hcopies, b, hb⟩ := refill_members d (results d.decoded)
  have hroom : (results d.decoded).bytes.length ≤ 256000 := by
    have hlen := (results d.decoded).length_bytes
    have hret := (results d.decoded).ret_le
    have hfits := (results d.decoded).fits
    rw [audioDecodingBufferSize] at hfits
    split at hlen <;> omega
  refine ⟨hbuf ▸ hs.audioBuffer, halloc, by omega, by omega, ?_, ?_, hcopies ▸ hs.copies⟩
  · rw [hsize, hb, Option.getD_some, halloc b hb, audioDecodingBufferSize]
    omega
  · rw [hsize, hd, if_neg (Nat.succ_ne_zero _), Nat.add_sub_cancel]

/-- **The first half of the loop's body**: afterwards there are unused bytes, which are needed. -/
theorem AudioInv.nextDecoded {out : List UInt8} {d : AudioDecoder} (hI : AudioInv results out d) :
    AudioSizes results (d.nextDecoded results) ∧ 0 < (d.nextDecoded results).decoded ∧
      (d.nextDecoded results).audioBuffer = d.audioBuffer ∧
      (chunks results).Read out ⟨(d.nextDecoded results).unused, (d.nextDecoded results).decoded⟩ ∧
      ∀ n, 0 < n → (chunks results).Lazy (out ++ (d.nextDecoded results).unused.take n)
        ⟨(d.nextDecoded results).unused.drop n, (d.nextDecoded results).decoded⟩ := by
  have hs := hI.sizes
  have hread := hI.read
  have hlazy := hI.only_needed
  have hlast := hs.last
  have h0 := hs.used_nonneg
  have hle := hs.used_le
  unfold AudioDecoder.nextDecoded
  split
  next hend =>
    obtain ⟨hunused, -, -⟩ := refill_unused hs.allocated (results d.decoded)
    obtain ⟨hd, -, hbuf, -, -⟩ := refill_members d (results d.decoded)
    have hnil : d.unused = [] := List.eq_nil_of_length_eq_zero (by
      have hlen := hs.length_unused
      omega)
    rw [hnil] at hread hlazy
    refine ⟨hs.refill, by omega, hbuf, ?_, ?_⟩
    · rw [hunused, hd]
      exact hread.refill
    · intro n hn
      rw [hunused, hd]
      exact hlazy.refill_cut hread hn
  next hmore =>
    refine ⟨hs, ?_, rfl, hread, fun n _ => hlazy.cut n⟩
    by_contra hz
    rw [if_pos (by omega)] at hlast
    omega

/-- **The second half of the loop's body**: some bytes move from the unused ones to the block. -/
theorem AudioSizes.copy {d : AudioDecoder} (hs : AudioSizes results d) (hdec : 0 < d.decoded) {sizeLeft : Nat}
    (hlt : d.audioDecodedUsed < d.audioDecodedSize) (hpos : 0 < sizeLeft)
    (hleft : sizeLeft ≤ VIDEOPLAYER_AUDIO_BUFFER_SIZE) :
    ∃ e n, d.copy sizeLeft = some e ∧ d.lengthToCopy sizeLeft = (n : Nat) ∧ 0 < n ∧ n ≤ sizeLeft ∧
      AudioSizes results e ∧ e.decoded = d.decoded ∧ e.unused = d.unused.drop n ∧
      e.audioBuffer.take (VIDEOPLAYER_AUDIO_BUFFER_SIZE - (sizeLeft - n)) =
        d.audioBuffer.take (VIDEOPLAYER_AUDIO_BUFFER_SIZE - sizeLeft) ++ d.unused.take n := by
  have hbuf := hs.audioBuffer
  obtain ⟨u, hu⟩ := Int.eq_ofNat_of_zero_le hs.used_nonneg
  obtain ⟨z, hz⟩ := Int.eq_ofNat_of_zero_le (Int.le_trans hs.used_nonneg hs.used_le)
  have hsize := hs.size_le
  have hlast := hs.last
  rw [if_neg (Nat.ne_of_gt hdec)] at hlast
  have hn : d.lengthToCopy sizeLeft = (min (z - u) sizeLeft : Nat) := by
    unfold AudioDecoder.lengthToCopy
    split <;> omega
  generalize hnn : min (z - u) sizeLeft = n at hn
  have hcpy : memcpy d.audioBuffer (VIDEOPLAYER_AUDIO_BUFFER_SIZE - sizeLeft : Nat)
      (d.audioDecodingBuffer.getD []) u n = some (overwrite d.audioBuffer (VIDEOPLAYER_AUDIO_BUFFER_SIZE - sizeLeft)
        (((d.audioDecodingBuffer.getD []).drop u).take n)) := by
    apply memcpy_inside
    · omega
    · omega
  have hsrc : (((d.audioDecodingBuffer.getD []).drop u).take n).length = n := by
    rw [List.length_take, List.length_drop]
    omega
  have hunused : d.unused = ((d.audioDecodingBuffer.getD []).drop u).take (z - u) := by
    unfold AudioDecoder.unused
    rw [hu, hz, List.drop_take]
    rfl
  have hoff : (VIDEOPLAYER_AUDIO_BUFFER_SIZE : Int) - sizeLeft = (VIDEOPLAYER_AUDIO_BUFFER_SIZE - sizeLeft : Nat) := by
    omega
  have hcopy : d.copy sizeLeft = some { d with
      audioBuffer := overwrite d.audioBuffer (VIDEOPLAYER_AUDIO_BUFFER_SIZE - sizeLeft)
        (((d.audioDecodingBuffer.getD []).drop u).take n)
      audioDecodedUsed := u + n
      copies := d.copies ++ [⟨VIDEOPLAYER_AUDIO_BUFFER_SIZE - sizeLeft, u, n, d.decoded - 1⟩] } := by
    unfold AudioDecoder.copy
    dsimp only
    rw [hn, hoff, hu, hcpy, Option.map_some]
  refine ⟨_, n, hcopy, hn, by omega, by omega, ⟨?_, hs.allocated, ?_, ?_, hsize, hs.last, ?_⟩, rfl, ?_, ?_⟩
  · dsimp only
    rw [length_overwrite (by omega), hbuf]
  · dsimp only
    omega
  · dsimp only
    omega
  · intro c hc
    rcases List.mem_append.mp hc with hc | hc
    · exact hs.copies c hc
    · rw [List.mem_singleton.mp hc]
      unfold Copy.Inside
      dsimp only
      omega
  · rw [hunused]
    unfold AudioDecoder.unused
    dsimp only
    rw [hz, List.drop_take, List.drop_take, List.drop_drop, show ((u : Int) + n).toNat = u + n by omega,
      show (z : Int).toNat - (u + n) = z - u - n by omega]
  · dsimp only
    rw [show VIDEOPLAYER_AUDIO_BUFFER_SIZE - (sizeLeft - n) = VIDEOPLAYER_AUDIO_BUFFER_SIZE - sizeLeft +
      (((d.audioDecodingBuffer.getD []).drop u).take n).length by omega, take_overwrite (by omega), hunused,
      List.take_take, Nat.min_eq_left (by omega)]

/-! ## The calls -/

def FillInv (results : Nat → DecodeResult) (out : List UInt8) (d : AudioDecoder) (sizeLeft : Int) : Prop :=
  ∃ n : Nat, sizeLeft = n ∧ n ≤ VIDEOPLAYER_AUDIO_BUFFER_SIZE ∧
    AudioInv results (out ++ d.audioBuffer.take (VIDEOPLAYER_AUDIO_BUFFER_SIZE - n)) d

theorem FillInv.step {out : List UInt8} {d : AudioDecoder} {sizeLeft : Int} (h : FillInv results out d sizeLeft)
    (hpos : 0 < sizeLeft) : ∃ e, (d.nextDecoded results).copy sizeLeft = some e ∧
      FillInv results out e (sizeLeft - (d.nextDecoded results).lengthToCopy sizeLeft) := by
  obtain ⟨l, rfl, hl, hI⟩ := h
  obtain ⟨hs, hdec, hbuf, hread, hlazy⟩ := hI.nextDecoded
  have hlt := AudioDecoder.nextDecoded_used_lt results d
  obtain ⟨e, n, hcopy, hlen, hn, hnl, hs', hdec', hunused, htake⟩ := hs.copy hdec hlt (by omega) hl
  refine ⟨e, hcopy, l - n, by omega, by omega, hs', ?_, ?_⟩
  · rw [htake, hbuf, hunused, hdec', ← List.append_assoc]
    exact hread.cut n
  · rw [htake, hbuf, hunused, hdec', ← List.append_assoc]
    exact hlazy n hn

theorem AudioInv.fillInv {out : List UInt8} {d : AudioDecoder} (hI : AudioInv results out d) :
    FillInv results out d VIDEOPLAYER_AUDIO_BUFFER_SIZE := by
  refine ⟨VIDEOPLAYER_AUDIO_BUFFER_SIZE, rfl, Nat.le_refl _, ?_⟩
  rwa [Nat.sub_self, List.take_zero, List.append_nil]

/-- **A call returns and appends one block to what was read.** -/
theorem AudioInv.updateAudioBuffer {out : List UInt8} {d : AudioDecoder} (hI : AudioInv results out d) :
    ∃ e, d.updateAudioBuffer results = some e ∧ AudioInv results (out ++ e.audioBuffer) e := by
  obtain ⟨e, n, he, hn, l, hl, -, hI'⟩ := AudioDecoder.fill_induction (fun _ _ h hpos => h.step hpos) d _ hI.fillInv
  refine ⟨e, he, ?_⟩
  have hfull : e.audioBuffer.take (VIDEOPLAYER_AUDIO_BUFFER_SIZE - l) = e.audioBuffer := by
    have hlen := hI'.sizes.audioBuffer
    rw [show l = 0 by omega, Nat.sub_zero, ← hlen, List.take_length]
  rwa [hfull] at hI'

structure BlocksInv (results : Nat → DecodeResult) (bs : List (List UInt8)) (d : AudioDecoder) : Prop where
  sizes : ∀ b ∈ bs, b.length = VIDEOPLAYER_AUDIO_BUFFER_SIZE
  audio : AudioInv results bs.flatten d

theorem BlocksInv.step {bs : List (List UInt8)} {d : AudioDecoder} (h : BlocksInv results bs d) :
    ∃ e, d.updateAudioBuffer results = some e ∧ BlocksInv results (bs ++ [e.audioBuffer]) e := by
  obtain ⟨e, he, hI⟩ := h.audio.updateAudioBuffer
  refine ⟨e, he, ?_, ?_⟩
  · intro b hb
    rcases List.mem_append.mp hb with hb | hb
    · exact h.sizes b hb
    · rw [List.mem_singleton.mp hb]
      exact hI.sizes.audioBuffer
  · rw [List.flatten_append, List.flatten_singleton]
    exact hI

theorem blocksInv_loaded (secPerKbBlock : ℚ) : BlocksInv results [] (AudioDecoder.loaded secPerKbBlock) :=
  ⟨fun _ hb => absurd hb List.not_mem_nil, audioInv_loaded secPerKbBlock⟩

theorem BlocksInv.length_flatten {bs : List (List UInt8)} {d : AudioDecoder} (h : BlocksInv results bs d) :
    bs.flatten.length = bs.length * 1024 := by
  have hsizes := h.sizes
  clear h
  induction bs with
  | nil => rw [List.flatten_nil, List.length_nil, List.length_nil, Nat.zero_mul]
  | cons b bs ih =>
      have hb := hsizes b List.mem_cons_self
      have hbs := ih fun b hb => hsizes b (List.mem_cons_of_mem _ hb)
      rw [List.flatten_cons, List.length_append, hb, hbs, List.length_cons, Nat.succ_mul, Nat.add_comm]

/-- **The audio blocks are the decoded stream, re-cut**: for every sequence of results, any number of calls return, each
with a full block; the blocks are the first bytes of the results, of which enough have been decoded; the counters stay
in order and every copy stays inside the last result and the block. -/
theorem blocks_recut (results : Nat → DecodeResult) (secPerKbBlock : ℚ) (m : Nat) :
    ∃ bs d, (AudioDecoder.loaded secPerKbBlock).updates results m = some (bs, d) ∧
      bs.length = m ∧ (∀ b ∈ bs, b.length = VIDEOPLAYER_AUDIO_BUFFER_SIZE) ∧
      (∀ k, d.decoded ≤ k → bs.flatten = ((chunks results).joined k).take (m * 1024)) ∧
      m * 1024 ≤ ((chunks results).joined d.decoded).length ∧
      0 ≤ d.audioDecodedUsed ∧ d.audioDecodedUsed ≤ d.audioDecodedSize ∧ ∀ c ∈ d.copies, c.Inside results := by
  obtain ⟨bs, d, hu, hlen, hI⟩ := AudioDecoder.updates_induction (fun _ _ h => h.step)
    (blocksInv_loaded secPerKbBlock : BlocksInv results [] _) m
  have hs := hI.audio.sizes
  have hflat := hI.length_flatten
  rw [hlen] at hflat
  refine ⟨bs, d, hu, hlen, hI.sizes, ?_, ?_, hs.used_nonneg, hs.used_le, hs.copies⟩
  · intro k hk
    have htake := hI.audio.read.eq_take hk
    rwa [hflat] at htake
  · have hle := hI.audio.read.length_le
    rwa [hflat] at hle

end ArcVideo
