import ArcVideo.Conc.Pieces
import ArcVideo.Load.Input

/-!
# FFmpeg's buffer

The functions of aviobuf.c through which the demuxer reads, on the context that `loadStream` allocates: for reading,
with `readFunction` and without a `seek`, so that nothing but the bytes still in the buffer can be read again.

* `PacketSource` : a `read_packet` that gives the bytes of a file in order; `playerSource` : `readFunction`, for a
  channel that has some bytes ready at each call;
* `AVIOContext`, `avioAllocContext` : the context;
* `fillBuffer`, `avioRead`, `avioR8`, `avioSeek`, `avioFeof`, `ensureSeekback` : the operations;
* `Follows` : the buffer holds the bytes of the file before the position of the source;
* `fillBuffer_more`, `fillBuffer_end` : what `fill_buffer` does before the end of the file, and at the end.
-/

namespace ArcVideo
open Conc

def Avio.INT_MAX : Int := 2147483647
def INT64_MAX : Int := 9223372036854775807
def Avio.AVERROR_EINVAL : Int := -22
def AVERROR_EPIPE : Int := -32
def AVERROR_ENOSYS : Int := -38

def IO_BUFFER_SIZE : Nat := 32768
def CUSTOMIO_BUFFER_SIZE : Nat := 16384

/-! ## The source -/

/-- What `read_packet` returns, with the bytes it has put at the front of the buffer. -/
inductive Reply
  | eof
  | error (code : Int)
  | bytes (data : List UInt8)

def NativeReturn.reply (r : NativeReturn) : Reply :=
  match fillBuffer r.bytes with
  | .eof => .eof
  | .error code => .error code
  | .bytes len => .bytes (r.memory.take len.toNat)

/-- A `read_packet` that gives the bytes of the file in order, at least one at a time and no more than it is asked for,
and at the end of the file always the same error. -/
structure PacketSource (file : List UInt8) (σ : Type) where
  readPacket : σ → Nat → Reply × σ
  position : σ → Nat
  endCode : Int
  endCode_neg : endCode < 0
  reads : ∀ c size, 0 < size → position c < file.length → ∃ n, 0 < n ∧ n ≤ size ∧ position c + n ≤ file.length ∧
    (readPacket c size).1 = .bytes (file.extract (position c) (position c + n)) ∧
    position (readPacket c size).2 = position c + n
  ends : ∀ c size, 0 < size → file.length ≤ position c →
    (readPacket c size).1 = .error endCode ∧ position (readPacket c size).2 = position c

/-- The channel of the player: its position in the file, and the calls there were. -/
structure Channel where
  position : Nat
  calls : Nat

/-- The call of `readFunction` for `size` bytes, when `ready + 1` bytes can be read without waiting. -/
def Channel.call (file : List UInt8) (ready : Nat) (c : Channel) (size : Nat) : ReadCall where
  -- what was in the buffer does not matter
  memory := List.replicate size 0
  attached := true
  reader := .readFileContents
    (if file.length ≤ c.position then .endOfStream
     else .bytes (min (ready + 1) (min size (file.length - c.position))))
  unspecified := 0

section
variable {file : List UInt8} {ready size : Nat} {c : Channel}

theorem Channel.call_possible (hsize : 0 < size) : (c.call file ready size).possible file c.position = true := by
  unfold ReadCall.possible ReadCall.bufferSize Channel.call
  simp only [List.length_replicate]
  by_cases hend : file.length ≤ c.position
  · simp [hend, hsize, ChannelRead.possible]
  · simp only [hend, hsize, if_false, ChannelRead.possible, ByteBuffer.remaining, List.length_replicate,
      Bool.and_eq_true, decide_eq_true_eq, true_and]
    omega

theorem Channel.reads (hsize : 0 < size) (hp : c.position < file.length) :
    ∃ n, 0 < n ∧ n ≤ size ∧ c.position + n ≤ file.length ∧
      (readFunction file c.position (c.call file ready size)).reply =
        .bytes (file.extract c.position (c.position + n)) ∧
      (readFunction file c.position (c.call file ready size)).position = c.position + n := by
  have hreader : (c.call file ready size).reader =
      .readFileContents (.bytes (min (ready + 1) (min size (file.length - c.position)))) := by
    unfold Channel.call
    simp only [if_neg (Nat.not_le.mpr hp)]
  obtain ⟨hone, -, hfile, hread⟩ := readFunction_bytes (s := ⟨c.position, []⟩) rfl hreader (Channel.call_possible hsize)
  refine ⟨_, hone, by omega, hfile, ?_, by rw [hread]⟩
  rw [hread, NativeReturn.reply, fillBuffer_of_nonneg (Int.natCast_nonneg _)]
  have hlen : ∀ n, n ≤ file.length - c.position → ((file.drop c.position).take n).length = n := by
    intro n hn
    rw [List.length_take, List.length_drop]
    omega
  simp only [Int.toNat_natCast]
  rw [List.take_left' (hlen _ (by omega)), List.extract_eq_take_drop, Nat.add_sub_cancel_left]

theorem Channel.ends (hp : file.length ≤ c.position) :
    (readFunction file c.position (c.call file ready size)).reply = .error (-1) ∧
      (readFunction file c.position (c.call file ready size)).position = c.position := by
  unfold readFunction ffmpegFillBuffer Channel.call
  simp only [if_pos hp]
  exact ⟨rfl, rfl⟩

end

/-- **The source of the player**: `readFunction`, on a channel that has `ready k + 1` bytes at call number `k`. -/
def playerSource (file : List UInt8) (ready : Nat → Nat) : PacketSource file Channel where
  readPacket c size :=
    let r := readFunction file c.position (c.call file (ready c.calls) size)
    (r.reply, ⟨r.position, c.calls + 1⟩)
  position := Channel.position
  endCode := -1
  endCode_neg := by decide
  reads _ _ hsize hp := Channel.reads hsize hp
  ends _ _ _ hp := Channel.ends hp

/-! ## The context -/

/-- A context for reading: `write_flag`, `direct`, `max_packet_size` and `seekable` are 0, `seek` and `update_checksum`
are NULL. -/
structure AVIOContext (σ : Type) where
  source : σ
  /-- The bytes from `buffer` to `buf_end`. -/
  buffer : List UInt8
  bufferSize : Nat
  /-- `buf_ptr - buffer`. -/
  bufPtr : Nat
  pos : Nat
  eofReached : Bool
  error : Int
  origBufferSize : Nat

def avioAllocContext {σ : Type} (bufferSize : Nat) (source : σ) : AVIOContext σ where
  source := source
  buffer := []
  bufferSize := bufferSize
  bufPtr := 0
  pos := 0
  eofReached := false
  error := 0
  origBufferSize := bufferSize

namespace AVIOContext

variable {σ : Type} {file : List UInt8} (S : PacketSource file σ)

def bufEnd (s : AVIOContext σ) : Nat := s.buffer.length

/-- The position in the file of the beginning of the buffer. -/
def start (s : AVIOContext σ) : Nat := s.pos - s.bufEnd

def avioTell (s : AVIOContext σ) : Nat := s.start + s.bufPtr

def setBufSize (s : AVIOContext σ) (bufSize : Nat) : AVIOContext σ :=
  { s with buffer := [], bufPtr := 0, bufferSize := bufSize, origBufferSize := bufSize }

/-- What `fill_buffer` does before it reads: the context, and where and how much it reads. -/
def prepare (s : AVIOContext σ) : AVIOContext σ × Nat × Nat :=
  let dst := if s.bufEnd + IO_BUFFER_SIZE ≤ s.bufferSize then s.bufEnd else 0
  let len := s.bufferSize - dst
  -- make buffer smaller in case it ended up large after probing
  if s.origBufferSize ≠ 0 ∧ s.origBufferSize < s.bufferSize ∧ s.origBufferSize ≤ len then
    (if dst = 0 ∧ s.bufPtr ≠ dst then s.setBufSize s.origBufferSize else s, dst, s.origBufferSize)
  else (s, dst, len)

def fillBuffer (s : AVIOContext σ) : AVIOContext σ :=
  if s.eofReached then s
  else
    let (s, dst, len) := s.prepare
    match S.readPacket s.source len with
    | (.eof, source) => { s with source := source, eofReached := true }
    | (.error code, source) => { s with source := source, eofReached := true, error := code }
    | (.bytes data, source) =>
      { s with source := source, pos := s.pos + data.length, bufPtr := dst, buffer := s.buffer.take dst ++ data }

/-- The loop of `avio_read`: the bytes copied so far are `buf`, and `size` more are wanted. -/
def readLoop : Nat → AVIOContext σ → Nat → List UInt8 → Option (AVIOContext σ × List UInt8)
  | 0, _, _, _ => none
  | fuel + 1, s, size, buf =>
    if size = 0 then some (s, buf)
    else
      let len := min (s.bufEnd - s.bufPtr) size
      if len = 0 then
        if s.bufferSize < size then
          -- bypass the buffer and read data directly into buf
          match S.readPacket s.source size with
          | (.eof, source) => some ({ s with source := source, eofReached := true }, buf)
          | (.error code, source) => some ({ s with source := source, eofReached := true, error := code }, buf)
          | (.bytes data, source) =>
            readLoop fuel { s with source := source, pos := s.pos + data.length, bufPtr := 0, buffer := [] }
              (size - data.length) (buf ++ data)
        else
          let s := s.fillBuffer S
          if s.bufEnd - s.bufPtr = 0 then some (s, buf) else readLoop fuel s size buf
      else
        readLoop fuel { s with bufPtr := s.bufPtr + len } (size - len) (buf ++ (s.buffer.drop s.bufPtr).take len)

def avioFeof (s : AVIOContext σ) : Bool × AVIOContext σ :=
  let s := if s.eofReached then fillBuffer S { s with eofReached := false } else s
  (s.eofReached, s)

/-- What `avio_read` returns, and the bytes in the caller's buffer. -/
def avioRead (s : AVIOContext σ) (size : Nat) : Option ((Int × List UInt8) × AVIOContext σ) :=
  (s.readLoop S (2 * size + 2) size []).map fun (s, buf) =>
    if buf.length = 0 then
      if s.error ≠ 0 then ((s.error, buf), s)
      else
        let (eof, s) := s.avioFeof S
        ((if eof then AVERROR_EOF else 0, buf), s)
    else ((buf.length, buf), s)

def avioR8 (s : AVIOContext σ) : UInt8 × AVIOContext σ :=
  let s := if s.bufEnd ≤ s.bufPtr then s.fillBuffer S else s
  if s.bufPtr < s.bufEnd then (s.buffer.getD s.bufPtr 0, { s with bufPtr := s.bufPtr + 1 }) else (0, s)

/-- The loop of `avio_seek`. -/
def fillTo : Nat → AVIOContext σ → Nat → Option (AVIOContext σ)
  | 0, _, _ => none
  | fuel + 1, s, offset =>
    if s.pos < offset ∧ s.eofReached = false then fillTo fuel (s.fillBuffer S) offset else some s

/-- `avio_seek` from where the offset is known. -/
def seekTo (s : AVIOContext σ) (offset : Int) : Option (Int × AVIOContext σ) :=
  if offset < 0 then some (Avio.AVERROR_EINVAL, s)
  else
    let offset1 := offset - s.start
    if 0 ≤ offset1 ∧ offset1 ≤ s.bufEnd then
      -- can do the seek inside the buffer
      some (offset, { s with bufPtr := offset1.toNat, eofReached := false })
    else if 0 ≤ offset1 then
      (s.fillTo S (offset.toNat - s.pos + 2) offset.toNat).map fun s =>
        if s.eofReached then (AVERROR_EOF, s)
        else (offset, { s with bufPtr := s.bufEnd - (s.pos - offset.toNat), eofReached := false })
    else
      -- there is no `seek`
      some (AVERROR_EPIPE, s)

end AVIOContext

/-- From where an offset counts; `size` is `AVSEEK_SIZE`. -/
inductive Whence
  | set
  | cur
  | fromEnd
  | size
  deriving DecidableEq

namespace AVIOContext

variable {σ : Type} {file : List UInt8} (S : PacketSource file σ)

def avioSeek (s : AVIOContext σ) (offset : Int) : Whence → Option (Int × AVIOContext σ)
  | .size => some (AVERROR_ENOSYS, s)
  | .fromEnd => some (Avio.AVERROR_EINVAL, s)
  | .cur =>
    if offset = 0 then some (s.avioTell, s)
    else if INT64_MAX - s.avioTell < offset then some (Avio.AVERROR_EINVAL, s)
    else s.seekTo S (offset + s.avioTell)
  | .set => s.seekTo S offset

/-- `ffio_ensure_seekback`; memory can be allocated. -/
def ensureSeekback (s : AVIOContext σ) (bufSize : Int) : Int × AVIOContext σ :=
  let filled := s.bufEnd - s.bufPtr
  if bufSize ≤ filled then (0, s)
  else if Avio.INT_MAX - IO_BUFFER_SIZE < bufSize then (Avio.AVERROR_EINVAL, s)
  else
    let bufSize := bufSize.toNat + IO_BUFFER_SIZE - 1
    if bufSize + s.bufPtr ≤ s.bufferSize then (0, s)
    else
      let s := { s with buffer := s.buffer.drop s.bufPtr, bufPtr := 0 }
      if bufSize ≤ s.bufferSize then (0, s) else (0, { s with bufferSize := bufSize })

/-! ## What the buffer holds -/

/-- The buffer holds the bytes of the file before the position of the source. -/
structure Follows (s : AVIOContext σ) : Prop where
  ptr : s.bufPtr ≤ s.bufEnd
  fits : s.bufEnd ≤ s.bufferSize
  orig_pos : 0 < s.origBufferSize
  orig_le : s.origBufferSize ≤ s.bufferSize
  source : S.position s.source = s.pos
  pos_le : s.pos ≤ file.length
  bufEnd_le : s.bufEnd ≤ s.pos
  window : s.buffer = file.extract s.start s.pos
  ended : s.eofReached = true → s.pos = file.length ∧ s.error = S.endCode
  error : s.error = 0 ∨ s.error = S.endCode

variable {S} {s : AVIOContext σ}

theorem follows_alloc {source : σ} (h : S.position source = 0) {bufferSize : Nat} (hsize : 0 < bufferSize) :
    Follows S (avioAllocContext bufferSize source) where
  ptr := Nat.le_refl _
  fits := Nat.zero_le _
  orig_pos := hsize
  orig_le := Nat.le_refl _
  source := h
  pos_le := Nat.zero_le _
  bufEnd_le := Nat.le_refl _
  window := rfl
  ended := fun he => absurd he Bool.false_ne_true
  error := Or.inl rfl

namespace Follows

theorem start_add (h : Follows S s) : s.start + s.bufEnd = s.pos := by
  have hle := h.bufEnd_le
  unfold start
  omega

theorem tell_le (h : Follows S s) : s.avioTell ≤ s.pos := by
  have hstart := h.start_add
  have hptr := h.ptr
  unfold avioTell
  omega

theorem tell_add (h : Follows S s) : s.avioTell + (s.bufEnd - s.bufPtr) = s.pos := by
  have hstart := h.start_add
  have hptr := h.ptr
  unfold avioTell
  omega

theorem eofReached_of_lt (h : Follows S s) (hp : s.pos < file.length) : s.eofReached = false := by
  by_contra he
  have hend := (h.ended (Bool.not_eq_false _ ▸ he)).1
  omega

theorem unread (h : Follows S s) : s.buffer.drop s.bufPtr = file.extract s.avioTell s.pos := by
  rw [h.window, drop_extract]
  rfl

theorem move (h : Follows S s) {ptr : Nat} (hptr : ptr ≤ s.bufEnd) : Follows S { s with bufPtr := ptr } :=
  { h with ptr := hptr }

theorem clear (h : Follows S s) : Follows S { s with eofReached := false } :=
  { h with ended := fun he => absurd he Bool.false_ne_true }

theorem setBufSize (h : Follows S s) (hended : s.eofReached = false) : Follows S (s.setBufSize s.origBufferSize) where
  ptr := Nat.le_refl _
  fits := Nat.zero_le _
  orig_pos := h.orig_pos
  orig_le := Nat.le_refl _
  source := h.source
  pos_le := h.pos_le
  bufEnd_le := Nat.zero_le _
  window := (extract_of_le (Nat.le_refl _)).symm
  ended := fun he => absurd (hended.symm.trans he) Bool.false_ne_true
  error := h.error

end Follows

/-! ## `fill_buffer` -/

/-- There is room behind the buffer for another read. -/
def Room (s : AVIOContext σ) : Prop := s.bufEnd + IO_BUFFER_SIZE ≤ s.bufferSize

structure Prepared (S : PacketSource file σ) (s t : AVIOContext σ) (dst len : Nat) : Prop where
  follows : Follows S t
  ended : t.eofReached = false
  len_pos : 0 < len
  fits : dst + len ≤ t.bufferSize
  place : dst = 0 ∨ dst = t.bufEnd
  same : t = s ∨ ¬s.Room ∧ t = s.setBufSize s.origBufferSize
  room : s.Room → dst = s.bufEnd

theorem prepare_eq (h : Follows S s) (hended : s.eofReached = false) :
    ∃ t dst len, s.prepare = (t, dst, len) ∧ Prepared S s t dst len := by
  have hpos := h.orig_pos
  have hle := h.orig_le
  by_cases hroom : s.bufEnd + IO_BUFFER_SIZE ≤ s.bufferSize
  · -- behind the bytes that are there; the buffer is given up only where it is empty, and then it need not be
    have hptr := h.ptr
    have hkeep : ∃ len, s.prepare = (s, s.bufEnd, len) ∧ 0 < len ∧ s.bufEnd + len ≤ s.bufferSize := by
      unfold prepare
      simp only [if_pos hroom]
      unfold IO_BUFFER_SIZE at hroom
      split
      next hlarge =>
        rw [if_neg (by omega)]
        exact ⟨_, rfl, hpos, by omega⟩
      next => exact ⟨_, rfl, by omega, by omega⟩
    obtain ⟨len, heq, hlen, hsize⟩ := hkeep
    exact ⟨s, s.bufEnd, len, heq, h, hended, hlen, hsize, Or.inr rfl, Or.inl rfl, fun _ => rfl⟩
  · unfold prepare
    simp only [if_neg hroom, Nat.sub_zero, true_and]
    split
    next hlarge =>
      split
      next =>
        refine ⟨_, _, _, rfl, h.setBufSize hended, hended, hpos, ?_, Or.inl rfl, Or.inr ⟨hroom, rfl⟩,
          fun hr => absurd hr hroom⟩
        exact (Nat.zero_add _).le
      next =>
        refine ⟨_, _, _, rfl, h, hended, hpos, ?_, Or.inl rfl, Or.inl rfl, fun hr => absurd hr hroom⟩
        exact (Nat.zero_add _).trans_le hle
    next =>
      refine ⟨_, _, _, rfl, h, hended, hpos.trans_le hle, ?_, Or.inl rfl, Or.inl rfl, fun hr => absurd hr hroom⟩
      exact (Nat.zero_add _).le

section
variable {t : AVIOContext σ} {dst len : Nat}

theorem Prepared.pos (h : Prepared S s t dst len) : t.pos = s.pos := by
  rcases h.same with rfl | ⟨-, rfl⟩ <;> rfl

theorem Prepared.error (h : Prepared S s t dst len) : t.error = s.error := by
  rcases h.same with rfl | ⟨-, rfl⟩ <;> rfl

theorem Prepared.start_le (h : Prepared S s t dst len) : s.start ≤ t.start := by
  rcases h.same with rfl | ⟨-, rfl⟩
  · exact Nat.le_refl _
  · exact Nat.sub_le _ _

/-- The context after `data` was read to the place `dst` of the buffer. -/
def filled (t : AVIOContext σ) (source : σ) (dst : Nat) (data : List UInt8) : AVIOContext σ :=
  { t with source := source, pos := t.pos + data.length, bufPtr := dst, buffer := t.buffer.take dst ++ data }

theorem fillBuffer_bytes {data : List UInt8} {source : σ} (hended : s.eofReached = false)
    (hq : s.prepare = (t, dst, len)) (hread : S.readPacket t.source len = (.bytes data, source)) :
    s.fillBuffer S = t.filled source dst data := by
  unfold fillBuffer
  rw [if_neg (by rw [hended]; exact Bool.false_ne_true), hq]
  dsimp only
  rw [hread]
  rfl

theorem fillBuffer_error {code : Int} {source : σ} (hended : s.eofReached = false)
    (hq : s.prepare = (t, dst, len)) (hread : S.readPacket t.source len = (.error code, source)) :
    s.fillBuffer S = { t with source := source, eofReached := true, error := code } := by
  unfold fillBuffer
  rw [if_neg (by rw [hended]; exact Bool.false_ne_true), hq]
  dsimp only
  rw [hread]

theorem bufEnd_filled (source : σ) {data : List UInt8} (hdst : dst ≤ t.bufEnd) :
    (t.filled source dst data).bufEnd = dst + data.length := by
  have htake : (t.buffer.take dst).length = dst := by
    rw [List.length_take]
    exact Nat.min_eq_left hdst
  unfold filled bufEnd
  rw [List.length_append, htake]

theorem start_filled (source : σ) (data : List UInt8) (hdst : dst ≤ t.bufEnd) :
    (t.filled source dst data).start = t.pos - dst := by
  unfold start
  rw [bufEnd_filled source hdst]
  unfold filled
  dsimp only
  omega

/-- The next bytes of the file are read, behind those that are there or in their place. -/
theorem Follows.filled (h : Follows S t) (hended : t.eofReached = false) (hplace : dst = 0 ∨ dst = t.bufEnd) {n : Nat}
    {source : σ} (hfits : dst + n ≤ t.bufferSize) (hn : t.pos + n ≤ file.length)
    (hsource : S.position source = t.pos + n) :
    Follows S (t.filled source dst (file.extract t.pos (t.pos + n))) := by
  have hdst : dst ≤ t.bufEnd := by omega
  have hbuf := h.bufEnd_le
  have hdata : (file.extract t.pos (t.pos + n)).length = n := by
    rw [length_extract]
    omega
  have hpos : (t.filled source dst (file.extract t.pos (t.pos + n))).pos = t.pos + n := congrArg _ hdata
  have hwindow : t.buffer.take dst = file.extract (t.pos - dst) t.pos := by
    rcases hplace with rfl | rfl
    · rw [List.take_zero, Nat.sub_zero, extract_of_le (Nat.le_refl _)]
    · exact (List.take_of_length_le (Nat.le_refl _)).trans h.window
  constructor
  · rw [bufEnd_filled source hdst]
    exact Nat.le_add_right _ _
  · rw [bufEnd_filled source hdst, hdata]
    exact hfits
  · exact h.orig_pos
  · exact h.orig_le
  · exact hsource.trans hpos.symm
  · rw [hpos]
    exact hn
  · rw [bufEnd_filled source hdst, hdata, hpos]
    omega
  · rw [start_filled source _ hdst, hpos, ← extract_append _ (Nat.sub_le _ _) (Nat.le_add_right _ _), ← hwindow]
    rfl
  · exact fun he => absurd (hended.symm.trans he) Bool.false_ne_true
  · exact h.error

end

/-- What `fill_buffer` leaves before the end of the file: `n` bytes more, the next one the one after those there were.
With room behind the buffer nothing is dropped. -/
structure Filled (S : PacketSource file σ) (s t : AVIOContext σ) (n : Nat) : Prop where
  more : 0 < n
  follows : Follows S t
  pos : t.pos = s.pos + n
  tell : t.avioTell = s.pos
  ended : t.eofReached = false
  error : t.error = s.error
  unread : t.bufPtr < t.bufEnd
  start_le : s.start ≤ t.start
  room : s.Room → t.start = s.start ∧ t.bufferSize = s.bufferSize

/-- **Before the end of the file** `fill_buffer` reads some bytes. -/
theorem fillBuffer_more (h : Follows S s) (hp : s.pos < file.length) : ∃ n, Filled S s (s.fillBuffer S) n := by
  have hended := h.eofReached_of_lt hp
  obtain ⟨t, dst, len, hq, hprep⟩ := prepare_eq h hended
  have ht := hprep.follows
  have hpos := hprep.pos
  obtain ⟨n, hn, hnlen, hnfile, hread, hsource⟩ :=
    S.reads t.source len hprep.len_pos (by rw [ht.source, hpos]; exact hp)
  rw [ht.source] at hnfile hread hsource
  have hfill := fillBuffer_bytes hended hq (Prod.ext hread rfl)
  have hplace := hprep.place
  have hfits := hprep.fits
  have hbuf := ht.bufEnd_le
  have hadd := ht.start_add
  have hstart_le := hprep.start_le
  have hdst : dst ≤ t.bufEnd := by omega
  have hdata : (file.extract t.pos (t.pos + n)).length = n := by
    rw [length_extract]
    omega
  have hstart := start_filled (S.readPacket t.source len).2 (file.extract t.pos (t.pos + n)) hdst
  refine ⟨n, ?_⟩
  rw [hfill]
  constructor
  · exact hn
  · exact ht.filled hprep.ended hplace (by omega) hnfile hsource
  · rw [← hpos]
    exact congrArg _ hdata
  · unfold avioTell
    rw [hstart, ← hpos]
    exact Nat.sub_add_cancel (hdst.trans hbuf)
  · exact hprep.ended
  · exact hprep.error
  · rw [bufEnd_filled _ hdst, hdata]
    exact Nat.lt_add_of_pos_right hn
  · rw [hstart]
    omega
  · intro hroom
    obtain rfl := hprep.same.resolve_right fun hset => hset.1 hroom
    rw [hstart, hprep.room hroom]
    exact ⟨rfl, rfl⟩

/-- What `fill_buffer` leaves at the end of the file: without room behind it, the buffer may have been given up. -/
structure FoundEnd (S : PacketSource file σ) (s t : AVIOContext σ) : Prop where
  follows : Follows S t
  pos : t.pos = s.pos
  ended : t.eofReached = true
  same : t.start = s.start ∧ t.avioTell = s.avioTell ∧ t.bufferSize = s.bufferSize ∨
    ¬s.Room ∧ t.start = s.pos ∧ t.avioTell = s.pos

/-- **At the end of the file** `fill_buffer` finds it. -/
theorem fillBuffer_end (h : Follows S s) (hp : file.length ≤ s.pos) : FoundEnd S s (s.fillBuffer S) := by
  by_cases hended : s.eofReached = true
  · have hfill : s.fillBuffer S = s := by
      unfold fillBuffer
      rw [if_pos hended]
    rw [hfill]
    exact ⟨h, rfl, hended, Or.inl ⟨rfl, rfl, rfl⟩⟩
  rw [Bool.not_eq_true] at hended
  obtain ⟨t, dst, len, hq, hprep⟩ := prepare_eq h hended
  have ht := hprep.follows
  have hpos := hprep.pos
  obtain ⟨hread, hsource⟩ := S.ends t.source len hprep.len_pos (by rw [ht.source, hpos]; exact hp)
  rw [fillBuffer_error hended hq (Prod.ext hread rfl)]
  have hlast : t.pos = file.length := Nat.le_antisymm ht.pos_le (by rw [hpos]; exact hp)
  refine ⟨?_, hpos, rfl, ?_⟩
  · exact { ht with
      source := hsource.trans ht.source
      ended := fun _ => ⟨hlast, rfl⟩
      error := Or.inr rfl }
  · rcases hprep.same with rfl | ⟨hroom, rfl⟩
    · exact Or.inl ⟨rfl, rfl, rfl⟩
    · exact Or.inr ⟨hroom, rfl, rfl⟩

theorem FoundEnd.tell_le {t : AVIOContext σ} (h : FoundEnd S s t) (hs : Follows S s) : s.avioTell ≤ t.avioTell := by
  have hle := hs.tell_le
  rcases h.same with ⟨-, htell, -⟩ | ⟨-, -, htell⟩ <;> omega

theorem FoundEnd.start_le {t : AVIOContext σ} (h : FoundEnd S s t) (hs : Follows S s) : s.start ≤ t.start := by
  have hadd := hs.start_add
  rcases h.same with ⟨hstart, -⟩ | ⟨-, hstart, -⟩ <;> omega

end AVIOContext

end ArcVideo
