import ArcVideo.Conc.System

/-!
# The input

`readFunction`, by which FFmpeg reads a stream: `ffmpegFillBuffer` calls `fillBuffer` of the reader that `loadStream`
was given, which for the player is `readFileContents`.

* `ByteBuffer`, `ChannelRead`, `readFileContents` : a read of the channel into the buffer;
* `VideoFileReader`, `ReadCall`, `ffmpegFillBuffer` : the call of the reader, and what it returns while an exception is
  pending;
* `Told`, `fillBuffer` : what FFmpeg makes of the result;
* `input` : the calls one after another, with the bytes accepted;
* `ToldTruly` : a call tells FFmpeg the truth about the file;
* `told_truly_iff` : every call does if and only if every call finds bytes. Then the bytes accepted are a prefix of the
  file.
-/

namespace ArcVideo
open Conc

/-! ## The reader -/

/-- A direct byte buffer over some memory; its limit is its capacity. -/
structure ByteBuffer where
  memory : List UInt8
  position : Nat

namespace ByteBuffer

def rewind (b : ByteBuffer) : ByteBuffer := { b with position := 0 }

def remaining (b : ByteBuffer) : Nat := b.memory.length - b.position

def put (b : ByteBuffer) (bytes : List UInt8) : ByteBuffer where
  memory := b.memory.take b.position ++ bytes ++ b.memory.drop (b.position + bytes.length)
  position := b.position + bytes.length

end ByteBuffer

/-- How a read of the channel goes. -/
inductive ChannelRead
  /-- As many bytes are there: any number that the buffer and the file have. -/
  | bytes (n : Nat)
  | endOfStream
  /-- After so many bytes. -/
  | ioException (n : Nat)

/-- A channel of a stream waits until there is a byte, and ends with the file. -/
def ChannelRead.possible (file : List UInt8) (position : Nat) (buffer : ByteBuffer) : ChannelRead → Bool
  | .bytes n => decide (1 ≤ n) && decide (n ≤ buffer.remaining) && decide (position + n ≤ file.length)
  | .endOfStream => decide (file.length ≤ position)
  | .ioException n => decide (n ≤ buffer.remaining) && decide (position + n ≤ file.length)

/-- How a call in Java ends: with a result or an exception, the buffer, and the position in the file. -/
structure JavaReturn where
  result : Option Int
  buffer : ByteBuffer
  position : Nat

def readFileContents (file : List UInt8) (position : Nat) (buffer : ByteBuffer) (read : ChannelRead) : JavaReturn :=
  let buffer := buffer.rewind
  match read with
  | .bytes n => ⟨some n, buffer.put ((file.drop position).take n), position + n⟩
  | .endOfStream => ⟨some (-1), buffer, position⟩
  -- `throw new RuntimeException(e)`
  | .ioException n => ⟨none, buffer.put ((file.drop position).take n), position + n⟩

/-- A reader: that of the player, or one that throws or returns a count that no buffer can have. -/
inductive VideoFileReader
  | readFileContents (read : ChannelRead)
  | misbehaves (result : Option Int) (memory : List UInt8)

def VideoFileReader.fillBuffer (file : List UInt8) (position : Nat) (buffer : ByteBuffer) : VideoFileReader → JavaReturn
  | .readFileContents read => ArcVideo.readFileContents file position buffer read
  | .misbehaves result memory => ⟨result, { buffer with memory := memory }, position⟩

structure ReadCall where
  /-- The buffer of FFmpeg, of `bufferSize` bytes. -/
  memory : List UInt8
  /-- `attachThread` returns an environment. -/
  attached : Bool
  reader : VideoFileReader
  /-- What `CallIntMethod` returns when the method throws. -/
  unspecified : Int

def ReadCall.bufferSize (c : ReadCall) : Nat := c.memory.length

def ReadCall.possible (file : List UInt8) (position : Nat) (c : ReadCall) : Bool :=
  decide (0 < c.bufferSize) &&
    match c.reader with
    | .readFileContents read => read.possible file position ⟨c.memory, 0⟩
    | .misbehaves none memory => decide (memory.length = c.bufferSize)
    | .misbehaves (some n) memory =>
      decide (memory.length = c.bufferSize) && (decide (n = 0) || decide ((c.bufferSize : Int) < n))

/-- What `ffmpegFillBuffer` leaves; `specified` is whether its result is one that was returned to it. -/
structure NativeReturn where
  bytes : Int
  specified : Bool
  memory : List UInt8
  position : Nat

def ffmpegFillBuffer (file : List UInt8) (position : Nat) (c : ReadCall) : NativeReturn :=
  if !c.attached then ⟨0, true, c.memory, position⟩
  else
    let r := c.reader.fillBuffer file position ⟨c.memory, 0⟩
    -- an exception is described, and the result is returned all the same
    ⟨r.result.getD c.unspecified, r.result.isSome, r.buffer.memory, r.position⟩

/-- `getFillBufferFunc()` is `ffmpegFillBuffer`. -/
def readFunction (file : List UInt8) (position : Nat) (c : ReadCall) : NativeReturn := ffmpegFillBuffer file position c

/-! ## What FFmpeg is told -/

def AVERROR_EOF : Int := -541478725

inductive Told
  | eof
  | error (code : Int)
  | bytes (len : Int)
  deriving DecidableEq

/-- `fill_buffer` of aviobuf.c, on the result of `read_packet`. -/
def fillBuffer (len : Int) : Told :=
  if len = AVERROR_EOF then .eof else if len < 0 then .error len else .bytes len

/-- The position of the channel in the file, and the bytes FFmpeg has accepted. -/
structure InputState where
  position : Nat
  accepted : List UInt8

def InputState.read (file : List UInt8) (s : InputState) (c : ReadCall) : InputState :=
  let r := readFunction file s.position c
  { position := r.position
    accepted :=
      match fillBuffer r.bytes with
      | .bytes len => s.accepted ++ r.memory.take len.toNat
      | .eof | .error _ => s.accepted }

/-- **The calls of `readFunction`** on a file. -/
def input (file : List UInt8) : System InputState ReadCall where
  init s := s = ⟨0, []⟩
  step s c := if c.possible file s.position then some (s.read file c) else none

namespace ReadCall

def delivers (c : ReadCall) : Bool :=
  c.attached &&
    match c.reader with
    | .readFileContents (.bytes _) => true
    | _ => false

def failed (c : ReadCall) : Bool :=
  !c.attached ||
    match c.reader with
    | .readFileContents (.ioException _) => true
    | .readFileContents _ => false
    | .misbehaves _ _ => true

end ReadCall

/-- The result of a call is a count of the next bytes of the file, which are in the buffer, or the end of the file, or
an error. -/
structure ToldTruly (file : List UInt8) (s : InputState) (c : ReadCall) : Prop where
  specified : (readFunction file s.position c).specified = true
  bytes : ∀ len, fillBuffer (readFunction file s.position c).bytes = .bytes len →
    1 ≤ len ∧ len ≤ c.bufferSize ∧ s.accepted.length + len.toNat ≤ file.length ∧
      (readFunction file s.position c).memory.take len.toNat = (file.drop s.accepted.length).take len.toNat
  eof : fillBuffer (readFunction file s.position c).bytes = .eof ↔ c.failed = false ∧ file.length ≤ s.position
  error : (∃ code, fillBuffer (readFunction file s.position c).bytes = .error code) ↔ c.failed = true

structure InputState.Contiguous (file : List UInt8) (s : InputState) : Prop where
  position : s.position ≤ file.length
  accepted : s.accepted = file.take s.position

/-! ## One call -/

theorem fillBuffer_of_nonneg {len : Int} (h : 0 ≤ len) : fillBuffer len = .bytes len := by
  unfold fillBuffer AVERROR_EOF
  rw [if_neg (by omega), if_neg (by omega)]

section
variable {file : List UInt8} {s : InputState} {c : ReadCall}

theorem readFunction_bytes {n : Nat} (hattached : c.attached = true) (hreader : c.reader = .readFileContents (.bytes n))
    (hp : c.possible file s.position = true) :
    1 ≤ n ∧ n ≤ c.bufferSize ∧ s.position + n ≤ file.length ∧ readFunction file s.position c =
      ⟨n, true, (file.drop s.position).take n ++ c.memory.drop n, s.position + n⟩ := by
  unfold ReadCall.possible at hp
  rw [hreader] at hp
  simp only [ChannelRead.possible, ByteBuffer.remaining, Nat.sub_zero, Bool.and_eq_true] at hp
  obtain ⟨-, ⟨hone, hbuffer⟩, hfile⟩ := hp
  have hfile := of_decide_eq_true hfile
  have hlen : ((file.drop s.position).take n).length = n := by
    rw [List.length_take, List.length_drop]
    omega
  refine ⟨of_decide_eq_true hone, of_decide_eq_true hbuffer, hfile, ?_⟩
  unfold readFunction ffmpegFillBuffer
  rw [if_neg (by rw [hattached]; decide), hreader]
  simp only [VideoFileReader.fillBuffer, readFileContents, ByteBuffer.rewind, ByteBuffer.put, hlen, Nat.zero_add,
    List.take_zero, List.nil_append]
  rfl

/-- **A call that finds bytes tells the truth**, and the bytes accepted go on where they were. -/
theorem toldTruly_of_delivers (hs : s.Contiguous file) (hp : c.possible file s.position = true)
    (hd : c.delivers = true) : ToldTruly file s c ∧ (s.read file c).Contiguous file := by
  obtain ⟨n, hattached, hreader⟩ : ∃ n, c.attached = true ∧ c.reader = .readFileContents (.bytes n) := by
    unfold ReadCall.delivers at hd
    obtain ⟨hattached, hreader⟩ := Bool.and_eq_true_iff.mp hd
    split at hreader
    next n hn => exact ⟨n, hattached, hn⟩
    next => cases hreader
  obtain ⟨hone, hbuffer, hfile, hread⟩ := readFunction_bytes hattached hreader hp
  have hfailed : c.failed = false := by
    unfold ReadCall.failed
    rw [hattached, hreader]
    rfl
  have htold : fillBuffer (n : Int) = .bytes n := fillBuffer_of_nonneg (Int.natCast_nonneg n)
  have haccepted : s.accepted.length = s.position := by
    rw [hs.accepted, List.length_take, Nat.min_eq_left hs.position]
  have htake : ((file.drop s.position).take n ++ c.memory.drop n).take n = (file.drop s.position).take n := by
    refine List.take_left' ?_
    rw [List.length_take, List.length_drop]
    omega
  constructor
  · refine ⟨by rw [hread], ?_, ?_, ?_⟩
    · intro len hlen
      rw [hread, htold] at hlen
      obtain rfl : (n : Int) = len := Told.bytes.inj hlen
      rw [hread, haccepted, Int.toNat_natCast]
      exact ⟨by omega, by omega, hfile, htake⟩
    · rw [hread, htold]
      exact ⟨fun h => absurd h (by simp), fun h => absurd h.2 (by omega)⟩
    · rw [hread, htold, hfailed]
      simp
  · have hstep : s.read file c = ⟨s.position + n, s.accepted ++ (file.drop s.position).take n⟩ := by
      unfold InputState.read
      rw [hread]
      simp only [htold, Int.toNat_natCast, htake]
    rw [hstep]
    refine ⟨hfile, ?_⟩
    rw [hs.accepted, List.take_add]

/-- **Only a call that finds bytes tells the truth.** -/
theorem delivers_of_toldTruly (hp : c.possible file s.position = true) (ht : ToldTruly file s c) :
    c.delivers = true := by
  obtain ⟨memory, attached, reader, unspecified⟩ := c
  cases attached with
  | false =>
      -- 0 bytes are no bytes
      have h := (ht.bytes 0 rfl).1
      omega
  | true =>
      cases reader with
      | readFileContents read =>
          cases read with
          | bytes n => rfl
          | endOfStream =>
              -- -1 is the code of another error
              have h := ht.error.mp ⟨-1, rfl⟩
              exact absurd h (by simp [ReadCall.failed])
          | ioException n =>
              have h := ht.specified
              exact absurd h (by simp [readFunction, ffmpegFillBuffer, VideoFileReader.fillBuffer, readFileContents])
      | misbehaves result after =>
          cases result with
          | none =>
              have h := ht.specified
              exact absurd h (by simp [readFunction, ffmpegFillBuffer, VideoFileReader.fillBuffer])
          | some n =>
              unfold ReadCall.possible at hp
              simp only [Bool.and_eq_true, Bool.or_eq_true, decide_eq_true_eq] at hp
              have htold : fillBuffer n = .bytes n := fillBuffer_of_nonneg (by omega)
              have h := ht.bytes n htold
              omega

end

/-! ## Every call -/

/-- **What FFmpeg is told about the input is true** if and only if every call finds bytes: the thread is attached, the
file is not exhausted, and the reader neither throws nor misbehaves. -/
theorem told_truly_iff {file : List UInt8} {h : List (InputState × ReadCall)} {s : InputState}
    (hr : (input file).Run h s) :
    ((∀ p ∈ h, ToldTruly file p.1 p.2) ∧ s.accepted <+: file) ↔ ∀ p ∈ h, p.2.delivers = true := by
  have hpossible : ∀ p ∈ h, p.2.possible file p.1.position = true := by
    intro p hp
    obtain ⟨g, u, -, -, hstep⟩ := System.Run.prefix_of_mem hr hp
    exact (Option.ite_none_right_eq_some.mp hstep).1
  constructor
  · rintro ⟨htold, -⟩ p hp
    exact delivers_of_toldTruly (hpossible p hp) (htold p hp)
  · intro hd
    have hw : (input file).RunWhen (fun _ c => c.delivers = true) h s := System.Run.when hr hd
    suffices hall : s.Contiguous file ∧ ∀ p ∈ h, ToldTruly file p.1 p.2 by
      refine ⟨hall.2, ?_⟩
      rw [hall.1.accepted]
      exact List.take_prefix _ _
    refine System.RunWhen.induction (P := fun h s => s.Contiguous file ∧ ∀ p ∈ h, ToldTruly file p.1 p.2) ?_ ?_ hw
    · intro s hs
      obtain rfl : s = ⟨0, []⟩ := hs
      exact ⟨⟨Nat.zero_le _, List.take_zero.symm⟩, fun p hp => absurd hp List.not_mem_nil⟩
    · rintro h s c s' - ⟨hs, ih⟩ hd hstep
      obtain ⟨hp, hread⟩ := Option.ite_none_right_eq_some.mp hstep
      obtain rfl : s.read file c = s' := Option.some.inj hread
      obtain ⟨htold, hs'⟩ := toldTruly_of_delivers hs hp hd
      refine ⟨hs', fun p hp => ?_⟩
      rcases List.mem_append.mp hp with hp | hp
      · exact ih p hp
      · rw [List.mem_singleton.mp hp]
        exact htold

/-- A call of `readFunction` with a buffer of four bytes, for which the channel reads so. -/
def readOf (read : ChannelRead) : ReadCall := ⟨[0, 0, 0, 0], true, .readFileContents read, 0⟩

theorem told_truly_three : ∃ h s, (input [7, 8, 9]).Run h s ∧ h.map (·.2) = [readOf (.bytes 2), readOf (.bytes 1)] ∧
    (∀ p ∈ h, ToldTruly [7, 8, 9] p.1 p.2) ∧ s.accepted <+: [7, 8, 9] := by
  have he : ∃ r, (input [7, 8, 9]).exec ⟨0, []⟩ [readOf (.bytes 2), readOf (.bytes 1)] = some r ∧
      r.1.map (·.2) = [readOf (.bytes 2), readOf (.bytes 1)] := ⟨_, rfl, rfl⟩
  obtain ⟨⟨h, s⟩, he, hacts⟩ := he
  have hr := System.run_of_exec (M := input [7, 8, 9]) rfl he
  refine ⟨h, s, hr, hacts, (told_truly_iff hr).mpr fun p hp => ?_⟩
  have hmem : p.2 ∈ h.map (·.2) := List.mem_map_of_mem hp
  rw [hacts] at hmem
  rcases List.mem_cons.mp hmem with h2 | h1
  · rw [h2]
    rfl
  · rw [List.mem_singleton.mp h1]
    rfl

/-- At the end of the file FFmpeg is told of an error, which is not `AVERROR_EOF`. -/
theorem end_is_error : ¬∀ (file : List UInt8) (h : List (InputState × ReadCall)) (s : InputState),
    (input file).Run h s → (∀ p ∈ h, ToldTruly file p.1 p.2) ∧ s.accepted <+: file := by
  intro hall
  have he : ∃ r, (input [7, 8, 9]).exec ⟨0, []⟩ [readOf (.bytes 3), readOf .endOfStream] = some r ∧
      (⟨3, [7, 8, 9]⟩, readOf .endOfStream) ∈ r.1 := ⟨_, rfl, List.mem_cons_of_mem _ List.mem_cons_self⟩
  obtain ⟨⟨h, s⟩, he, hmem⟩ := he
  have htold := (hall _ h s (System.run_of_exec (M := input [7, 8, 9]) rfl he)).1 _ hmem
  have herror := htold.error.mp ⟨-1, rfl⟩
  exact absurd herror (by decide)

end ArcVideo
