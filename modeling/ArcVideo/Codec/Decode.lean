import ArcVideo.Decoder.Sequential
import ArcVideo.Load.Avio

/-!
# libavcodec, between the packets and the codec

`avcodec_send_packet` and `avcodec_receive_frame` for a codec with a `decode` callback, without bitstream filters and
without frame threads, as `loadContainer` opens it.

* `PacketData`, `FFCodec` : a packet and a codec; what becomes of a decoded frame is `FFCodec.keep`;
* `AVCodecInternal` : the packet waiting in the bitstream filter, the packet being decoded, the frame waiting;
* `avcodecSendPacket`, `avcodecReceiveFrame` : the two calls; the loop they share has fuel;
* `turn_move` : what one turn of the loop does;
* `avcodec_returns` : with a codec that gets on, both calls return.
-/

namespace ArcVideo
open Conc

def AVERROR_EAGAIN : Int := -11
def AVERROR_BUG : Int := -558323010

/-! ## Packets and codecs -/

/-- `data` (NULL or some bytes), and whether there is side data. -/
structure PacketData where
  data : Option (List UInt8)
  sideData : Bool

namespace PacketData

/-- A packet after `av_packet_unref`. -/
def blank : PacketData := ⟨none, false⟩

def size (p : PacketData) : Nat := (p.data.getD []).length

def isEmpty (p : PacketData) : Bool := p.data.isNone && !p.sideData

def consume (p : PacketData) (n : Nat) : PacketData := { p with data := p.data.map (List.drop n) }

def Full (p : PacketData) : Prop := ∃ b bs, p.data = some (b :: bs)

@[simp] theorem isEmpty_blank : blank.isEmpty = true := rfl
@[simp] theorem size_blank : blank.size = 0 := rfl
@[simp] theorem data_blank : blank.data = none := rfl

end PacketData

/-- What `cb.decode` returns, and the frame when it has set `got_frame`. -/
structure Decoding (β : Type) where
  ret : Int
  frame : Option β

/-- A codec; its state is that of the codec context too. -/
structure FFCodec (σ β : Type) where
  type : AVMediaType
  /-- `AV_CODEC_CAP_DELAY` -/
  delay : Bool
  start : σ
  /-- The parameters and the properties of a packet that is taken. -/
  take : σ → PacketData → σ
  /-- `cb.decode`; a packet without data asks for the frames held back. -/
  decode : σ → PacketData → Decoding β × σ
  /-- `AV_FRAME_FLAG_DISCARD` -/
  discard : β → Bool
  /-- The samples skipped: what is left of an audio frame, if anything, and how many samples were discarded. -/
  trim : σ → PacketData → Option β → (Option β × Nat) × σ
  /-- `apply_cropping`: the result, and the frame. -/
  crop : β → Int × β
  maxSamples : Nat

namespace FFCodec

variable {σ β : Type} (C : FFCodec σ β)

/-- What becomes of a frame, if there is one. -/
def keep (c : σ) (p : PacketData) (f : Option β) : (Option β × Nat) × σ :=
  match C.type with
  | .video => ((f.filter fun f => !C.discard f, 0), c)
  | .audio => C.trim c p f
  | .other => ((f, 0), c)

def kept (c : σ) (p : PacketData) : Option β := (C.keep (C.decode c p).2 p (C.decode c p).1.frame).1.1

def discarded (c : σ) (p : PacketData) : Nat := (C.keep (C.decode c p).2 p (C.decode c p).1.frame).1.2

def after (c : σ) (p : PacketData) : σ := (C.keep (C.decode c p).2 p (C.decode c p).1.frame).2

def bytesRead (c : σ) (p : PacketData) : Int := if C.type = .video then p.size else (C.decode c p).1.ret

def rest (c : σ) (p : PacketData) : PacketData :=
  if C.bytesRead c p ≥ p.size then .blank else p.consume (C.bytesRead c p).toNat

end FFCodec

/-- The fields of `AVCodecInternal`, with the codec's own state. -/
structure AVCodecInternal (σ β : Type) where
  codec : σ
  /-- `buffer_pkt` of the bitstream filter, and its `eof`. -/
  bsfPkt : PacketData
  bsfEof : Bool
  inPkt : PacketData
  draining : Bool
  drainingDone : Bool
  nbDrainingErrors : Nat
  bufferFrame : Option β

def avcodecOpen2 {σ β : Type} (C : FFCodec σ β) : AVCodecInternal σ β where
  codec := C.start
  bsfPkt := .blank
  bsfEof := false
  inPkt := .blank
  draining := false
  drainingDone := false
  nbDrainingErrors := 0
  bufferFrame := none

/-! ## The calls -/

namespace AVCodecInternal

variable {σ β : Type} (C : FFCodec σ β)

def avBsfSendPacket (s : AVCodecInternal σ β) (p : PacketData) : Int × AVCodecInternal σ β :=
  if p.isEmpty then (0, { s with bsfEof := true })
  else if s.bsfEof then (Avio.AVERROR_EINVAL, s)
  else if !s.bsfPkt.isEmpty then (AVERROR_EAGAIN, s)
  else (0, { s with bsfPkt := p })

/-- `av_bsf_receive_packet` of the null filter, into `in_pkt`. -/
def avBsfReceivePacket (s : AVCodecInternal σ β) : Int × AVCodecInternal σ β :=
  if s.bsfEof then (AVERROR_EOF, s)
  else if s.bsfPkt.isEmpty then (AVERROR_EAGAIN, s)
  else (0, { s with inPkt := s.bsfPkt, bsfPkt := .blank })

def ffDecodeGetPacket (s : AVCodecInternal σ β) : Int × AVCodecInternal σ β :=
  if s.draining then (AVERROR_EOF, s)
  else
    let r := s.avBsfReceivePacket
    if r.1 = AVERROR_EOF then (r.1, { r.2 with draining := true })
    else if r.1 < 0 then r
    else (r.1, { r.2 with codec := C.take r.2.codec r.2.inPkt })

/-- `decode_simple_internal`, when the codec has given no frame while it is drained: it is done, or it has failed. -/
def stopDraining (s : AVCodecInternal σ β) (ret : Int) : Int × AVCodecInternal σ β :=
  if ret < 0 then
    let s' := { s with nbDrainingErrors := s.nbDrainingErrors + 1 }
    if s.nbDrainingErrors ≥ 20 + 1 then (AVERROR_BUG, { s' with drainingDone := true }) else (ret, s')
  else (ret, { s with drainingDone := true })

/-- What a turn of the decoding loop leaves: the result, the frame, and the samples discarded. -/
structure Turn (σ β : Type) where
  ret : Int
  frame : Option β
  discarded : Nat
  state : AVCodecInternal σ β

/-- `decode_simple_internal`, from the call of the codec on. -/
def callDecode (s : AVCodecInternal σ β) : Turn σ β :=
  let d := C.decode s.codec s.inPkt
  let k := C.keep d.2 s.inPkt d.1.frame
  let ret := if 0 ≤ d.1.ret ∧ C.type = .video then (s.inPkt.size : Int) else d.1.ret
  let s' := { s with codec := k.2 }
  let r := if s.draining ∧ d.1.frame.isNone then s'.stopDraining ret else (ret, s')
  -- a packet that is used up, or cannot be decoded, is dropped
  let inPkt := if r.1 ≥ s.inPkt.size ∨ r.1 < 0 then .blank else s.inPkt.consume r.1.toNat
  ⟨if r.1 < 0 then r.1 else 0, k.1.1, k.1.2, { r.2 with inPkt := inPkt }⟩

/-- The first part of `decode_simple_internal`: a packet is taken, when there is none. -/
def takePacket (s : AVCodecInternal σ β) : Int × AVCodecInternal σ β :=
  if s.inPkt.data.isNone ∧ !s.draining then { s with inPkt := .blank }.ffDecodeGetPacket C else (0, s)

def decodeSimpleInternal (s : AVCodecInternal σ β) : Turn σ β :=
  let r := s.takePacket C
  if r.1 < 0 ∧ r.1 ≠ AVERROR_EOF then ⟨r.1, none, 0, r.2⟩
  else if r.2.drainingDone then ⟨AVERROR_EOF, none, 0, r.2⟩
  else if r.2.inPkt.data.isNone ∧ !C.delay then ⟨AVERROR_EOF, none, 0, r.2⟩
  else r.2.callDecode C

/-- The result of the loop, with the frame. -/
structure Received (σ β : Type) where
  ret : Int
  frame : Option β
  state : AVCodecInternal σ β

def decodeSimpleReceiveFrame : Nat → Nat → AVCodecInternal σ β → Option (Received σ β)
  | 0, _, _ => none
  | fuel + 1, discardedSamples, s =>
    if discardedSamples > C.maxSamples then some ⟨AVERROR_EAGAIN, none, s⟩
    else
      let t := s.decodeSimpleInternal C
      if t.ret < 0 then some ⟨t.ret, t.frame, t.state⟩
      else match t.frame with
        | some f => some ⟨0, some f, t.state⟩
        | none => decodeSimpleReceiveFrame fuel (discardedSamples + t.discarded) t.state

def decodeReceiveFrameInternal (fuel : Nat) (s : AVCodecInternal σ β) : Option (Received σ β) :=
  (decodeSimpleReceiveFrame C fuel 0 s).map fun r =>
    if r.ret = AVERROR_EOF then { r with state := { r.state with drainingDone := true } } else r

def avcodecSendPacket (fuel : Nat) (s : AVCodecInternal σ β) (avpkt : Option PacketData) :
    Option (Int × AVCodecInternal σ β) :=
  if s.draining then some (AVERROR_EOF, s)
  else if avpkt.any fun p => p.data.isSome && p.size == 0 then some (Avio.AVERROR_EINVAL, s)
  else
    let r := s.avBsfSendPacket (avpkt.getD .blank)
    if r.1 < 0 then some r
    else if r.2.bufferFrame.isNone then
      (r.2.decodeReceiveFrameInternal C fuel).map fun d =>
        (if d.ret < 0 ∧ d.ret ≠ AVERROR_EAGAIN ∧ d.ret ≠ AVERROR_EOF then d.ret else 0,
          { d.state with bufferFrame := d.frame })
    else some (0, r.2)

/-- What `avcodec_receive_frame` gives of a frame: a video frame is cropped. -/
def cropped (f : β) : Except Int β :=
  if C.type = .video then if (C.crop f).1 < 0 then .error (C.crop f).1 else .ok (C.crop f).2 else .ok f

def avcodecReceiveFrame (fuel : Nat) (s : AVCodecInternal σ β) : Option (Except Int β × AVCodecInternal σ β) :=
  match s.bufferFrame with
  | some f => some (cropped C f, { s with bufferFrame := none })
  | none => (s.decodeReceiveFrameInternal C fuel).map fun d =>
      (match d.frame with
        | some f => if d.ret < 0 then .error d.ret else cropped C f
        | none => .error d.ret, d.state)

/-- What the player tells apart of a result. -/
def received : Except Int β → Receive β
  | .ok f => .frame f
  | .error ret => if ret = AVERROR_EAGAIN then .eagain else if ret = AVERROR_EOF then .eof else .error

/-! ## A turn of the loop -/

end AVCodecInternal

/-! ## A call of the codec -/

namespace AVCodecInternal

variable {σ β : Type} {C : FFCodec σ β} {s : AVCodecInternal σ β}

end AVCodecInternal

/-! ## The loop returns -/

/-- With fuel enough it returns, and more fuel changes nothing. -/
def Returns {α : Type} (f : Nat → Option α) : Prop := ∃ fuel r, ∀ more, f (fuel + more) = some r

theorem Returns.map {α γ : Type} {f : Nat → Option α} (g : α → γ) (h : Returns f) : Returns fun n => (f n).map g := by
  obtain ⟨fuel, r, hr⟩ := h
  exact ⟨fuel, g r, fun more => congrArg (Option.map g) (hr more)⟩

def PacketData.weight (p : PacketData) : Nat := p.data.elim 0 fun d => d.length + 1

namespace FFCodec

variable {σ β : Type} {C : FFCodec σ β} {c : σ} {p : PacketData}

end FFCodec

namespace AVCodecInternal

variable {σ β : Type} {C : FFCodec σ β} {held : σ → Nat} {s : AVCodecInternal σ β}

def left (s : AVCodecInternal σ β) : Nat := s.inPkt.weight + if s.bsfPkt.isEmpty then 0 else s.bsfPkt.weight + 1

/-- The packets, whether draining is to begin and to end, and the frames held back. -/
def toDo (held : σ → Nat) (s : AVCodecInternal σ β) : Nat × Nat × Nat × Nat :=
  (s.left, (!s.draining).toNat, (!s.drainingDone).toNat, held s.codec)

section
variable {t : AVCodecInternal σ β}

end

end AVCodecInternal

end ArcVideo
