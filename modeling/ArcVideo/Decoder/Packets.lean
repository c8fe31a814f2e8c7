import Mathlib.Logic.Function.Basic
import Mathlib.Data.List.Basic

/-!
# Packets: the demuxer, the two packet queues and the packet loop

The part of `VideoDecoder` that `packetMutex` protects, and the loop both decoding loops run on `AVERROR(EAGAIN)`
(`run`, lines 424-439; `decodeAudio`, lines 347-362). The loop is one definition, `PacketLoop.step`, with the stream
as a parameter: `run` is its instance at `.video`, `decodeAudio` at `.audio`.

* `Container` : the stream indices `loadContainer` chose, with what `av_find_best_stream` guarantees about them;
* `AVCodecContext` : a codec as the list of what `avcodec_send_packet` got; `canAnswer` is the contract of
  `avcodec.h` on the answers of `avcodec_receive_frame`;
* `Demuxer` : what `av_read_frame` has still to yield, the queues, the packets allocated and freed;
* `PacketLoop` : the places of the loop, one for each access to something shared.
-/

namespace ArcVideo

/-! ## Streams -/

inductive AVMediaType
  | video | audio | other
  deriving DecidableEq

/-- The streams of an open container and the two `loadContainer` chose. `av_find_best_stream` only returns the index
of a stream of the type asked for, or a negative error code; without a video stream `loadContainer` throws. -/
structure Container where
  streams : List AVMediaType
  videoStreamIndex : Int
  audioStreamIndex : Int
  /-- Opened by `loadStream`, so with `fillBufferFunc` and `cleanupFunc`; by `loadFile` otherwise. -/
  isStream : Bool
  video_found : 0 ≤ videoStreamIndex ∧ streams[videoStreamIndex.toNat]? = some .video
  audio_found : 0 ≤ audioStreamIndex → streams[audioStreamIndex.toNat]? = some .audio

theorem Container.index_ne (c : Container) : c.videoStreamIndex ≠ c.audioStreamIndex := by
  intro he
  have hv := c.video_found
  have ha := c.audio_found (he ▸ hv.1)
  rw [he, ha] at hv
  exact absurd hv.2 (by decide)

def Container.videoOnly (isStream : Bool) : Container where
  streams := [.video]
  videoStreamIndex := 0
  audioStreamIndex := -1
  isStream := isStream
  video_found := ⟨Int.le_refl 0, rfl⟩
  audio_found := fun h => absurd h (by decide)

def Container.videoAndAudio (isStream : Bool) : Container where
  streams := [.video, .audio]
  videoStreamIndex := 0
  audioStreamIndex := 1
  isStream := isStream
  video_found := ⟨Int.le_refl 0, rfl⟩
  audio_found := fun _ => rfl

/-- The two decoding loops, each with its codec and its packet queue. -/
inductive Stream
  | video | audio
  deriving DecidableEq

def Container.index (c : Container) : Stream → Int
  | .video => c.videoStreamIndex
  | .audio => c.audioStreamIndex

/-! ## Packets and codecs -/

/-- What `av_read_frame` puts into a packet. -/
structure Demuxed (π : Type) where
  streamIndex : Int
  data : π
  deriving DecidableEq

/-- An allocated packet: which one it is, and its contents. -/
structure AVPacket (π : Type) where
  id : Nat
  content : Demuxed π
  deriving DecidableEq

/-- What `avcodec_receive_frame` answers; `ret != 0` is `eof` or `error` once `eagain` is excluded. -/
inductive Receive (β : Type)
  | frame (f : β)
  | eagain
  | eof
  | error
  deriving DecidableEq

/-- A codec, by the packets it was sent; `none` is the NULL packet that starts draining. -/
structure AVCodecContext (π : Type) where
  sent : List (Option (Demuxed π))

/-- The contract of `avcodec.h`: a codec that is drained does not ask for more packets. -/
def AVCodecContext.canAnswer {π β : Type} (x : AVCodecContext π) : Receive β → Bool
  | .eagain => x.sent.all Option.isSome
  | _ => true

/-! ## The demuxer and the queues -/

structure Demuxer (π : Type) where
  /-- What `av_read_frame` has still to yield; it fails when nothing is left. -/
  unread : List (Demuxed π)
  /-- The number of `av_packet_alloc` calls; the packets are numbered in this order. -/
  allocated : Nat
  /-- `videoPackets` and `audioPackets`, the front first. -/
  packets : Stream → List (AVPacket π)
  /-- The packets given to `av_packet_free`. -/
  freed : List Nat
  /-- `videoCodecContext` and `audioCodecContext`. -/
  codec : Stream → AVCodecContext π
  /-- The loop that is inside `packetMutex`. -/
  packetMutex : Option Stream

namespace Demuxer

variable {π : Type}

/-- The demuxer of a container whose packets are `file`. -/
def start (file : List (Demuxed π)) : Demuxer π := ⟨file, 0, fun _ => [], [], fun _ => ⟨[]⟩, none⟩

def videoPackets (m : Demuxer π) : List (AVPacket π) := m.packets .video

def audioPackets (m : Demuxer π) : List (AVPacket π) := m.packets .audio

def pushFront (m : Demuxer π) (k : Stream) (p : AVPacket π) : Demuxer π :=
  { m with packets := Function.update m.packets k (p :: m.packets k) }

def popBack (m : Demuxer π) (k : Stream) : Demuxer π :=
  { m with packets := Function.update m.packets k (m.packets k).dropLast }

def sendPacket (m : Demuxer π) (k : Stream) (p : Option (AVPacket π)) : Demuxer π :=
  { m with codec := Function.update m.codec k ⟨(m.codec k).sent ++ [p.map AVPacket.content]⟩ }

/-- `av_packet_free`, which does nothing for NULL. -/
def freePacket (m : Demuxer π) (p : Option (AVPacket π)) : Demuxer π :=
  { m with freed := m.freed ++ (p.map AVPacket.id).toList }

/-- The branches of `readPacket` after a successful `av_read_frame`. -/
def route (c : Container) (m : Demuxer π) (p : AVPacket π) : Demuxer π :=
  if p.content.streamIndex = c.videoStreamIndex then m.pushFront .video p
  else if p.content.streamIndex = c.audioStreamIndex then m.pushFront .audio p
  else m.freePacket (some p)

end Demuxer

/-! ## The packet loop -/

/-- Where a decoding loop is while it fetches a packet. -/
inductive PacketLoop (π : Type)
  /-- `packetMutex.lock()` -/
  | lock
  /-- `empty()`, and `back()` with `pop_back()` when it is not -/
  | test
  /-- `readPacket`: `av_packet_alloc()` -/
  | alloc
  /-- `readPacket`: `av_read_frame(formatContext, packet)` -/
  | read (id : Nat)
  /-- `readPacket`: queue the packet or drop it -/
  | route (p : AVPacket π)
  /-- `packetMutex.unlock()`, and the test `!packet && check` of the loop -/
  | unlock (p : Option (AVPacket π)) (check : Bool)
  /-- `avcodec_send_packet` -/
  | send (p : Option (AVPacket π))
  /-- `av_packet_free` and `continue` -/
  | free (p : Option (AVPacket π))
  deriving DecidableEq

namespace PacketLoop

variable {π : Type}

/-- One step of the packet loop of stream `k`; the place is `none` once the loop is left. -/
def step (c : Container) (k : Stream) : PacketLoop π → Demuxer π → Option (Option (PacketLoop π) × Demuxer π)
  | .lock, m =>
    match m.packetMutex with
    | none => some (some .test, { m with packetMutex := some k })
    | some _ => none
  | .test, m =>
    match (m.packets k).getLast? with
    | none => some (some .alloc, m)
    | some p => some (some (.unlock (some p) true), m.popBack k)
  | .alloc, m => some (some (.read m.allocated), { m with allocated := m.allocated + 1 })
  | .read id, m =>
    match m.unread with
    | q :: rest => some (some (.route ⟨id, q⟩), { m with unread := rest })
    | [] => some (some (.unlock none false), m)
  | .route p, m => some (some (.unlock none true), m.route c p)
  | .unlock p check, m =>
    some (some (if p.isNone && check then .lock else .send p), { m with packetMutex := none })
  | .send p, m => some (some (.free p), m.sendPacket k p)
  | .free p, m => some (none, m.freePacket p)

end PacketLoop

end ArcVideo
