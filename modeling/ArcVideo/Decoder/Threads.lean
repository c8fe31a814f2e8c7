import ArcVideo.Conc.Program
import ArcVideo.Conc.Monitor
import ArcVideo.Conc.Ring
import ArcVideo.Decoder.Packets

/-!
# The decoder and its three threads

`VideoDecoder` after `loadContainer` has started the decoding thread, with the threads that use it:

* `run` : the decoding thread (`VideoDecoder::run`);
* `consumer` : the thread that calls `nextVideoFrame`, `isBuffered`, `getCurrentFrameTimestamp` and, last, deletes the
  decoder (`~VideoDecoder`);
* `audio` : the thread that calls `decodeAudio` (through `updateAudioBuffer`).

Every access to something another thread can write is a step of its own. The places of a thread's code (`RunPc`,
`ConsumerPc`, `AudioPc`) carry the local variables it needs further on; an action carries what the environment
decides: the call made, the answer of `avcodec_receive_frame`, a call of the read callback by `av_read_frame`, a
spurious wake-up.
-/

namespace ArcVideo
open Conc

abbrev VIDEOPLAYER_VIDEO_NUM_BUFFERED_FRAMES : Nat := 4

/-! ## The members the threads share -/

structure AVFrame (φ : Type) where
  data : φ
  pts : Int
  deriving DecidableEq

/-- A slot of `rgbFrames`; `data` is `none` while no complete picture is in it. -/
structure RgbFrame (φ : Type) where
  data : Option φ
  pts : Int
  deriving DecidableEq

/-- The slot that holds all of a decoded frame. -/
def AVFrame.toRgb {φ : Type} (f : AVFrame φ) : RgbFrame φ := ⟨some f.data, f.pts⟩

inductive Thread
  | run | consumer | audio
  deriving DecidableEq

structure VideoDecoder (φ π : Type) where
  /-- Tail of the ring buffer. -/
  currentFrameDisplayed : Nat
  /-- Head of the ring buffer. -/
  totalFramesBuffered : Nat
  rgbFrames : Fin VIDEOPLAYER_VIDEO_NUM_BUFFERED_FRAMES → RgbFrame φ
  videoOutputEnded : Bool
  audioOutputEnded : Bool
  /-- `decodeMutex` and `decodeCondvar`. -/
  decode : Monitor Thread
  demuxer : Demuxer π
  /-- `cleanupFunc(customFuncData)` has been called. -/
  cleanedUp : Bool
  /-- `run()` has returned, so `join()` does not wait any more. -/
  runReturned : Bool
  /-- The destructor has not ended. -/
  alive : Bool

namespace VideoDecoder

variable {φ π : Type}

/-- The decoder `loadContainer` leaves: no frame decoded, and the packets `file` to demux. -/
def loaded (φ : Type) (file : List (Demuxed π)) : VideoDecoder φ π where
  currentFrameDisplayed := 0
  totalFramesBuffered := 0
  rgbFrames := fun _ => ⟨none, 0⟩
  videoOutputEnded := false
  audioOutputEnded := false
  decode := Monitor.free
  demuxer := Demuxer.start file
  cleanedUp := false
  runReturned := false
  alive := true

def getReadIndex (d : VideoDecoder φ π) : Fin VIDEOPLAYER_VIDEO_NUM_BUFFERED_FRAMES :=
  slot VIDEOPLAYER_VIDEO_NUM_BUFFERED_FRAMES d.currentFrameDisplayed

def getWriteIndex (d : VideoDecoder φ π) : Fin VIDEOPLAYER_VIDEO_NUM_BUFFERED_FRAMES :=
  slot VIDEOPLAYER_VIDEO_NUM_BUFFERED_FRAMES (d.totalFramesBuffered + 1)

def getNumBuffered (d : VideoDecoder φ π) : Int := d.totalFramesBuffered - d.currentFrameDisplayed

def hasFrameBuffered (d : VideoDecoder φ π) : Bool := decide (d.getNumBuffered ≥ 1)

/-- The first disjunct of `isBuffered`. -/
def isFull (d : VideoDecoder φ π) : Bool := decide (d.getNumBuffered = VIDEOPLAYER_VIDEO_NUM_BUFFERED_FRAMES - 1)

def isBuffered (d : VideoDecoder φ π) : Bool := d.isFull || (d.videoOutputEnded && d.hasFrameBuffered)

/-- Store into the slot `getWriteIndex()` designates. -/
def writeSlot (d : VideoDecoder φ π) (f : RgbFrame φ) : VideoDecoder φ π :=
  { d with rgbFrames := Function.update d.rgbFrames d.getWriteIndex f }

@[simp] theorem writeSlot_self (d : VideoDecoder φ π) (f : RgbFrame φ) :
    (d.writeSlot f).rgbFrames (d.writeSlot f).getWriteIndex = f := by
  simp only [writeSlot, getWriteIndex, Function.update_self]

theorem writeSlot_of_ne (d : VideoDecoder φ π) (f : RgbFrame φ) {i : Fin VIDEOPLAYER_VIDEO_NUM_BUFFERED_FRAMES}
    (h : i ≠ d.getWriteIndex) : (d.writeSlot f).rgbFrames i = d.rgbFrames i := by
  simp only [writeSlot, Function.update_of_ne h]

end VideoDecoder

/-! ## The decoding thread -/

/-- The places of `run`, with the line of `VideoDecoder.cpp` where one helps. -/
inductive RunPc (φ π : Type)
  /-- 416: `decodeMutex.lock()` -/
  | lockFirst
  /-- 418: `isBuffered()`, the comparison of `getNumBuffered()` -/
  | testFull
  /-- 418: `isBuffered()`, its read of `videoOutputEnded` -/
  | testEnded
  /-- 418: `isBuffered()`, `hasFrameBuffered()` -/
  | testHas
  /-- 418: `!videoOutputEnded` -/
  | testLoop
  /-- 419: `decodeMutex.unlock()` -/
  | unlock
  /-- 421: `avcodec_receive_frame` -/
  | receive
  /-- 424-439 -/
  | fetch (f : PacketLoop π)
  /-- 445: `videoOutputEnded = true; break` -/
  | setEnded
  /-- 451: `sws_scale` starts to overwrite the slot -/
  | scale (frame : AVFrame φ)
  /-- 451: `sws_scale` has written the whole picture -/
  | scaled (frame : AVFrame φ)
  /-- 456: `dst->pts = frame->pts` -/
  | writePts (frame : AVFrame φ)
  /-- 459: increment of `totalFramesBuffered` -/
  | publish (frame : AVFrame φ)
  /-- 461: `decodeMutex.lock()` -/
  | lock
  /-- 463: `if(videoOutputEnded) break` -/
  | checkEnded
  /-- 465: `decodeCondvar.wait()` -/
  | wait
  /-- 465: asleep, or woken and about to take the mutex again -/
  | waiting
  /-- 467: `decodeMutex.unlock()` -/
  | unlockLast
  /-- 469: `if(cleanupFunc != NULL) cleanupFunc(customFuncData)` -/
  | cleanup
  | ret
  | returned
  deriving DecidableEq

inductive RunAct (φ : Type)
  | step
  | receive (ret : Receive (AVFrame φ))
  | callback
  | spurious

variable {φ π : Type}

/-- One step of the decoding thread. The reads of its own `totalFramesBuffered` are no steps of their own: no other
thread writes it. -/
def runStep (c : Container) : RunAct φ → RunPc φ π → VideoDecoder φ π → Option (RunPc φ π × VideoDecoder φ π)
  | .step, .lockFirst, d => (d.decode.lock .run).map fun m => (.testFull, { d with decode := m })
  | .step, .testFull, d => some (if d.isFull then .checkEnded else .testEnded, d)
  | .step, .testEnded, d => some (if d.videoOutputEnded then .testHas else .testLoop, d)
  | .step, .testHas, d => some (if d.hasFrameBuffered then .checkEnded else .testLoop, d)
  | .step, .testLoop, d => some (if d.videoOutputEnded then .checkEnded else .unlock, d)
  | .step, .unlock, d => some (.receive, { d with decode := d.decode.unlock })
  | .receive ret, .receive, d =>
    if (d.demuxer.codec .video).canAnswer ret then
      match ret with
      | .frame f => some (.scale f, d)
      | .eagain => some (.fetch .lock, d)
      | .eof => some (.setEnded, d)
      | .error => some (.setEnded, d)
    else none
  | .step, .fetch f, d =>
    -- the loop is left by `continue`: back to the test of line 418, without `decodeMutex.lock()`
    (f.step c .video d.demuxer).map fun r => (r.1.elim .testFull .fetch, { d with demuxer := r.2 })
  | .callback, .fetch (.read id), d => if c.isStream then some (.fetch (.read id), d) else none
  | .step, .setEnded, d => some (.checkEnded, { d with videoOutputEnded := true })
  | .step, .scale f, d => some (.scaled f, d.writeSlot ⟨none, (d.rgbFrames d.getWriteIndex).pts⟩)
  | .step, .scaled f, d => some (.writePts f, d.writeSlot ⟨some f.data, (d.rgbFrames d.getWriteIndex).pts⟩)
  | .step, .writePts f, d => some (.publish f, d.writeSlot ⟨(d.rgbFrames d.getWriteIndex).data, f.pts⟩)
  | .step, .publish _, d => some (.lock, { d with totalFramesBuffered := d.totalFramesBuffered + 1 })
  | .step, .lock, d => (d.decode.lock .run).map fun m => (.testFull, { d with decode := m })
  | .step, .checkEnded, d => some (if d.videoOutputEnded then .unlockLast else .wait, d)
  | .step, .wait, d => some (.waiting, { d with decode := d.decode.wait .run })
  | .step, .waiting, d =>
    if Thread.run ∈ d.decode.asleep then none
    else (d.decode.lock .run).map fun m => (.testFull, { d with decode := m })
  | .spurious, .waiting, d => some (.waiting, { d with decode := d.decode.spurious .run })
  | .step, .unlockLast, d => some (.cleanup, { d with decode := d.decode.unlock })
  | .step, .cleanup, d => some (.ret, { d with cleanedUp := d.cleanedUp || c.isStream })
  | .step, .ret, d => some (.returned, { d with runReturned := true })
  | _, _, _ => none

/-! ## The consumer thread -/

/-- The places of the consumer's code; `total` is the value `hasFrameBuffered` read. -/
inductive ConsumerPc
  | idle
  /-- 280: `nextVideoFrame`, `hasFrameBuffered()` reads `totalFramesBuffered` -/
  | readTotal
  /-- 280: it reads `currentFrameDisplayed` and compares -/
  | readDisplayed (total : Nat)
  /-- 285: `videoOutputEnded` -/
  | readEnded (total : Nat)
  /-- 285: `totalFramesBuffered == 0` -/
  | readZero (total : Nat)
  /-- 288 to 291 -/
  | lock | advance | signal | unlock
  /-- 294: `return rgbFrames[getReadIndex()]->data[0]`, after an advancing call or not -/
  | returnFrame (advanced : Bool)
  /-- 285: `return NULL` -/
  | returnNull
  /-- 484: `isBuffered`, its three reads -/
  | bufFull | bufEnded | bufHas
  | returnBuffered (b : Bool)
  /-- 68 to 73: `~VideoDecoder` -/
  | delLock | delVideo | delAudio | delSignal | delUnlock | delJoin
  /-- 76 to 102 -/
  | delFree
  | deleted
  deriving DecidableEq

inductive ConsumerAct
  | nextVideoFrame
  | isBuffered
  | getCurrentFrameTimestamp
  | delete
  | step
  deriving DecidableEq

/-- One step of the consumer. The reads of `currentFrameDisplayed` in `isBuffered` are no steps of their own: no other
thread writes it. -/
def consumerStep : ConsumerAct → ConsumerPc → VideoDecoder φ π → Option (ConsumerPc × VideoDecoder φ π)
  | .nextVideoFrame, .idle, d => some (.readTotal, d)
  | .isBuffered, .idle, d => some (.bufFull, d)
  | .getCurrentFrameTimestamp, .idle, d => some (.idle, d)
  | .delete, .idle, d => some (.delLock, d)
  | .step, .readTotal, d => some (.readDisplayed d.totalFramesBuffered, d)
  | .step, .readDisplayed n, d =>
    some (if (n : Int) - d.currentFrameDisplayed ≥ 1 then .lock else .readEnded n, d)
  | .step, .readEnded n, d => some (if d.videoOutputEnded then .returnNull else .readZero n, d)
  | .step, .readZero _, d => some (if d.totalFramesBuffered = 0 then .returnNull else .returnFrame false, d)
  | .step, .lock, d => (d.decode.lock .consumer).map fun m => (.advance, { d with decode := m })
  | .step, .advance, d => some (.signal, { d with currentFrameDisplayed := d.currentFrameDisplayed + 1 })
  | .step, .signal, d => some (.unlock, { d with decode := d.decode.signal })
  | .step, .unlock, d => some (.returnFrame true, { d with decode := d.decode.unlock })
  | .step, .returnFrame _, d => some (.idle, d)
  | .step, .returnNull, d => some (.idle, d)
  | .step, .bufFull, d => some (if d.isFull then .returnBuffered true else .bufEnded, d)
  | .step, .bufEnded, d => some (if d.videoOutputEnded then .bufHas else .returnBuffered false, d)
  | .step, .bufHas, d => some (.returnBuffered d.hasFrameBuffered, d)
  | .step, .returnBuffered _, d => some (.idle, d)
  | .step, .delLock, d => (d.decode.lock .consumer).map fun m => (.delVideo, { d with decode := m })
  | .step, .delVideo, d => some (.delAudio, { d with videoOutputEnded := true })
  | .step, .delAudio, d => some (.delSignal, { d with audioOutputEnded := true })
  | .step, .delSignal, d => some (.delUnlock, { d with decode := d.decode.signal })
  | .step, .delUnlock, d => some (.delJoin, { d with decode := d.decode.unlock })
  | .step, .delJoin, d => if d.runReturned then some (.delFree, d) else none
  -- the lists of packets are destroyed with the decoder, the packets they point to are not freed
  | .step, .delFree, d => some (.deleted, { d with alive := false })
  | _, _, _ => none

/-! ## The audio thread -/

/-- The places of `decodeAudio`. -/
inductive AudioPc (π : Type)
  | idle
  /-- 343: `!audioOutputEnded` -/
  | testEnded
  /-- 344: `avcodec_receive_frame` -/
  | receive
  /-- 347-362 -/
  | fetch (f : PacketLoop π)
  /-- 368: `audioOutputEnded = true` -/
  | setEnded

inductive AudioAct
  | decodeAudio
  | step
  | receive (ret : Receive Unit)
  | callback

/-- One step of the audio thread; a received frame is resampled and returned without further shared accesses. -/
def audioStep (c : Container) : AudioAct → AudioPc π → VideoDecoder φ π → Option (AudioPc π × VideoDecoder φ π)
  | .decodeAudio, .idle, d => if d.alive ∧ 0 ≤ c.audioStreamIndex then some (.testEnded, d) else none
  | .step, .testEnded, d => some (if d.audioOutputEnded then .idle else .receive, d)
  | .receive ret, .receive, d =>
    if (d.demuxer.codec .audio).canAnswer ret then
      match ret with
      | .frame _ => some (.idle, d)
      | .eagain => some (.fetch .lock, d)
      | .eof => some (.setEnded, d)
      | .error => some (.setEnded, d)
    else none
  | .step, .fetch f, d =>
    (f.step c .audio d.demuxer).map fun r => (r.1.elim .testEnded .fetch, { d with demuxer := r.2 })
  | .callback, .fetch (.read id), d => if c.isStream then some (.fetch (.read id), d) else none
  | .step, .setEnded, d => some (.testEnded, { d with audioOutputEnded := true })
  | _, _, _ => none

/-! ## The system -/

abbrev Pc (φ π : Type) : Thread → Type
  | .run => RunPc φ π
  | .consumer => ConsumerPc
  | .audio => AudioPc π

abbrev Act (φ : Type) : Thread → Type
  | .run => RunAct φ
  | .consumer => ConsumerAct
  | .audio => AudioAct

/-- The threads of a decoder that has loaded the container `c`. -/
def threads (φ π : Type) (c : Container) : Program Thread (Pc φ π) (Act φ) (VideoDecoder φ π) where
  step
    | .run => runStep c
    | .consumer => consumerStep
    | .audio => audioStep c

abbrev State (φ π : Type) : Type := Config (Pc φ π) (VideoDecoder φ π)

abbrev Action (φ : Type) : Type := Σ t, Act φ t

/-- The state in which `loadContainer` leaves the threads. -/
def State.start (φ : Type) (file : List (Demuxed π)) : State φ π where
  loc
    | .run => .lockFirst
    | .consumer => .idle
    | .audio => .idle
  shared := VideoDecoder.loaded φ file

/-- **The decoder and its threads** on a container with the packets `file`. -/
def decoder (φ : Type) (c : Container) (file : List (Demuxed π)) : System (State φ π) (Action φ) :=
  (threads φ π c).system (· = State.start φ file)

namespace State

def run (s : State φ π) : RunPc φ π := s.loc .run
def consumer (s : State φ π) : ConsumerPc := s.loc .consumer
def audio (s : State φ π) : AudioPc π := s.loc .audio

end State

/-! ## Runs by their actions -/

abbrev videoFile (n : Nat) : List (Demuxed Unit) := List.replicate n ⟨0, ()⟩

/-- The decoder of a file with `n` packets of its video stream. -/
abbrev videoDecoder (n : Nat) : System (State Nat Unit) (Action Nat) :=
  decoder Nat (Container.videoOnly false) (videoFile n)

namespace Action

variable {φ : Type}

def runs (n : Nat) : List (Action φ) := List.replicate n ⟨.run, .step⟩

def receives (ret : Receive (AVFrame φ)) : List (Action φ) := [⟨.run, .receive ret⟩]

/-- From a place where it takes the mutex, the decoding thread reads a packet of the video stream, sends it, gets a
frame and is about to write it. -/
def decodes (f : AVFrame φ) : List (Action φ) := runs 5 ++ receives .eagain ++ runs 15 ++ receives (.frame f)

/-- From a place where it takes the mutex, the decoding thread finds the file at its end, drains the codec and sets
`videoOutputEnded`. -/
def drains : List (Action φ) := runs 5 ++ receives .eagain ++ runs 11 ++ receives .eof ++ runs 1

def calls (a : ConsumerAct) (n : Nat) : List (Action φ) := ⟨.consumer, a⟩ :: List.replicate n ⟨.consumer, .step⟩

def consumes (n : Nat) : List (Action φ) := List.replicate n ⟨.consumer, .step⟩

def decodesAudio (n : Nat) : List (Action φ) := List.replicate n ⟨.audio, .step⟩

end Action

end ArcVideo
