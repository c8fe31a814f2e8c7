import ArcVideo.Conc.System
import ArcVideo.Decoder.Threads

/-!
# Loading a file or a stream

`VideoDecoder::loadFile`, `loadStream` and `loadContainer`, on the members they set.

* `Ptr`, `ObjectKind` : a member pointer, and what it can point to; `Native.acquired` lists the objects in the order
  they were acquired, so that a pointer is a position in it. Memory does not run out;
* `FormatContext` : what `*formatContext` holds, for `avformat_open_input` can be given one that has been opened;
* `Answers` : what FFmpeg and `pthread_create` answer in one attempt;
* `Native` : the members of the decoder, `Native.constructed` as the constructor leaves them;
* `loadFile`, `loadStream`, `loadContainer` : one attempt. An exception keeps what was set before it;
* `Attempt`, `lifetime` : the calls of a decoder, in any order.
-/

namespace ArcVideo

/-! ## Objects and members -/

/-- A member pointer: never assigned, NULL, or the object of that number. -/
inductive Ptr
  | unassigned | null
  | object (id : Nat)
  deriving DecidableEq

/-- The object a pointer points to. -/
def Ptr.id? : Ptr → Option Nat
  | .object id => some id
  | _ => none

inductive Source
  | file (filename : String)
  /-- `readFunction` with the callback data of the decoder. -/
  | reader (customFuncData : Option Nat)
  deriving DecidableEq

inductive ObjectKind
  /-- `av_frame_alloc` -/
  | frame
  | avioBuffer
  /-- `avio_alloc_context` -/
  | avioContext
  | formatContext
  /-- The I/O context that `avformat_open_input` opens where it is given none. -/
  | ioContext (filename : String)
  /-- With the parameters of that stream of what was opened. -/
  | codecContext (opened : List Source) (streamIndex : Int)
  | swrContext (initialized : Bool)
  | swsContext
  | frameBuffer
  /-- `audioDecodingBuffer` -/
  | decodingBuffer
  deriving DecidableEq

structure FormatContext where
  pb : Ptr
  /-- `AVFMT_FLAG_CUSTOM_IO` -/
  custom : Bool
  /-- What `avformat_open_input` has read a header from, in order. -/
  opened : List Source
  deriving DecidableEq

def FormatContext.empty : FormatContext := ⟨.null, false, []⟩

/-- The exceptions of loading, with their text. -/
inductive LoadError
  | invalidArgument (what : String)
  | runtimeError (what : String)
  deriving DecidableEq

structure VideoBufferInfo where
  videoBuffer : Ptr
  audioBuffer : Bool
  videoBufferSize : Nat
  videoBufferWidth : Nat
  videoWidth : Nat
  videoHeight : Nat
  audioBufferSize : Nat
  audioChannels : Nat
  audioSampleRate : Nat
  deriving DecidableEq

/-- `memset(&bufferInfo, 0, sizeof(VideoBufferInfo))` -/
def VideoBufferInfo.zero : VideoBufferInfo := ⟨.null, false, 0, 0, 0, 0, 0, 0, 0⟩

inductive LoadResult
  | returned (bufferInfo : VideoBufferInfo)
  | thrown (e : LoadError)
  /-- `swr_init` is given NULL, or `rgbFrames[0]->buf[0]` is NULL when its size is read. -/
  | crashed
  deriving DecidableEq

abbrev VIDEOPLAYER_AUDIO_BUFFER_SIZE : Nat := 1024

/-- What FFmpeg and `pthread_create` answer in one attempt. A negative stream index stands for a codec that is NULL:
`av_find_best_stream` finds both or neither. -/
structure Answers where
  openInput : Bool
  /-- `avformat_open_input` opens an I/O context of its own; it does not for a format with `AVFMT_NOFILE`. -/
  openFile : Bool
  findStreamInfo : Bool
  videoStreamIndex : Int
  audioStreamIndex : Int
  openVideo : Bool
  openAudio : Bool
  allocSwr : Bool
  initSwr : Bool
  getSws : Bool
  /-- `av_frame_get_buffer` on the slot of that number. -/
  getBuffer : Nat → Bool
  threadCreated : Bool
  width : Nat
  height : Nat
  lineSize : Nat
  bufferSize : Nat
  channels : Nat
  sampleRate : Nat

/-- An attempt that succeeds, on a container with a video and an audio stream. -/
def Answers.success : Answers where
  openInput := true
  openFile := true
  findStreamInfo := true
  videoStreamIndex := 0
  audioStreamIndex := 1
  openVideo := true
  openAudio := true
  allocSwr := true
  initSwr := true
  getSws := true
  getBuffer := fun _ => true
  threadCreated := true
  width := 64
  height := 48
  lineSize := 192
  bufferSize := 9216
  channels := 2
  sampleRate := 48000

/-- The members of `VideoDecoder` that loading reads or sets, and those that own an object. -/
structure Native where
  fileLoaded : Bool
  /-- The callbacks are given or NULL; `customFuncData` is the data of the reader of that number, or NULL. -/
  fillBufferFunc : Bool
  customFuncData : Option Nat
  cleanupFunc : Bool
  avioContext : Ptr
  /-- `avioContext->buffer` -/
  avioBuffer : Ptr
  formatContext : Ptr
  /-- `*formatContext` -/
  format : FormatContext
  currentFrameDisplayed : Nat
  totalFramesBuffered : Nat
  videoStreamIndex : Option Int
  audioStreamIndex : Option Int
  videoCodecContext : Ptr
  audioCodecContext : Ptr
  swrContext : Ptr
  swsContext : Ptr
  frame : Ptr
  audioFrame : Ptr
  rgbFrames : Fin VIDEOPLAYER_VIDEO_NUM_BUFFERED_FRAMES → Ptr
  /-- The buffers of `rgbFrames`. -/
  rgbBuffers : Fin VIDEOPLAYER_VIDEO_NUM_BUFFERED_FRAMES → Ptr
  audioDecodingBuffer : Ptr
  videoFrameSize : Option Nat
  /-- `start()` has created the decoding thread. -/
  started : Bool
  acquired : List ObjectKind
  freed : List Nat

namespace Native

/-- The members as the constructor leaves them; it does not assign `avioContext`. The frames are the first objects. -/
def constructed : Native where
  fileLoaded := false
  fillBufferFunc := false
  customFuncData := none
  cleanupFunc := false
  avioContext := .unassigned
  avioBuffer := .null
  formatContext := .null
  format := .empty
  currentFrameDisplayed := 0
  totalFramesBuffered := 0
  videoStreamIndex := none
  audioStreamIndex := none
  videoCodecContext := .null
  audioCodecContext := .null
  swrContext := .null
  swsContext := .null
  frame := .object 0
  rgbFrames := fun i => .object (i + 1)
  audioFrame := .object (VIDEOPLAYER_VIDEO_NUM_BUFFERED_FRAMES + 1)
  rgbBuffers := fun _ => .null
  audioDecodingBuffer := .null
  videoFrameSize := none
  started := false
  acquired := List.replicate (VIDEOPLAYER_VIDEO_NUM_BUFFERED_FRAMES + 2) .frame
  freed := []

def acquire (d : Native) (k : ObjectKind) : Native := { d with acquired := d.acquired ++ [k] }

def next (d : Native) : Ptr := .object d.acquired.length

/-! ### `avformat_open_input` -/

/-- What the header is read from: the `pb` of the context, or the file of that name where there is none. -/
def source (d : Native) (filename : String) : Source :=
  match d.format.pb with
  | .object id =>
    match d.acquired[id]? with
    | some (.ioContext f) => .file f
    | _ => .reader d.customFuncData
  | _ => .file filename

/-- `avformat_open_input` on a context it is given: the `pb` counts as custom, also one it has opened itself. -/
def reopenInput (d : Native) (filename : String) : Native :=
  { d with format := { d.format with
      custom := d.format.custom || d.format.pb.id?.isSome
      opened := d.format.opened ++ [d.source filename] } }

/-- `avformat_open_input` on NULL: it allocates a context, and an I/O context unless the format needs none. -/
def newInput (d : Native) (filename : String) (a : Answers) : Native :=
  let d := { d.acquire .formatContext with formatContext := d.next, format := ⟨.null, false, [.file filename]⟩ }
  if a.openFile then { d.acquire (.ioContext filename) with format := { d.format with pb := d.next } } else d

def allocInput (d : Native) (filename : String) (a : Answers) : Native :=
  match d.formatContext with
  | .object _ => d.reopenInput filename
  | _ => d.newInput filename a

/-- The I/O context that is closed with the format context. -/
def ownContext (d : Native) : Option Nat := if d.format.custom then none else d.format.pb.id?

/-- A failed `avformat_open_input` and `avformat_close_input` free the context, also one they were given, and set the
pointer to NULL. -/
def closeInput (d : Native) : Native :=
  match d.formatContext with
  | .object id => { d with formatContext := .null, format := .empty, freed := d.freed ++ (d.ownContext.toList ++ [id]) }
  | _ => d

def openInput (d : Native) (filename : String) (a : Answers) : Native :=
  if a.openInput then d.allocInput filename a else (d.allocInput filename a).closeInput

/-! ## The functions -/

/-- `audioCodecContext = avcodec_alloc_context3(audioCodec)` -/
def allocAudioContext (d : Native) (a : Answers) : Native :=
  { d.acquire (.codecContext d.format.opened a.audioStreamIndex) with audioCodecContext := d.next }

/-- `swr_alloc_set_opts2(&swrContext, ..)`, which keeps a context it is given, and `swr_init(swrContext)`. -/
def allocSwr (d : Native) (a : Answers) : Native :=
  match d.swrContext with
  | .object _ => d
  | _ => { d.acquire (.swrContext a.initSwr) with swrContext := d.next }

/-- `loadContainer`, lines 197 to 233: the audio decoder and its resampler, of which neither answer is tested. -/
def loadAudio (d : Native) (a : Answers) : Option LoadResult × Native :=
  if a.audioStreamIndex < 0 then (none, d)
  else
    let d := d.allocAudioContext a
    if !a.openAudio then (some (.thrown (.runtimeError "Could not open audio decoder!")), d)
    -- where `swr_alloc_set_opts2` fails it sets the pointer to NULL
    else if !a.allocSwr then (some .crashed, d)
    else (none, d.allocSwr a)

/-- `av_frame_get_buffer` on a slot of `rgbFrames`; its answer is not tested. -/
def getBuffer (a : Answers) (d : Native) (i : Fin VIDEOPLAYER_VIDEO_NUM_BUFFERED_FRAMES) : Native :=
  if a.getBuffer i then { d.acquire .frameBuffer with rgbBuffers := Function.update d.rgbBuffers i d.next }
  else { d with rgbBuffers := Function.update d.rgbBuffers i .null }

/-- `swsContext = sws_getContext(..)`; its answer is not tested. -/
def getSws (d : Native) (a : Answers) : Native :=
  if a.getSws then { d.acquire .swsContext with swsContext := d.next } else { d with swsContext := .null }

/-- `loadContainer`, from line 235: the scaler, the buffers of the ring, and the decoding thread. -/
def loadVideo (d : Native) (a : Answers) : LoadResult × Native :=
  let d := (List.finRange VIDEOPLAYER_VIDEO_NUM_BUFFERED_FRAMES).foldl (getBuffer a) (d.getSws a)
  if !a.getBuffer 0 then (.crashed, d)
  else
    (.returned {
      videoBuffer := d.rgbBuffers ⟨0, Nat.zero_lt_succ 3⟩
      audioBuffer := decide (0 ≤ a.audioStreamIndex)
      videoBufferSize := a.bufferSize
      videoBufferWidth := a.lineSize / 3
      videoWidth := a.width
      videoHeight := a.height
      audioBufferSize := if 0 ≤ a.audioStreamIndex then VIDEOPLAYER_AUDIO_BUFFER_SIZE else 0
      audioChannels := if 0 ≤ a.audioStreamIndex then a.channels else 0
      audioSampleRate := if 0 ≤ a.audioStreamIndex then a.sampleRate else 0 },
    { d with videoFrameSize := some a.bufferSize, fileLoaded := true, started := a.threadCreated })

/-- The choice of the streams by `av_find_best_stream`. -/
def findStreams (d : Native) (a : Answers) : Native :=
  { d with videoStreamIndex := some a.videoStreamIndex, audioStreamIndex := some a.audioStreamIndex }

def allocVideoContext (d : Native) (a : Answers) : Native :=
  { d.acquire (.codecContext d.format.opened a.videoStreamIndex) with videoCodecContext := d.next }

def loadContainer (d : Native) (a : Answers) : LoadResult × Native :=
  let d := { d with currentFrameDisplayed := 0, totalFramesBuffered := 0 }
  if !a.findStreamInfo then (.thrown (.runtimeError "Could not find stream info!"), d)
  else
    let d := d.findStreams a
    if a.videoStreamIndex < 0 then (.thrown (.runtimeError "Could not find any video stream"), d)
    else
      let d := d.allocVideoContext a
      if !a.openVideo then (.thrown (.runtimeError "Could not open video decoder!"), d)
      else match d.loadAudio a with
        | (some r, d) => (r, d)
        | (none, d) => d.loadVideo a

def loadFile (d : Native) (filename : String) (a : Answers) : LoadResult × Native :=
  if d.fileLoaded then (.returned .zero, d)
  else if filename = "" then (.thrown (.invalidArgument "Filename should not be empty!"), d)
  else
    let d := d.openInput filename a
    if !a.openInput then (.thrown (.runtimeError "Could not open file!"), d) else d.loadContainer a

/-- `loadStream`, lines 141 to 149: the callbacks, the I/O context that reads through them, and a format context on
it. -/
def allocStream (d : Native) (fillFunc : Bool) (funcData : Option Nat) (cleanFunc : Bool) : Native :=
  let d := { d with fillBufferFunc := fillFunc, customFuncData := funcData, cleanupFunc := cleanFunc }
  let buffer := d.next
  let d := d.acquire .avioBuffer
  let d := { d.acquire .avioContext with avioContext := d.next, avioBuffer := buffer }
  { d.acquire .formatContext with formatContext := d.next, format := { FormatContext.empty with pb := d.avioContext } }

def loadStream (d : Native) (fillFunc : Bool) (funcData : Option Nat) (cleanFunc : Bool) (a : Answers) :
    LoadResult × Native :=
  if d.fileLoaded then (.returned .zero, d)
  else if !fillFunc then (.thrown (.invalidArgument "FillFileBufferFunc should be a valid function"), d)
  else
    let d := (d.allocStream fillFunc funcData cleanFunc).openInput "<stream>" a
    if !a.openInput then (.thrown (.runtimeError "Could not open file!"), d) else d.loadContainer a

end Native

/-! ## The calls -/

/-- An attempt to load, with what it is answered. -/
inductive Attempt
  | loadFile (filename : String) (a : Answers)
  | loadStream (fillFunc : Bool) (funcData : Option Nat) (cleanFunc : Bool) (a : Answers)

def Attempt.answers : Attempt → Answers
  | .loadFile _ a => a
  | .loadStream _ _ _ a => a

namespace Native

def attempt (d : Native) : Attempt → LoadResult × Native
  | .loadFile filename a => d.loadFile filename a
  | .loadStream fillFunc funcData cleanFunc a => d.loadStream fillFunc funcData cleanFunc a

/-- The attempt gets past the tests of its arguments: nothing has been loaded, and they are valid. -/
def tries (d : Native) : Attempt → Prop
  | .loadFile filename _ => d.fileLoaded = false ∧ filename ≠ ""
  | .loadStream fillFunc _ _ _ => d.fileLoaded = false ∧ fillFunc = true

instance (d : Native) : (t : Attempt) → Decidable (d.tries t)
  | .loadFile _ _ => inferInstanceAs (Decidable (_ ∧ _))
  | .loadStream _ _ _ _ => inferInstanceAs (Decidable (_ ∧ _))

/-- `updateAudioBuffer` allocates `audioDecodingBuffer` in its first call. -/
def allocDecodingBuffer (d : Native) : Native :=
  match d.audioDecodingBuffer with
  | .object _ => d
  | _ => { d.acquire .decodingBuffer with audioDecodingBuffer := d.next }

end Native

inductive Call
  | load (t : Attempt)
  | updateAudioBuffer

/-- One call; a crash ends the process. -/
def Native.call (d : Native) : Call → Option Native
  | .load t =>
    match d.attempt t with
    | (.crashed, _) => none
    | (_, d) => some d
  | .updateAudioBuffer => if d.fileLoaded then some d.allocDecodingBuffer else none

/-- **A decoder from its constructor on**: any calls in any order. -/
def lifetime : Conc.System Native Call := ⟨(· = .constructed), Native.call⟩

/-! ## The callbacks and the thread after an attempt -/

/-- FFmpeg's answers let `loadContainer` reach its end. -/
def Answers.loads (a : Answers) : Bool :=
  a.findStreamInfo && decide (0 ≤ a.videoStreamIndex) && a.openVideo &&
    (decide (a.audioStreamIndex < 0) || (a.openAudio && a.allocSwr)) && a.getBuffer 0

/-- The answers that `loadContainer` tests, each throwing an exception where it is not as wanted. -/
def Answers.tested (a : Answers) : Bool :=
  a.findStreamInfo && decide (0 ≤ a.videoStreamIndex) && a.openVideo && (decide (a.audioStreamIndex < 0) || a.openAudio)

namespace Native

/-- The callbacks, `fileLoaded` and the thread are left alone. -/
structure Keeps (d d' : Native) : Prop where
  fillBufferFunc : d'.fillBufferFunc = d.fillBufferFunc
  customFuncData : d'.customFuncData = d.customFuncData
  cleanupFunc : d'.cleanupFunc = d.cleanupFunc
  fileLoaded : d'.fileLoaded = d.fileLoaded
  started : d'.started = d.started

theorem Keeps.trans {d d' d'' : Native} (h : Keeps d d') (h' : Keeps d' d'') : Keeps d d'' :=
  ⟨h'.1.trans h.1, h'.2.trans h.2, h'.3.trans h.3, h'.4.trans h.4, h'.5.trans h.5⟩

theorem openInput_keeps (d : Native) (filename : String) (a : Answers) : Keeps d (d.openInput filename a) := by
  have halloc : Keeps d (d.allocInput filename a) := by
    rw [allocInput]
    split
    · exact ⟨rfl, rfl, rfl, rfl, rfl⟩
    · rw [newInput]
      dsimp only
      split_ifs <;> exact ⟨rfl, rfl, rfl, rfl, rfl⟩
  have hclose : Keeps (d.allocInput filename a) (d.allocInput filename a).closeInput := by
    rw [closeInput]
    split <;> exact ⟨rfl, rfl, rfl, rfl, rfl⟩
  rw [openInput]
  split_ifs
  · exact halloc
  · exact halloc.trans hclose

theorem allocSwr_keeps (d : Native) (a : Answers) : Keeps d (d.allocSwr a) := by
  rw [allocSwr]
  split <;> exact ⟨rfl, rfl, rfl, rfl, rfl⟩

theorem loadAudio_keeps (d : Native) (a : Answers) : Keeps d (d.loadAudio a).2 := by
  rw [loadAudio]
  split_ifs
  · exact ⟨rfl, rfl, rfl, rfl, rfl⟩
  · exact ⟨rfl, rfl, rfl, rfl, rfl⟩
  · exact ⟨rfl, rfl, rfl, rfl, rfl⟩
  · have hctx : Keeps d (d.allocAudioContext a) := ⟨rfl, rfl, rfl, rfl, rfl⟩
    exact hctx.trans (allocSwr_keeps _ a)

theorem loadAudio_ok (d : Native) (a : Answers) :
    (d.loadAudio a).1 = none ↔ (decide (a.audioStreamIndex < 0) || (a.openAudio && a.allocSwr)) = true := by
  rw [loadAudio]
  split_ifs <;> simp_all

theorem getBuffers_keeps (a : Answers) (is : List (Fin VIDEOPLAYER_VIDEO_NUM_BUFFERED_FRAMES)) (d : Native) :
    Keeps d (is.foldl (getBuffer a) d) := by
  induction is generalizing d with
  | nil => exact ⟨rfl, rfl, rfl, rfl, rfl⟩
  | cons i is ih =>
      refine Keeps.trans ?_ (ih _)
      rw [getBuffer]
      split_ifs <;> exact ⟨rfl, rfl, rfl, rfl, rfl⟩

/-- What an attempt does to the callbacks and the thread; `loaded` is whether it reaches its end. -/
structure LoadSpec (d : Native) (loaded created : Bool) (d' : Native) : Prop where
  fillBufferFunc : d'.fillBufferFunc = d.fillBufferFunc
  customFuncData : d'.customFuncData = d.customFuncData
  cleanupFunc : d'.cleanupFunc = d.cleanupFunc
  fileLoaded : d'.fileLoaded = (d.fileLoaded || loaded)
  started : d'.started = if loaded then created else d.started

theorem Keeps.loadSpec {d d' : Native} (h : Keeps d d') (created : Bool) : LoadSpec d false created d' :=
  ⟨h.fillBufferFunc, h.customFuncData, h.cleanupFunc, by rw [Bool.or_false, h.fileLoaded], h.started⟩

theorem Keeps.trans_loadSpec {d d' d'' : Native} {loaded created : Bool} (h : Keeps d d')
    (h' : LoadSpec d' loaded created d'') : LoadSpec d loaded created d'' :=
  ⟨h'.fillBufferFunc.trans h.fillBufferFunc, h'.customFuncData.trans h.customFuncData,
    h'.cleanupFunc.trans h.cleanupFunc,
    by rw [h'.fileLoaded, h.fileLoaded], by rw [h'.started, h.started]⟩

theorem loadVideo_spec (d : Native) (a : Answers) : LoadSpec d (a.getBuffer 0) a.threadCreated (d.loadVideo a).2 := by
  have hsws : Keeps d (d.getSws a) := by
    rw [getSws]
    split_ifs <;> exact ⟨rfl, rfl, rfl, rfl, rfl⟩
  have hbuf := hsws.trans (getBuffers_keeps a (List.finRange VIDEOPLAYER_VIDEO_NUM_BUFFERED_FRAMES) _)
  rw [loadVideo]
  cases hb : a.getBuffer 0 with
  | false => exact hbuf.loadSpec _
  | true => exact ⟨hbuf.fillBufferFunc, hbuf.customFuncData, hbuf.cleanupFunc, by rw [Bool.or_true]; rfl, rfl⟩

theorem loadVideo_result (d : Native) (a : Answers) :
    (a.getBuffer 0 = true ∧ ∃ b, (d.loadVideo a).1 = .returned b) ∨
      (a.getBuffer 0 = false ∧ (d.loadVideo a).1 = .crashed) := by
  rw [loadVideo]
  cases hb : a.getBuffer 0 with
  | false => exact Or.inr ⟨rfl, rfl⟩
  | true => exact Or.inl ⟨rfl, _, rfl⟩

/-- What `loadAudio` runs on: the counters reset, the streams found, and the video codec context allocated. -/
def prepared (d : Native) (a : Answers) : Native :=
  allocVideoContext (findStreams { d with currentFrameDisplayed := 0, totalFramesBuffered := 0 } a) a

inductive LoadMove (d : Native) (a : Answers) : LoadResult → Native → Prop
  | noInfo : a.findStreamInfo = false →
      LoadMove d a (.thrown (.runtimeError "Could not find stream info!"))
        { d with currentFrameDisplayed := 0, totalFramesBuffered := 0 }
  | noVideo : a.findStreamInfo = true → a.videoStreamIndex < 0 →
      LoadMove d a (.thrown (.runtimeError "Could not find any video stream"))
        (findStreams { d with currentFrameDisplayed := 0, totalFramesBuffered := 0 } a)
  | notOpened : a.findStreamInfo = true → 0 ≤ a.videoStreamIndex → a.openVideo = false →
      LoadMove d a (.thrown (.runtimeError "Could not open video decoder!")) (d.prepared a)
  | stopped {r : LoadResult} {d' : Native} : a.findStreamInfo = true → 0 ≤ a.videoStreamIndex → a.openVideo = true →
      (d.prepared a).loadAudio a = (some r, d') → LoadMove d a r d'
  | video {d' : Native} : a.findStreamInfo = true → 0 ≤ a.videoStreamIndex → a.openVideo = true →
      (d.prepared a).loadAudio a = (none, d') → LoadMove d a (d'.loadVideo a).1 (d'.loadVideo a).2

theorem loadContainer_move (d : Native) (a : Answers) :
    LoadMove d a (d.loadContainer a).1 (d.loadContainer a).2 := by
  rw [loadContainer]
  dsimp only
  split_ifs with hf hv ho
  · exact .noInfo (by simpa using hf)
  · exact .noVideo (by simpa using hf) hv
  · exact .notOpened (by simpa using hf) (by omega) (by simpa using ho)
  · have hf : a.findStreamInfo = true := by simpa using hf
    have ho : a.openVideo = true := by simpa using ho
    rcases hr : (d.prepared a).loadAudio a with ⟨_ | r, d'⟩
    · have he : (allocVideoContext (findStreams { d with currentFrameDisplayed := 0, totalFramesBuffered := 0 } a)
          a).loadAudio a = (none, d') := hr
      rw [he]
      exact .video hf (by omega) ho hr
    · have he : (allocVideoContext (findStreams { d with currentFrameDisplayed := 0, totalFramesBuffered := 0 } a)
          a).loadAudio a = (some r, d') := hr
      rw [he]
      exact .stopped hf (by omega) ho hr

theorem prepared_keeps (d : Native) (a : Answers) : Keeps d (d.prepared a) := ⟨rfl, rfl, rfl, rfl, rfl⟩

theorem Answers.loads_eq {a : Answers} (hf : a.findStreamInfo = true) (hv : 0 ≤ a.videoStreamIndex)
    (ho : a.openVideo = true) :
    a.loads = ((decide (a.audioStreamIndex < 0) || (a.openAudio && a.allocSwr)) && a.getBuffer 0) := by
  simp [Answers.loads, hf, ho, hv]

theorem Answers.tested_eq {a : Answers} (hf : a.findStreamInfo = true) (hv : 0 ≤ a.videoStreamIndex)
    (ho : a.openVideo = true) : a.tested = (decide (a.audioStreamIndex < 0) || a.openAudio) := by
  simp [Answers.tested, hf, ho, hv]

theorem Answers.loads_of_not_tested {a : Answers} (h : a.tested = false) : a.loads = false := by
  rw [Answers.loads, ← Bool.not_eq_true]
  simp_all [Answers.tested]

theorem loadContainer_spec (d : Native) (a : Answers) : LoadSpec d a.loads a.threadCreated (d.loadContainer a).2 := by
  have hmove := d.loadContainer_move a
  generalize (d.loadContainer a).1 = r, (d.loadContainer a).2 = d' at hmove ⊢
  cases hmove with
  | noInfo hf =>
      rw [show a.loads = false by simp [Answers.loads, hf]]
      refine Keeps.loadSpec ?_ _
      exact ⟨rfl, rfl, rfl, rfl, rfl⟩
  | noVideo hf hv =>
      rw [show a.loads = false by simp [Answers.loads, hv]]
      refine Keeps.loadSpec ?_ _
      exact ⟨rfl, rfl, rfl, rfl, rfl⟩
  | notOpened hf hv ho =>
      rw [show a.loads = false by simp [Answers.loads, ho]]
      exact (d.prepared_keeps a).loadSpec _
  | stopped hf hv ho hr =>
      have haudio := (d.prepared_keeps a).trans (loadAudio_keeps (d.prepared a) a)
      have hok := loadAudio_ok (d.prepared a) a
      rw [hr] at haudio hok
      rw [Answers.loads_eq hf hv ho, Bool.eq_false_iff.mpr fun h => nomatch hok.mpr h, Bool.false_and]
      exact haudio.loadSpec _
  | @video d' hf hv ho hr =>
      have haudio := (d.prepared_keeps a).trans (loadAudio_keeps (d.prepared a) a)
      have hok := loadAudio_ok (d.prepared a) a
      rw [hr] at haudio hok
      rw [Answers.loads_eq hf hv ho, hok.mp rfl, Bool.true_and]
      exact haudio.trans_loadSpec (loadVideo_spec d' a)

/-- How `loadContainer` ends: a tested answer throws, and without one it returns or crashes. -/
theorem loadContainer_result (d : Native) (a : Answers) :
    (a.tested = false ∧ ∃ e, (d.loadContainer a).1 = .thrown e) ∨
      (a.tested = true ∧ a.loads = true ∧ ∃ b, (d.loadContainer a).1 = .returned b) ∨
      (a.tested = true ∧ a.loads = false ∧ (d.loadContainer a).1 = .crashed) := by
  have hmove := d.loadContainer_move a
  generalize (d.loadContainer a).1 = r, (d.loadContainer a).2 = d' at hmove ⊢
  cases hmove with
  | noInfo hf => exact Or.inl ⟨by simp [Answers.tested, hf], _, rfl⟩
  | noVideo hf hv => exact Or.inl ⟨by simp [Answers.tested, hv], _, rfl⟩
  | notOpened hf hv ho => exact Or.inl ⟨by simp [Answers.tested, ho], _, rfl⟩
  | stopped hf hv ho hr =>
      rw [Answers.tested_eq hf hv ho, Answers.loads_eq hf hv ho]
      rw [loadAudio] at hr
      split_ifs at hr with hs hb hw <;> cases hr
      · exact Or.inl ⟨by simp_all, _, rfl⟩
      · exact Or.inr (Or.inr ⟨by simp_all, by simp_all, rfl⟩)
  | @video d' hf hv ho hr =>
      have hok := (loadAudio_ok (d.prepared a) a).mp (by rw [hr])
      have htested : (decide (a.audioStreamIndex < 0) || a.openAudio) = true := by
        simp only [Bool.or_eq_true, Bool.and_eq_true] at hok ⊢
        exact hok.imp_right And.left
      rw [Answers.tested_eq hf hv ho, Answers.loads_eq hf hv ho, hok, htested, Bool.true_and]
      exact Or.inr ((loadVideo_result d' a).imp (⟨rfl, ·⟩) (⟨rfl, ·⟩))

theorem loadStream_spec (d : Native) (data : Option Nat) (clean : Bool) (a : Answers) (h : d.fileLoaded = false) :
    LoadSpec { d with fillBufferFunc := true, customFuncData := data, cleanupFunc := clean } (a.openInput && a.loads)
      a.threadCreated (d.loadStream true data clean a).2 := by
  rw [loadStream, if_neg (by rw [h]; exact Bool.false_ne_true), if_neg (by decide)]
  have hopen := fun e : Native => openInput_keeps e "<stream>" a
  dsimp only
  split_ifs with ho
  · rw [show (a.openInput && a.loads) = false by simp_all]
    refine Keeps.loadSpec (Keeps.trans ?_ (hopen _)) _
    exact ⟨rfl, rfl, rfl, rfl, rfl⟩
  · rw [show (a.openInput && a.loads) = a.loads by simp_all]
    refine Keeps.trans_loadSpec (Keeps.trans ?_ (hopen _)) (loadContainer_spec _ a)
    exact ⟨rfl, rfl, rfl, rfl, rfl⟩

/-- An attempt on a decoder that has loaded is ignored. -/
theorem loadStream_loaded (d : Native) (fill : Bool) (data : Option Nat) (clean : Bool) (a : Answers)
    (h : d.fileLoaded = true) : d.loadStream fill data clean a = (.returned .zero, d) := by
  rw [loadStream, if_pos h]

/-! ## An attempt after its tests -/

theorem fileLoaded_of_tries {d : Native} {t : Attempt} (h : d.tries t) : d.fileLoaded = false := by
  cases t with
  | loadFile filename a => exact h.1
  | loadStream fillFunc funcData cleanFunc a => exact h.1

theorem attempt_refused {d : Native} {t : Attempt} (h : ¬ d.tries t) : (d.attempt t).2 = d := by
  cases t with
  | loadFile filename a =>
      rw [attempt, loadFile]
      split_ifs with hl hn
      · rfl
      · rfl
      · exact absurd ⟨by simpa using hl, hn⟩ h
      · exact absurd ⟨by simpa using hl, hn⟩ h
  | loadStream fillFunc funcData cleanFunc a =>
      rw [attempt, loadStream]
      split_ifs with hl hn
      · rfl
      · rfl
      · exact absurd ⟨by simpa using hl, by simpa using hn⟩ h
      · exact absurd ⟨by simpa using hl, by simpa using hn⟩ h

/-- The state in which `loadContainer` is called, or which a failed `avformat_open_input` leaves. -/
def entered (d : Native) : Attempt → Native
  | .loadFile filename a => d.openInput filename a
  | .loadStream fillFunc funcData cleanFunc a => (d.allocStream fillFunc funcData cleanFunc).openInput "<stream>" a

theorem attempt_tries {d : Native} {t : Attempt} (h : d.tries t) : d.attempt t =
    if t.answers.openInput then (d.entered t).loadContainer t.answers
    else (.thrown (.runtimeError "Could not open file!"), d.entered t) := by
  cases t with
  | loadFile filename a =>
      rw [attempt, loadFile, if_neg (by rw [h.1]; exact Bool.false_ne_true), if_neg h.2]
      cases ho : a.openInput <;> simp [Attempt.answers, ho, entered]
  | loadStream fillFunc funcData cleanFunc a =>
      rw [attempt, loadStream, if_neg (by rw [h.1]; exact Bool.false_ne_true), if_neg (by rw [h.2]; decide)]
      cases ho : a.openInput <;> simp [Attempt.answers, ho, entered]

theorem entered_fileLoaded (d : Native) (t : Attempt) : (d.entered t).fileLoaded = d.fileLoaded := by
  cases t with
  | loadFile filename a => exact (openInput_keeps d filename a).fileLoaded
  | loadStream fillFunc funcData cleanFunc a => exact (openInput_keeps _ _ a).fileLoaded

theorem attempt_result {d : Native} {t : Attempt} (h : d.tries t) :
    ((t.answers.openInput && t.answers.tested) = false ∧ (∃ e, (d.attempt t).1 = .thrown e) ∧
        (d.attempt t).2.fileLoaded = false) ∨
      ((t.answers.openInput && t.answers.tested) = true ∧ t.answers.loads = true ∧
        (∃ b, (d.attempt t).1 = .returned b) ∧ (d.attempt t).2.fileLoaded = true) ∨
      ((t.answers.openInput && t.answers.tested) = true ∧ t.answers.loads = false ∧ (d.attempt t).1 = .crashed) := by
  have hentered : (d.entered t).fileLoaded = false := (d.entered_fileLoaded t).trans (fileLoaded_of_tries h)
  rw [attempt_tries h]
  cases ho : t.answers.openInput with
  | false => exact Or.inl ⟨rfl, ⟨_, rfl⟩, hentered⟩
  | true =>
      have hspec := (loadContainer_spec (d.entered t) t.answers).fileLoaded
      rw [hentered, Bool.false_or] at hspec
      rw [if_pos rfl, Bool.true_and, hspec]
      rcases loadContainer_result (d.entered t) t.answers with ⟨ht, hr⟩ | ⟨ht, hl, hr⟩ | hr
      · exact Or.inl ⟨ht, hr, Answers.loads_of_not_tested ht⟩
      · exact Or.inr (Or.inl ⟨ht, hl, hr, hl⟩)
      · exact Or.inr (Or.inr hr)

theorem call_load {d d' : Native} {t : Attempt} (h : d.call (.load t) = some d') :
    d' = (d.attempt t).2 ∧ (d.attempt t).1 ≠ .crashed := by
  rw [call] at h
  rcases hr : d.attempt t with ⟨r, e⟩
  rw [hr] at h
  cases r with
  | crashed => cases h
  | returned b =>
      cases h
      exact ⟨rfl, nofun⟩
  | thrown err =>
      cases h
      exact ⟨rfl, nofun⟩

end Native

end ArcVideo
