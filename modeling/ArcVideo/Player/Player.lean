import ArcVideo.Conc.Machine

/-!
# The player

`BaseVideoVideoPlayer`, one definition for each method.

* `Player` : the fields; objects (decoders, streams, music, textures) are known by a number;
* `PlayEnv`, `UpdateEnv` : what the calls a method makes answer: files, the native library and decoder, the clock;
* `Event` : the calls a method makes on the objects around it, in the order they are made;
* `Op`, `Player.apply`, `playerMachine` : the methods as the inputs of a machine, their results and events its outputs.

Times are in milliseconds and unbounded. Listeners return and do not call back.
-/

namespace ArcVideo

/-! ## The data -/

inductive TextureFilter
  | nearest | linear | mipMap | mipMapNearestNearest | mipMapLinearNearest | mipMapNearestLinear | mipMapLinearLinear
  deriving DecidableEq

structure Fi where
  path : String
  deriving DecidableEq

structure Texture where
  id : Nat
  width : Nat
  height : Nat
  deriving DecidableEq

/-- What `loadStream` returns; `audioBuffer` is whether there is one. -/
structure VideoDecoderBuffers where
  audioBuffer : Bool
  videoBufferWidth : Nat
  videoWidth : Nat
  videoHeight : Nat
  deriving DecidableEq

/-- How `loadStream` ends: `null` and an exception both make `play` return false. -/
inductive LoadOutcome
  | buffers (b : VideoDecoderBuffers)
  | null
  | exception
  deriving DecidableEq

/-- The exceptions that leave a method of the player. -/
inductive JavaException
  | fileNotFound (message : String)
  /-- An `Error` leaves the loading of the native library. -/
  | linkage
  /-- `Fi.read` throws. -/
  | read
  /-- The constructor of `VideoDecoder` throws: the native library is not loaded. -/
  | notLoaded
  /-- `new RuntimeException(e)` -/
  | runtime (cause : JavaException)
  deriving DecidableEq

/-- The fields of `BaseVideoVideoPlayer`. -/
structure Player where
  decoder : Option Nat
  texture : Option Texture
  audio : Option Nat
  startTime : Int
  showAlreadyDecodedFrame : Bool
  paused : Bool
  looping : Bool
  isFirstFrame : Bool
  timeBeforePause : Int
  currentVideoWidth : Nat
  currentVideoHeight : Nat
  videoBufferWidth : Nat
  /-- Whether the listeners are set. -/
  sizeListener : Bool
  videoCompletionListener : Bool
  currentFile : Option Fi
  inputStream : Option Nat
  fileChannel : Option Nat
  playing : Bool
  minFilter : TextureFilter
  magFilter : TextureFilter

/-- A player as its constructor leaves it, then given a looping flag and listeners. -/
def Player.new (looping sizeListener videoCompletionListener : Bool) : Player where
  decoder := none
  texture := none
  audio := none
  startTime := 0
  showAlreadyDecodedFrame := false
  paused := false
  looping := looping
  isFirstFrame := true
  timeBeforePause := 0
  currentVideoWidth := 0
  currentVideoHeight := 0
  videoBufferWidth := 0
  sizeListener := sizeListener
  videoCompletionListener := videoCompletionListener
  currentFile := none
  inputStream := none
  fileChannel := none
  playing := false
  minFilter := .linear
  magFilter := .linear

/-- The calls of the player on the objects around it; `φ` is the picture in a buffer. -/
inductive Event (φ : Type)
  | openStream (stream : Nat)
  | closeStream (stream : Nat)
  /-- `fileChannel` becomes a new channel of the stream. -/
  | newChannel (stream : Nat)
  | newDecoder (decoder : Nat)
  | loadStream (decoder : Nat) (outcome : LoadOutcome)
  | disposeDecoder (decoder : Nat)
  | nextVideoFrame (decoder : Nat)
  | getCurrentFrameTimestamp (decoder : Nat)
  | playAudio (audio : Nat)
  | pauseAudio (audio : Nat)
  | disposeAudio (audio : Nat)
  | setVolume (audio : Nat) (volume : Nat)
  | newTexture (texture : Texture)
  | disposeTexture (texture : Nat)
  | setFilter (texture : Nat) (minFilter magFilter : TextureFilter)
  /-- `texImage2D` into the texture bound. -/
  | texImage (texture : Nat) (width height : Nat) (videoData : φ)
  | render (texture : Option Nat)
  | onVideoSize (width height : Nat)
  | onCompletion (file : Option Fi)
  deriving DecidableEq

/-- A method has returned or thrown. -/
structure Step (φ α : Type) where
  result : Except JavaException α
  player : Player
  events : List (Event φ)

/-- What the calls in `play` answer. -/
structure PlayEnv where
  fileExists : Bool
  /-- `loadLibraries` and `setDebugLogging` return. -/
  libraries : Bool
  /-- `file.read`: the stream, or an exception. -/
  read : Option Nat
  /-- `new VideoDecoder()`: the decoder, or an exception. -/
  decoder : Option Nat
  load : LoadOutcome
  /-- `getMusic`, which is there to be overridden. -/
  music : Option Nat
  deriving DecidableEq

/-- What the calls in `update` answer. -/
structure UpdateEnv (φ : Type) where
  /-- The first `System.currentTimeMillis()`, when the clock is started. -/
  now : Int
  videoData : Option φ
  /-- The number of a new texture. -/
  texture : Nat
  /-- `System.currentTimeMillis()` after the frame was rendered. -/
  later : Int
  /-- `getCurrentTimestamp()` -/
  timestamp : Int
  /-- `audio.getVolume()`, in some unit; 0 is mute. -/
  volume : Nat
  /-- The restart of a looping video. -/
  play : PlayEnv
  deriving DecidableEq

/-! ## The methods -/

namespace Player

variable {φ : Type}

def getTextureWidth (p : Player) : Nat := p.videoBufferWidth

def getTextureHeight (p : Player) : Nat := p.currentVideoHeight

def isPlaying (p : Player) : Bool := p.playing

def stop (p : Player) : Player × List (Event φ) :=
  ({ p with
      playing := false
      audio := none
      decoder := none
      inputStream := none
      startTime := 0
      showAlreadyDecodedFrame := false
      isFirstFrame := true },
    (p.audio.map .disposeAudio).toList ++ (p.decoder.map .disposeDecoder).toList ++
      (p.inputStream.map .closeStream).toList)

/-- `play`: the audio of the new video, `audio.dispose()` and `getMusic` where there is an audio buffer. -/
def openAudio (p : Player) (b : VideoDecoderBuffers) (music : Option Nat) : Player × List (Event φ) :=
  if b.audioBuffer then ({ p with audio := music }, (p.audio.map .disposeAudio).toList) else (p, [])

/-- `play`: the sizes of the new video, and the texture when it does not fit them. -/
def openVideo (p : Player) (b : VideoDecoderBuffers) : Player × List (Event φ) :=
  let p := { p with
    currentVideoWidth := b.videoWidth
    currentVideoHeight := b.videoHeight
    videoBufferWidth := b.videoBufferWidth }
  match p.texture with
  | some t =>
    if t.width ≠ p.getTextureWidth ∨ t.height ≠ p.getTextureHeight then
      ({ p with texture := none }, [.disposeTexture t.id])
    else (p, [])
  | none => (p, [])

/-- `play`: stop the video before. -/
def clean (p : Player) : Player × List (Event φ) := if p.decoder.isSome then p.stop else (p, [])

def play (p : Player) (file : Option Fi) (e : PlayEnv) : Step φ Bool :=
  match file with
  | none => ⟨.ok false, p, []⟩
  | some file =>
    if !e.fileExists then ⟨.error (.fileNotFound ("Could not find file: " ++ file.path)), p, []⟩
    else if !e.libraries then ⟨.error .linkage, p, []⟩
    else
      let s := p.clean
      let p := { s.1 with currentFile := some file }
      match e.read with
      | none => ⟨.error .read, p, s.2⟩
      | some stream =>
        let p := { p with inputStream := some stream, fileChannel := some stream, isFirstFrame := true }
        match e.decoder with
        | none => ⟨.error .notLoaded, p, s.2 ++ [.openStream stream, .newChannel stream]⟩
        | some decoder =>
          let p := { p with decoder := some decoder }
          let opened := s.2 ++ [.openStream stream, .newChannel stream, .newDecoder decoder, .loadStream decoder e.load]
          match e.load with
          | .null => ⟨.ok false, p, opened⟩
          | .exception => ⟨.ok false, p, opened⟩
          | .buffers b =>
            let a := p.openAudio b e.music
            let v := a.1.openVideo b
            let p := v.1
            ⟨.ok true, { p with playing := true }, opened ++ a.2 ++ v.2 ++
              if p.sizeListener then [.onVideoSize p.currentVideoWidth p.currentVideoHeight] else []⟩

def getVolume (p : Player) (volume : Nat) : Nat := if p.audio.isSome then volume else 0

def setVolume (p : Player) (volume : Nat) : List (Event φ) := (p.audio.map fun a => .setVolume a volume).toList

/-- `update`: start the clock on the first update that is not paused. -/
def startClock (p : Player) (e : UpdateEnv φ) : Player × List (Event φ) :=
  if !p.paused && p.startTime == 0 then ({ p with startTime := e.now }, (p.audio.map .playAudio).toList) else (p, [])

/-- `update`: put the picture into the texture, a new one where there is none. -/
def upload (p : Player) (e : UpdateEnv φ) (videoData : φ) : Player × List (Event φ) :=
  match p.texture with
  | some t => (p, [.texImage t.id p.getTextureWidth p.getTextureHeight videoData])
  | none =>
    ({ p with texture := some ⟨e.texture, p.getTextureWidth, p.getTextureHeight⟩ },
      [.newTexture ⟨e.texture, p.getTextureWidth, p.getTextureHeight⟩,
        .setFilter e.texture p.minFilter p.magFilter,
        .texImage e.texture p.getTextureWidth p.getTextureHeight videoData])

def renderVideoFrame (p : Player) : List (Event φ) := [.render (p.texture.map Texture.id)]

/-- `update`: render the frame and test whether it is ahead of the clock. -/
def showFrame (p : Player) (e : UpdateEnv φ) : Player × List (Event φ) :=
  let currentVideoTime := e.later - p.startTime
  let millisecondsAhead := e.timestamp - currentVideoTime
  ({ p with isFirstFrame := false, showAlreadyDecodedFrame := decide (millisecondsAhead > 20) },
    p.renderVideoFrame ++ (p.decoder.map .getCurrentFrameTimestamp).toList)

/-- `update`: start the file again. -/
def restart (p : Player) (e : UpdateEnv φ) : Step φ Bool :=
  let volume := p.getVolume e.volume
  let s := p.play p.currentFile e.play
  match s.result with
  | .ok _ => ⟨.ok false, s.player, s.events ++ s.player.setVolume volume⟩
  | .error (.fileNotFound message) => ⟨.error (.runtime (.fileNotFound message)), s.player, s.events⟩
  | .error x => ⟨.error x, s.player, s.events⟩

/-- `update`: `nextVideoFrame` has returned NULL. -/
def noFrame (p : Player) (e : UpdateEnv φ) : Step φ Bool :=
  if p.isFirstFrame then ⟨.ok false, p, []⟩
  else if p.looping then p.restart e
  else ⟨.ok false, { p with playing := false }, if p.videoCompletionListener then [.onCompletion p.currentFile] else []⟩

/-- `update`: fetch and show a frame, or show again the one that is ahead of the clock. -/
def advance (p : Player) (decoder : Nat) (e : UpdateEnv φ) : Step φ Bool :=
  if !p.showAlreadyDecodedFrame then
    match e.videoData with
    | some videoData =>
      let u := p.upload e videoData
      let v := u.1.showFrame e
      ⟨.ok true, v.1, [.nextVideoFrame decoder] ++ u.2 ++ v.2⟩
    | none =>
      let r := p.noFrame e
      ⟨r.result, r.player, [.nextVideoFrame decoder] ++ r.events⟩
  else
    let v := p.showFrame e
    ⟨.ok false, v.1, v.2⟩

def update (p : Player) (e : UpdateEnv φ) : Step φ Bool :=
  match p.decoder with
  | none => ⟨.ok false, p, []⟩
  | some decoder =>
    if (!p.paused || p.isFirstFrame) && p.playing then
      let s := p.startClock e
      let r := s.1.advance decoder e
      ⟨r.result, r.player, s.2 ++ r.events⟩
    else ⟨.ok false, p, []⟩

def pause (p : Player) (now : Int) : Player × List (Event φ) :=
  if p.paused then (p, [])
  else
    ({ p with paused := true, timeBeforePause := if p.startTime ≠ 0 then now - p.startTime else 0 },
      (p.audio.map .pauseAudio).toList)

def resume (p : Player) (now : Int) : Player × List (Event φ) :=
  if p.paused then
    ({ p with paused := false, startTime := now - p.timeBeforePause }, (p.audio.map .playAudio).toList)
  else (p, [])

def dispose (p : Player) : Player × List (Event φ) :=
  let s := p.stop
  ({ s.1 with texture := none }, s.2 ++ (p.texture.map fun t => .disposeTexture t.id).toList)

def setFilter (p : Player) (minFilter magFilter : TextureFilter) : Player × List (Event φ) :=
  if p.minFilter = minFilter ∧ p.magFilter = magFilter then (p, [])
  else
    ({ p with minFilter := minFilter, magFilter := magFilter },
      (p.texture.map fun t => .setFilter t.id minFilter magFilter).toList)

end Player

/-! ## The player as a machine -/

inductive Op (φ : Type)
  | play (file : Option Fi) (e : PlayEnv)
  | update (e : UpdateEnv φ)
  | pause (now : Int)
  | resume (now : Int)
  | stop
  | dispose
  | setFilter (minFilter magFilter : TextureFilter)
  | setVolume (volume : Nat)
  | setLooping (looping : Bool)
  | setOnVideoSizeListener (listener : Bool)
  | setOnCompletionListener (listener : Bool)

namespace Player

variable {φ : Type}

def done (s : Player × List (Event φ)) : Step φ (Option Bool) := ⟨.ok none, s.1, s.2⟩

def answer (s : Step φ Bool) : Step φ (Option Bool) := ⟨s.result.map some, s.player, s.events⟩

def apply (p : Player) : Op φ → Step φ (Option Bool)
  | .play file e => answer (p.play file e)
  | .update e => answer (p.update e)
  | .pause now => done (p.pause now)
  | .resume now => done (p.resume now)
  | .stop => done p.stop
  | .dispose => done p.dispose
  | .setFilter minFilter magFilter => done (p.setFilter minFilter magFilter)
  | .setVolume volume => done (p, p.setVolume volume)
  | .setLooping looping => done ({ p with looping := looping }, [])
  | .setOnVideoSizeListener listener => done ({ p with sizeListener := listener }, [])
  | .setOnCompletionListener listener => done ({ p with videoCompletionListener := listener }, [])

/-! ## The ways a play ends -/

theorem clean_decoder (p : Player) : (p.clean (φ := φ)).1.decoder = none := by
  unfold clean
  split
  · rfl
  next h => simpa using h

theorem openAudio_eq (p : Player) (b : VideoDecoderBuffers) (music : Option Nat) :
    (p.openAudio (φ := φ) b music).1 = { p with audio := if b.audioBuffer then music else p.audio } := by
  unfold openAudio
  split <;> rfl

theorem openVideo_cases (p : Player) (b : VideoDecoderBuffers) :
    ∃ t es, p.openVideo (φ := φ) b = ({ p with
        texture := t
        currentVideoWidth := b.videoWidth
        currentVideoHeight := b.videoHeight
        videoBufferWidth := b.videoBufferWidth }, es) ∧
      (t = none ∧ es = (p.texture.map fun t => Event.disposeTexture t.id).toList ∨
        ∃ u, p.texture = some u ∧ t = some u ∧ u.width = b.videoBufferWidth ∧ u.height = b.videoHeight ∧ es = []) := by
  unfold openVideo
  cases p.texture with
  | none => exact ⟨none, [], by simp, Or.inl ⟨rfl, rfl⟩⟩
  | some u =>
      dsimp only
      split
      · exact ⟨none, _, rfl, Or.inl ⟨rfl, rfl⟩⟩
      next h =>
        simp only [getTextureWidth, getTextureHeight, ne_eq, not_or, not_not] at h
        exact ⟨some u, [], by simp, Or.inr ⟨u, rfl, rfl, h.1, h.2, rfl⟩⟩

theorem openVideo_eq (p : Player) (b : VideoDecoderBuffers) :
    ∃ t, (p.openVideo (φ := φ) b).1 = { p with
      texture := t
      currentVideoWidth := b.videoWidth
      currentVideoHeight := b.videoHeight
      videoBufferWidth := b.videoBufferWidth } := by
  obtain ⟨t, es, ht, -⟩ := openVideo_cases (φ := φ) p b
  exact ⟨t, congrArg Prod.fst ht⟩

theorem loaded_eq (p : Player) (b : VideoDecoderBuffers) (music : Option Nat) :
    ∃ t, ((p.openAudio (φ := φ) b music).1.openVideo (φ := φ) b).1 = { p with
      audio := if b.audioBuffer then music else p.audio
      texture := t
      currentVideoWidth := b.videoWidth
      currentVideoHeight := b.videoHeight
      videoBufferWidth := b.videoBufferWidth } := by
  obtain ⟨t, ht⟩ := openVideo_eq (φ := φ) (p.openAudio (φ := φ) b music).1 b
  exact ⟨t, by rw [ht, openAudio_eq]⟩

variable (φ) in
/-- The player once `play` has made a decoder. -/
def opened (p : Player) (file : Fi) (stream decoder : Nat) : Player :=
  { (p.clean (φ := φ)).1 with
    currentFile := some file
    inputStream := some stream
    fileChannel := some stream
    isFirstFrame := true
    decoder := some decoder }

variable (φ) in
/-- How `play` ends, and the player it leaves. -/
inductive Played (p : Player) (file : Option Fi) (e : PlayEnv) : Except JavaException Bool → Player → Prop
  | null : file = none → Played p file e (.ok false) p
  | notFound (f : Fi) : file = some f → e.fileExists = false →
      Played p file e (.error (.fileNotFound ("Could not find file: " ++ f.path))) p
  | linkage (f : Fi) : file = some f → e.fileExists = true → e.libraries = false → Played p file e (.error .linkage) p
  | notRead (f : Fi) : file = some f → e.fileExists = true → e.libraries = true → e.read = none →
      Played p file e (.error .read) { (p.clean (φ := φ)).1 with currentFile := some f }
  | notLoaded (f : Fi) (stream : Nat) : file = some f → e.fileExists = true → e.libraries = true →
      e.read = some stream → e.decoder = none →
      Played p file e (.error .notLoaded) { (p.clean (φ := φ)).1 with
        currentFile := some f
        inputStream := some stream
        fileChannel := some stream
        isFirstFrame := true }
  | notOpened (f : Fi) (stream decoder : Nat) : file = some f → e.fileExists = true → e.libraries = true →
      e.read = some stream → e.decoder = some decoder → (∀ b, e.load ≠ .buffers b) →
      Played p file e (.ok false) (p.opened φ f stream decoder)
  | started (f : Fi) (stream decoder : Nat) (b : VideoDecoderBuffers) (t : Option Texture) : file = some f →
      e.fileExists = true → e.libraries = true → e.read = some stream → e.decoder = some decoder →
      e.load = .buffers b →
      Played p file e (.ok true) { p.opened φ f stream decoder with
        audio := if b.audioBuffer then e.music else (p.opened φ f stream decoder).audio
        texture := t
        currentVideoWidth := b.videoWidth
        currentVideoHeight := b.videoHeight
        videoBufferWidth := b.videoBufferWidth
        playing := true }

/-- **Every way a play ends.** -/
theorem play_cases (p : Player) (file : Option Fi) (e : PlayEnv) :
    Played φ p file e (p.play (φ := φ) file e).result (p.play (φ := φ) file e).player := by
  unfold play
  cases file with
  | none => exact .null rfl
  | some f =>
      dsimp only
      split
      next h => exact .notFound f rfl (by simpa using h)
      next hf =>
        split
        next h => exact .linkage f rfl (by simpa using hf) (by simpa using h)
        next hl =>
          have hexists : e.fileExists = true := by simpa using hf
          have hlibs : e.libraries = true := by simpa using hl
          cases hr : e.read with
          | none => exact .notRead f rfl hexists hlibs hr
          | some stream =>
              dsimp only
              cases hd : e.decoder with
              | none => exact .notLoaded f stream rfl hexists hlibs hr hd
              | some decoder =>
                  dsimp only
                  cases hb : e.load with
                  | null => exact .notOpened f stream decoder rfl hexists hlibs hr hd (by simp [hb])
                  | exception => exact .notOpened f stream decoder rfl hexists hlibs hr hd (by simp [hb])
                  | buffers b =>
                      dsimp only
                      obtain ⟨t, ht⟩ := loaded_eq (φ := φ) (p.opened φ f stream decoder) b e.music
                      unfold opened at ht
                      rw [ht]
                      exact .started f stream decoder b t rfl hexists hlibs hr hd hb

/-- `play` comes to open a stream. -/
def opens (file : Option Fi) (e : PlayEnv) : Bool := file.isSome && e.fileExists && e.libraries && e.read.isSome

def opening (p : Player) (file : Fi) (stream : Nat) : Player :=
  { p with currentFile := some file, inputStream := some stream, fileChannel := some stream, isFirstFrame := true }

def making (p : Player) (file : Fi) (stream decoder : Nat) : Player :=
  { p.opening file stream with decoder := some decoder }

/-- The player `play` leaves and the calls it makes, by how far it comes. -/
inductive PlayCalls (p : Player) (file : Option Fi) (e : PlayEnv) : Player → List (Event φ) → Prop
  | refused : opens file e = false → PlayCalls p file e p []
  | notRead (f : Fi) : opens file e = false →
      PlayCalls p file e { (p.clean (φ := φ)).1 with currentFile := some f } p.clean.2
  | notMade (f : Fi) (stream : Nat) : opens file e = true →
      PlayCalls p file e ((p.clean (φ := φ)).1.opening f stream) (p.clean.2 ++ [.openStream stream, .newChannel stream])
  | notLoaded (f : Fi) (stream decoder : Nat) (outcome : LoadOutcome) : opens file e = true →
      (∀ b, outcome ≠ .buffers b) →
      PlayCalls p file e ((p.clean (φ := φ)).1.making f stream decoder) (p.clean.2 ++
        [.openStream stream, .newChannel stream, .newDecoder decoder, .loadStream decoder outcome])
  | loaded (f : Fi) (stream decoder : Nat) (b : VideoDecoderBuffers) (a v : Player × List (Event φ)) :
      opens file e = true → a = ((p.clean (φ := φ)).1.making f stream decoder).openAudio b e.music →
      v = a.1.openVideo b →
      PlayCalls p file e { v.1 with playing := true } (p.clean.2 ++
        [.openStream stream, .newChannel stream, .newDecoder decoder, .loadStream decoder (.buffers b)] ++ a.2 ++ v.2 ++
        if v.1.sizeListener then [.onVideoSize v.1.currentVideoWidth v.1.currentVideoHeight] else [])

/-- **The calls of a play.** -/
theorem play_calls (p : Player) (file : Option Fi) (e : PlayEnv) :
    PlayCalls p file e (p.play (φ := φ) file e).player (p.play (φ := φ) file e).events := by
  unfold play
  cases hf : file with
  | none => exact .refused (by simp [opens])
  | some f =>
      dsimp only
      split
      next h => exact .refused (by simp [opens, show e.fileExists = false by simpa using h])
      next hx =>
      split
      next h => exact .refused (by simp [opens, show e.libraries = false by simpa using h])
      next hl =>
      cases hr : e.read with
      | none => exact .notRead f (by simp [opens, hr])
      | some stream =>
          have ho : opens (some f) e = true := by
            simp [opens, hr, show e.fileExists = true by simpa using hx, show e.libraries = true by simpa using hl]
          dsimp only
          cases e.decoder with
          | none => exact .notMade f stream ho
          | some decoder =>
              dsimp only
              cases e.load with
              | null => exact .notLoaded f stream decoder .null ho nofun
              | exception => exact .notLoaded f stream decoder .exception ho nofun
              | buffers b => exact .loaded f stream decoder b _ _ ho rfl rfl

theorem play_result (p q : Player) (file : Option Fi) (e : PlayEnv) :
    (p.play (φ := φ) file e).result = (q.play (φ := φ) file e).result := by
  unfold play
  cases file with
  | none => rfl
  | some f =>
      dsimp only
      split
      · rfl
      split
      · rfl
      cases e.read with
      | none => rfl
      | some stream =>
          dsimp only
          cases e.decoder with
          | none => rfl
          | some decoder => cases e.load <;> rfl

/-- The player a successful play leaves. -/
theorem play_started {p : Player} {file : Option Fi} {e : PlayEnv}
    (h : (p.play (φ := φ) file e).result = .ok true) :
    ∃ f stream decoder b t, file = some f ∧ e.read = some stream ∧ e.decoder = some decoder ∧ e.load = .buffers b ∧
      (p.play (φ := φ) file e).player = { p.opened φ f stream decoder with
        audio := if b.audioBuffer then e.music else (p.opened φ f stream decoder).audio
        texture := t
        currentVideoWidth := b.videoWidth
        currentVideoHeight := b.videoHeight
        videoBufferWidth := b.videoBufferWidth
        playing := true } := by
  have hp : Played φ p file e _ _ := p.play_cases file e
  rw [h] at hp
  generalize (p.play (φ := φ) file e).player = p' at hp ⊢
  cases hp with
  | started f stream decoder b t hf _ _ hr hd hb => exact ⟨f, stream, decoder, b, t, hf, hr, hd, hb, rfl⟩

/-! ## The ways an update ends -/

theorem upload_eq (p : Player) (e : UpdateEnv φ) (v : φ) : ∃ t, (p.upload e v).1 = { p with texture := t } := by
  unfold upload
  cases ht : p.texture with
  | none => exact ⟨_, rfl⟩
  | some u =>
      refine ⟨some u, ?_⟩
      dsimp only
      rw [← ht]

theorem startClock_eq (p : Player) (e : UpdateEnv φ) :
    (p.startClock e).1 = { p with
      startTime := if !p.paused && p.startTime == 0 then e.now else p.startTime } := by
  unfold startClock
  split <;> rfl

theorem restart_player (p : Player) (e : UpdateEnv φ) :
    (p.restart e).player = (p.play (φ := φ) p.currentFile e.play).player := by
  unfold restart
  dsimp only
  split <;> rfl

def active (p : Player) : Bool := p.decoder.isSome && (!p.paused || p.isFirstFrame) && p.playing

/-- How `update` ends, and the player it leaves. -/
inductive Updated (p : Player) (e : UpdateEnv φ) : Except JavaException Bool → Player → Prop
  | inactive : p.active = false → Updated p e (.ok false) p
  | shown (v : φ) (t : Option Texture) : p.active = true → p.showAlreadyDecodedFrame = false →
      e.videoData = some v →
      Updated p e (.ok true) (showFrame { (p.startClock e).1 with texture := t } e).1
  | starved : p.active = true → p.showAlreadyDecodedFrame = false → e.videoData = none → p.isFirstFrame = true →
      Updated p e (.ok false) (p.startClock e).1
  | restarted : p.active = true → p.showAlreadyDecodedFrame = false → e.videoData = none → p.isFirstFrame = false →
      p.looping = true →
      Updated p e ((p.startClock e).1.restart e).result ((p.startClock e).1.restart e).player
  | ended : p.active = true → p.showAlreadyDecodedFrame = false → e.videoData = none → p.isFirstFrame = false →
      p.looping = false → Updated p e (.ok false) { (p.startClock e).1 with playing := false }
  | again : p.active = true → p.showAlreadyDecodedFrame = true →
      Updated p e (.ok false) ((p.startClock e).1.showFrame e).1

theorem update_of_active {p : Player} (h : p.active = true) (e : UpdateEnv φ) :
    ∃ decoder, p.decoder = some decoder ∧
      p.update e = ⟨((p.startClock e).1.advance decoder e).result, ((p.startClock e).1.advance decoder e).player,
        (p.startClock e).2 ++ ((p.startClock e).1.advance decoder e).events⟩ := by
  simp only [active, Bool.and_eq_true, Option.isSome_iff_exists] at h
  obtain ⟨⟨⟨decoder, hd⟩, hf⟩, hp⟩ := h
  refine ⟨decoder, hd, ?_⟩
  unfold update
  simp only [hd, hf, hp, Bool.and_self, if_true]

theorem update_of_inactive {p : Player} (h : p.active = false) (e : UpdateEnv φ) : p.update e = ⟨.ok false, p, []⟩ := by
  unfold active at h
  unfold update
  cases hd : p.decoder with
  | none => rfl
  | some decoder =>
      simp only [hd, Option.isSome_some, Bool.true_and] at h
      simp only [h, Bool.false_eq_true, if_false]

/-- **Every way an update ends.** -/
theorem update_cases (p : Player) (e : UpdateEnv φ) : Updated p e (p.update e).result (p.update e).player := by
  cases ha : p.active with
  | false =>
      rw [update_of_inactive ha e]
      exact .inactive ha
  | true =>
      obtain ⟨decoder, -, hu⟩ := update_of_active ha e
      have hs : (p.startClock e).1.showAlreadyDecodedFrame = p.showAlreadyDecodedFrame := by rw [startClock_eq]
      have hf : (p.startClock e).1.isFirstFrame = p.isFirstFrame := by rw [startClock_eq]
      have hl : (p.startClock e).1.looping = p.looping := by rw [startClock_eq]
      rw [hu]
      unfold advance noFrame
      split
      next h =>
        have h : p.showAlreadyDecodedFrame = false := by simpa [hs] using h
        cases hv : e.videoData with
        | some v =>
            obtain ⟨t, ht⟩ := upload_eq (p.startClock e).1 e v
            dsimp only
            rw [ht]
            exact .shown v t ha h hv
        | none =>
            dsimp only
            split
            next hff => exact .starved ha h hv (hf.symm.trans hff)
            next hff =>
              have hff : p.isFirstFrame = false := by simpa [hf] using hff
              split
              next hll => exact .restarted ha h hv hff (hl.symm.trans hll)
              next hll => exact .ended ha h hv hff (by simpa [hl] using hll)
      next h => exact .again ha (by simpa [hs] using h)

theorem update_shown {p : Player} {e : UpdateEnv φ} {v : φ} (ha : p.active = true)
    (hs : p.showAlreadyDecodedFrame = false) (hv : e.videoData = some v) :
    ∃ t, (p.update e).player = (showFrame { (p.startClock e).1 with texture := t } e).1 := by
  have hu : Updated p e _ _ := p.update_cases e
  generalize (p.update e).player = p' at hu ⊢
  generalize (p.update e).result = r at hu
  cases hu with
  | inactive ha' => simp [ha] at ha'
  | shown v t => exact ⟨t, rfl⟩
  | starved _ _ hn => simp [hv] at hn
  | restarted _ _ hn => simp [hv] at hn
  | ended _ _ hn => simp [hv] at hn
  | again _ hs' => simp [hs] at hs'

/-- The next update calls `nextVideoFrame`. -/
def fetches (p : Player) : Bool := p.active && !p.showAlreadyDecodedFrame

theorem update_fetches_iff (p : Player) (e : UpdateEnv φ) :
    (∃ decoder, Event.nextVideoFrame decoder ∈ (p.update e).events) ↔ p.fetches = true := by
  unfold fetches
  cases ha : p.active with
  | false =>
      rw [update_of_inactive ha e]
      simp
  | true =>
      obtain ⟨decoder, -, hu⟩ := update_of_active ha e
      have hs : (p.startClock e).1.showAlreadyDecodedFrame = p.showAlreadyDecodedFrame := by rw [startClock_eq]
      have hc : ∀ d, Event.nextVideoFrame d ∉ (p.startClock e).2 := by
        intro d
        unfold startClock
        split <;> simp
      rw [hu]
      unfold advance
      rw [hs]
      cases p.showAlreadyDecodedFrame with
      | false =>
          refine ⟨fun _ => rfl, fun _ => ⟨decoder, ?_⟩⟩
          cases e.videoData <;> simp
      | true => simp [hc, showFrame, renderVideoFrame]

/-- After an update that showed a picture, the next one fetches unless the player is paused or the picture early. -/
theorem update_shown_fetches {p : Player} {e : UpdateEnv φ} {v : φ} (ha : p.active = true)
    (hs : p.showAlreadyDecodedFrame = false) (hv : e.videoData = some v) :
    (p.update e).player.fetches = (!p.paused &&
      !decide (e.timestamp - (e.later - if !p.paused && p.startTime == 0 then e.now else p.startTime) > 20)) := by
  obtain ⟨t, ht⟩ := update_shown ha hs hv
  simp only [active, Bool.and_eq_true] at ha
  obtain ⟨⟨hd, -⟩, hp⟩ := ha
  rw [ht, startClock_eq]
  simp [fetches, active, showFrame, hd, hp]

end Player

/-- The player, with everything a method does as its output. -/
def playerMachine (φ : Type) : Conc.Machine Player (Op φ) (Step φ (Option Bool)) where
  next p op := (p.apply op).player
  output p op := p.apply op

end ArcVideo
