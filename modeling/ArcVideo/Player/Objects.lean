import ArcVideo.Conc.System
import ArcVideo.Player.Player

/-!
# The objects behind the player

What the player may do with its decoders and textures is an automaton that reads the calls it makes.

* `Objects` : the status of every decoder and texture, and what the decoder asked last for a picture has reported;
* `objects` : the automaton. It rejects a call on an object that is not in the status the call needs, and a picture
  uploaded with sizes other than those of its decoder and of the texture;
* `Sound` : how the player's fields and the objects are related;
* `player_sound` : the automaton accepts the calls of every sequence of operations, and the relation holds after it.
-/

namespace ArcVideo
open Conc

/-! ## The automaton -/

inductive DecoderStatus
  | absent
  /-- Constructed; `loadStream` has not returned buffers. -/
  | made
  | loaded (b : VideoDecoderBuffers)
  | closed
  deriving DecidableEq

inductive TextureStatus
  | absent
  | live (width height : Nat)
  | disposed
  deriving DecidableEq

structure Objects where
  decoders : Nat → DecoderStatus
  textures : Nat → TextureStatus
  /-- What the decoder of the last `nextVideoFrame` has reported. -/
  producer : Option VideoDecoderBuffers

namespace Objects

variable {φ : Type}

def start : Objects := ⟨fun _ => .absent, fun _ => .absent, none⟩

def setDecoder (w : Objects) (d : Nat) (s : DecoderStatus) : Objects :=
  { w with decoders := Function.update w.decoders d s }

def setTexture (w : Objects) (t : Nat) (s : TextureStatus) : Objects :=
  { w with textures := Function.update w.textures t s }

/-- The effect of a call on the objects, `none` where it is not allowed. -/
def next (w : Objects) : Event φ → Option Objects
  | .newDecoder d => some (w.setDecoder d .made)
  | .loadStream d outcome =>
    match w.decoders d, outcome with
    | .made, .buffers b => some (w.setDecoder d (.loaded b))
    | .made, .null => some w
    | .made, .exception => some w
    | _, _ => none
  | .disposeDecoder d =>
    match w.decoders d with
    | .made | .loaded _ => some (w.setDecoder d .closed)
    | .absent | .closed => none
  | .nextVideoFrame d =>
    match w.decoders d with
    | .loaded b => some { w with producer := some b }
    | _ => none
  | .getCurrentFrameTimestamp d =>
    match w.decoders d with
    | .loaded _ => some w
    | _ => none
  | .newTexture t => some (w.setTexture t.id (.live t.width t.height))
  | .disposeTexture t =>
    match w.textures t with
    | .live _ _ => some (w.setTexture t .disposed)
    | _ => none
  | .setFilter t _ _ =>
    match w.textures t with
    | .live _ _ => some w
    | _ => none
  | .texImage t width height _ =>
    match w.producer with
    | some b =>
      if w.textures t = .live width height ∧ width = b.videoBufferWidth ∧ height = b.videoHeight then some w else none
    | none => none
  | .render none => none
  | .render (some t) =>
    match w.textures t with
    | .live _ _ => some w
    | _ => none
  | .openStream _ | .closeStream _ | .newChannel _ | .playAudio _ | .pauseAudio _ | .disposeAudio _ | .setVolume _ _
  | .onVideoSize _ _ | .onCompletion _ => some w

end Objects

/-- **The automaton of the allowed calls.** -/
def objects (φ : Type) : Automaton Objects (Event φ) := ⟨Objects.start, Objects.next⟩

/-! ## The relation -/

/-- The player's decoder is there and not closed, and loaded while it plays; its texture is there and fits the sizes of
the video; a frame to be shown again is in a texture. -/
structure Sound (p : Player) (w : Objects) : Prop where
  decoder : ∀ d, p.decoder = some d → w.decoders d = .made ∨ ∃ b, w.decoders d = .loaded b
  playing : p.playing = true → ∃ d b, p.decoder = some d ∧ w.decoders d = .loaded b ∧
    b.videoBufferWidth = p.videoBufferWidth ∧ b.videoHeight = p.currentVideoHeight
  texture : ∀ t, p.texture = some t → w.textures t.id = .live t.width t.height ∧
    t.width = p.videoBufferWidth ∧ t.height = p.currentVideoHeight
  shown : p.showAlreadyDecodedFrame = true → p.decoder.isSome = true ∧ p.texture.isSome = true

namespace Player

variable {φ : Type}

theorem sound_start (looping sizeListener completionListener : Bool) :
    Sound (Player.new looping sizeListener completionListener) Objects.start :=
  ⟨nofun, nofun, nofun, nofun⟩

structure SameVideo (p q : Player) : Prop where
  decoder : q.decoder = p.decoder
  playing : q.playing = p.playing
  texture : q.texture = p.texture
  showAlreadyDecodedFrame : q.showAlreadyDecodedFrame = p.showAlreadyDecodedFrame
  videoBufferWidth : q.videoBufferWidth = p.videoBufferWidth
  currentVideoHeight : q.currentVideoHeight = p.currentVideoHeight

theorem sound_congr {p q : Player} {w : Objects} (h : Sound p w) (hq : SameVideo p q) : Sound q w := by
  obtain ⟨hd, hp, ht, hs, hw, hh⟩ := hq
  refine ⟨?_, ?_, ?_, ?_⟩
  · rw [hd]
    exact h.decoder
  · rw [hd, hp, hw, hh]
    exact h.playing
  · rw [ht, hw, hh]
    exact h.texture
  · rw [hs, hd, ht]
    exact h.shown

theorem leads_audio (P : Objects → Prop) (a : Option Nat) (f : Nat → Event φ)
    (hf : ∀ n w, Objects.next w (f n) = some w) : (objects φ).Leads P (a.map f).toList P := by
  refine .stay fun e he w _ => ?_
  obtain ⟨n, -, rfl⟩ := Option.map_eq_some_iff.mp (Option.mem_toList.mp he)
  exact hf n w

/-! ## The methods -/

theorem leads_stop (p : Player) : (objects φ).Leads (Sound p) p.stop.2 (Sound (p.stop (φ := φ)).1) := by
  refine .append (.append (leads_audio _ _ _ fun _ _ => rfl) ?_) (leads_audio _ _ _ fun _ _ => rfl)
  cases hd : p.decoder with
  | none => exact .nil fun w h => ⟨nofun, nofun, h.texture, nofun⟩
  | some d =>
      refine .one fun w h => ⟨w.setDecoder d .closed, ?_, nofun, nofun, h.texture, nofun⟩
      rcases h.decoder d hd with hm | ⟨b, hb⟩
      · simp [objects, Objects.next, hm]
      · simp [objects, Objects.next, hb]

theorem leads_clean (p : Player) : (objects φ).Leads (Sound p) p.clean.2 (Sound (p.clean (φ := φ)).1) := by
  unfold clean
  split
  · exact leads_stop p
  · exact .nil fun _ => id

/-- Without a decoder nothing plays. -/
theorem sound_idle {p : Player} {w : Objects} (h : Sound p w) (hd : p.decoder = none) :
    p.playing = false ∧ p.showAlreadyDecodedFrame = false := by
  refine ⟨Bool.eq_false_iff.mpr fun hp => ?_, Bool.eq_false_iff.mpr fun hs => ?_⟩
  · obtain ⟨d, b, hd', -⟩ := h.playing hp
    rw [hd] at hd'
    cases hd'
  · have hd' := (h.shown hs).1
    rw [hd] at hd'
    cases hd'

structure Loaded (p : Player) (d : Nat) (b : VideoDecoderBuffers) (w : Objects) : Prop where
  sound : Sound p w
  decoder : p.decoder = some d
  loaded : w.decoders d = .loaded b
  unshown : p.showAlreadyDecodedFrame = false

theorem leads_openAudio (p : Player) (d : Nat) (b : VideoDecoderBuffers) (music : Option Nat) :
    (objects φ).Leads (Loaded p d b) (p.openAudio b music).2 (Loaded (p.openAudio (φ := φ) b music).1 d b) := by
  unfold openAudio
  split
  · refine (leads_audio (Loaded p d b) _ _ fun _ _ => rfl).mono (fun _ => id) fun w h => ?_
    exact ⟨sound_congr h.sound ⟨rfl, rfl, rfl, rfl, rfl, rfl⟩, h.decoder, h.loaded, h.unshown⟩
  · exact .nil fun _ => id

theorem leads_openVideo (p : Player) (d : Nat) (b : VideoDecoderBuffers) :
    (objects φ).Leads (Loaded p d b) (p.openVideo b).2 (Sound { (p.openVideo (φ := φ) b).1 with playing := true }) := by
  obtain ⟨t, es, he, hcases⟩ := openVideo_cases (φ := φ) p b
  rw [he]
  -- whatever becomes of the texture
  have hsound : ∀ w : Objects, p.decoder = some d → w.decoders d = .loaded b → p.showAlreadyDecodedFrame = false →
      (∀ u, t = some u → w.textures u.id = .live u.width u.height ∧ u.width = b.videoBufferWidth ∧
        u.height = b.videoHeight) →
      Sound { p with
        texture := t
        currentVideoWidth := b.videoWidth
        currentVideoHeight := b.videoHeight
        videoBufferWidth := b.videoBufferWidth
        playing := true } w := by
    intro w hd hb hs ht
    refine ⟨fun d' hd' => ?_, fun _ => ⟨d, b, hd, hb, rfl, rfl⟩, ht, fun hs' => nomatch hs.symm.trans hs'⟩
    cases hd.symm.trans hd'
    exact Or.inr ⟨b, hb⟩
  rcases hcases with ⟨rfl, rfl⟩ | ⟨u, hu, rfl, hwidth, hheight, rfl⟩
  · cases ht : p.texture with
    | none => exact .nil fun w h => hsound w h.decoder h.loaded h.unshown nofun
    | some u =>
        refine .one fun w h => ⟨w.setTexture u.id .disposed, ?_, hsound _ h.decoder h.loaded h.unshown nofun⟩
        have hlive := (h.sound.texture u ht).1
        simp [objects, Objects.next, hlive]
  · refine .nil fun w h => hsound w h.decoder h.loaded h.unshown fun v hv => ?_
    cases hv
    exact ⟨(h.sound.texture u hu).1, hwidth, hheight⟩

theorem leads_made {p : Player} (hd : p.decoder = none) (file : Fi) (stream d : Nat) :
    (objects φ).Leads (Sound p) [.openStream stream, .newChannel stream, .newDecoder d] (fun w =>
      Sound (p.making file stream d) w ∧ w.decoders d = .made ∧ p.playing = false ∧
        p.showAlreadyDecodedFrame = false) := by
  refine .cons (.one fun w h => ⟨w, rfl, h⟩) (.cons (.one fun w h => ⟨w, rfl, h⟩) (.one fun w h => ?_))
  obtain ⟨hp, hs⟩ := sound_idle h hd
  have hmade : (w.setDecoder d .made).decoders d = .made := Function.update_self _ _ _
  refine ⟨w.setDecoder d .made, rfl, ⟨fun d' hd' => ?_, ?_, h.texture, ?_⟩, hmade, hp, hs⟩
  · cases hd'
    exact Or.inl hmade
  · exact fun hp' => nomatch hp.symm.trans hp'
  · exact fun hs' => nomatch hs.symm.trans hs'

theorem leads_loaded {p : Player} (hd : p.decoder = none) (file : Fi) (stream d : Nat) (b : VideoDecoderBuffers) :
    (objects φ).Leads (Sound p) [.openStream stream, .newChannel stream, .newDecoder d, .loadStream d (.buffers b)]
      (Loaded (p.making file stream d) d b) := by
  refine (leads_made hd file stream d).append (.one fun w h => ?_)
  obtain ⟨hsound, hmade, hp, hs⟩ := h
  have hb : (w.setDecoder d (.loaded b)).decoders d = .loaded b := Function.update_self _ _ _
  refine ⟨w.setDecoder d (.loaded b), by simp [objects, Objects.next, hmade],
    ⟨⟨fun d' hd' => ?_, ?_, hsound.texture, hsound.shown⟩, rfl, hb, hs⟩⟩
  · cases hd'
    exact Or.inr ⟨b, hb⟩
  · exact fun hp' => nomatch hp.symm.trans hp'

theorem leads_notLoaded {p : Player} (hd : p.decoder = none) (file : Fi) (stream d : Nat) (outcome : LoadOutcome)
    (ho : ∀ b, outcome ≠ .buffers b) :
    (objects φ).Leads (Sound p) [.openStream stream, .newChannel stream, .newDecoder d, .loadStream d outcome]
      (Sound (p.making file stream d)) := by
  refine (leads_made hd file stream d).append (.one fun w h => ⟨w, ?_, h.1⟩)
  cases outcome with
  | buffers b => exact absurd rfl (ho b)
  | null => simp [objects, Objects.next, h.2.1]
  | exception => simp [objects, Objects.next, h.2.1]

/-- **The calls of `play`**, however it ends. -/
theorem leads_play (p : Player) (file : Option Fi) (e : PlayEnv) :
    (objects φ).Leads (Sound p) (p.play file e).events (Sound (p.play (φ := φ) file e).player) := by
  have hcalls : PlayCalls p file e _ _ := p.play_calls (φ := φ) file e
  generalize (p.play (φ := φ) file e).player = q at hcalls ⊢
  generalize (p.play (φ := φ) file e).events = es at hcalls ⊢
  have hclean := leads_clean (φ := φ) p
  have hnone := clean_decoder (φ := φ) p
  have hsame : ∀ {q : Player} {w : Objects}, SameVideo (p.clean (φ := φ)).1 q → Sound (p.clean (φ := φ)).1 w →
      Sound q w := fun hq h => sound_congr h hq
  cases hcalls with
  | refused => exact .nil fun _ => id
  | notRead f => exact hclean.mono (fun _ => id) fun _ => hsame ⟨rfl, rfl, rfl, rfl, rfl, rfl⟩
  | notMade f stream =>
      refine hclean.append (.cons (.one fun w h => ⟨w, rfl, h⟩) (.one fun w h => ⟨w, rfl, ?_⟩))
      exact hsame ⟨rfl, rfl, rfl, rfl, rfl, rfl⟩ h
  | notLoaded f stream d outcome _ ho => exact hclean.append (leads_notLoaded hnone f stream d outcome ho)
  | loaded f stream d b a v _ ha hv =>
      subst ha hv
      have hload := hclean.append (leads_loaded hnone f stream d b)
      have haudio := hload.append (leads_openAudio _ d b e.music)
      have hvideo := haudio.append (leads_openVideo _ d b)
      refine hvideo.append (.stay fun e he w _ => ?_)
      split at he
      · rw [List.mem_singleton.mp he]
        rfl
      · exact absurd he List.not_mem_nil

theorem leads_startClock (p : Player) (e : UpdateEnv φ) :
    (objects φ).Leads (Sound p) (p.startClock e).2 (Sound (p.startClock e).1) := by
  unfold startClock
  split
  · refine (leads_audio (Sound p) _ _ fun _ _ => rfl).mono (fun _ => id) fun w h => ?_
    exact sound_congr h ⟨rfl, rfl, rfl, rfl, rfl, rfl⟩
  · exact .nil fun _ => id

/-- The decoder `d` of the player has given a picture of the video that plays. -/
structure Produced (p : Player) (d : Nat) (w : Objects) : Prop where
  sound : Sound p w
  playing : p.playing = true
  producer : ∃ b, w.producer = some b ∧ b.videoBufferWidth = p.videoBufferWidth ∧ b.videoHeight = p.currentVideoHeight

theorem leads_nextVideoFrame {p : Player} {d : Nat} (hd : p.decoder = some d) (hp : p.playing = true) :
    (objects φ).Leads (Sound p) [.nextVideoFrame d] (Produced p d) := by
  refine .one fun w h => ?_
  obtain ⟨d', b, hd', hb, hwidth, hheight⟩ := h.playing hp
  cases hd.symm.trans hd'
  refine ⟨{ w with producer := some b }, by simp [objects, Objects.next, hb],
    ⟨h.decoder, h.playing, h.texture, h.shown⟩, hp, b, rfl, hwidth, hheight⟩

structure Showing (p : Player) (w : Objects) : Prop where
  sound : Sound p w
  playing : p.playing = true
  texture : p.texture.isSome = true

/-- A picture is uploaded with the sizes of its decoder, into a texture of these sizes. -/
theorem leads_upload (p : Player) (d : Nat) (e : UpdateEnv φ) (v : φ) :
    (objects φ).Leads (Produced p d) (p.upload e v).2 (Showing (p.upload e v).1) := by
  unfold upload
  cases ht : p.texture with
  | some t =>
      refine .one fun w h => ⟨w, ?_, h.sound, h.playing, by rw [ht]; rfl⟩
      obtain ⟨b, hb, hwidth, hheight⟩ := h.producer
      obtain ⟨hlive, htw, hth⟩ := h.sound.texture t ht
      simp [objects, Objects.next, hb, hlive, htw, hth, hwidth, hheight, getTextureWidth, getTextureHeight]
  | none =>
      have hnew : ∀ w : Objects, (w.setTexture e.texture (.live p.videoBufferWidth p.currentVideoHeight)).textures
          e.texture = .live p.videoBufferWidth p.currentVideoHeight := fun w => Function.update_self _ _ _
      refine .cons (.one (Q := fun w => Produced { p with
          texture := some ⟨e.texture, p.videoBufferWidth, p.currentVideoHeight⟩ } d w ∧
          w.textures e.texture = .live p.videoBufferWidth p.currentVideoHeight) fun w h => ⟨_, rfl, ?_, hnew w⟩)
        (.cons (.one fun w h => ⟨w, ?_, h⟩) (.one fun w h => ⟨w, ?_, h.1.sound, h.1.playing, rfl⟩))
      · refine ⟨⟨h.sound.decoder, h.sound.playing, fun t ht' => ?_, fun hs => ?_⟩, h.playing, h.producer⟩
        · cases ht'
          exact ⟨hnew w, rfl, rfl⟩
        · exact ⟨(h.sound.shown hs).1, rfl⟩
      · simp [objects, Objects.next, h.2]
      · obtain ⟨b, hb, hwidth, hheight⟩ := h.1.producer
        simp [objects, Objects.next, hb, h.2, hwidth, hheight, getTextureWidth, getTextureHeight]

/-- The frame is rendered from a texture that is there, and its timestamp asked of a decoder that has loaded. -/
theorem leads_showFrame (p : Player) (e : UpdateEnv φ) :
    (objects φ).Leads (Showing p) (p.showFrame e).2 (Sound (p.showFrame e).1) := by
  unfold showFrame renderVideoFrame
  intro w h
  obtain ⟨d, b, hd, hb, -⟩ := h.sound.playing h.playing
  obtain ⟨t, ht⟩ := Option.isSome_iff_exists.mp h.texture
  have hlive := (h.sound.texture t ht).1
  refine ⟨w, ?_, h.sound.decoder, h.sound.playing, h.sound.texture, fun _ => ⟨by rw [hd]; rfl, h.texture⟩⟩
  simp [Automaton.feed, objects, Objects.next, ht, hd, hlive, hb]

theorem leads_restart (p : Player) (e : UpdateEnv φ) :
    (objects φ).Leads (Sound p) (p.restart e).events (Sound (p.restart e).player) := by
  have hplay := leads_play (φ := φ) p p.currentFile e.play
  unfold restart
  dsimp only
  split
  · exact hplay.append (leads_audio _ _ _ fun _ _ => rfl)
  · exact hplay
  · exact hplay

theorem leads_noFrame (p : Player) (e : UpdateEnv φ) :
    (objects φ).Leads (Sound p) (p.noFrame e).events (Sound (p.noFrame e).player) := by
  unfold noFrame
  split
  · exact .nil fun _ => id
  split
  · exact leads_restart p e
  · have hended : ∀ w, Sound p w → Sound { p with playing := false } w := fun w h =>
      ⟨h.decoder, nofun, h.texture, h.shown⟩
    dsimp only
    split
    · exact .one fun w h => ⟨w, rfl, hended w h⟩
    · exact .nil hended

theorem leads_advance {p : Player} {d : Nat} (hd : p.decoder = some d) (hp : p.playing = true) (e : UpdateEnv φ) :
    (objects φ).Leads (Sound p) (p.advance d e).events (Sound (p.advance d e).player) := by
  have hnext := leads_nextVideoFrame (φ := φ) hd hp
  unfold advance
  split
  · cases e.videoData with
    | some v => exact (hnext.append (leads_upload p d e v)).append (leads_showFrame _ e)
    | none => exact (hnext.mono (fun _ => id) fun _ h => h.sound).append (leads_noFrame p e)
  next hs =>
    have hs : p.showAlreadyDecodedFrame = true := by simpa using hs
    exact (leads_showFrame p e).mono (fun w h => ⟨h, hp, (h.shown hs).2⟩) fun _ => id

/-- **The calls of `update`**, however it ends. -/
theorem leads_update (p : Player) (e : UpdateEnv φ) :
    (objects φ).Leads (Sound p) (p.update e).events (Sound (p.update e).player) := by
  cases ha : p.active with
  | false =>
      rw [update_of_inactive ha e]
      exact .nil fun _ => id
  | true =>
      obtain ⟨d, hd, hu⟩ := update_of_active ha e
      have hp : p.playing = true := by
        unfold active at ha
        exact (Bool.and_eq_true_iff.mp ha).2
      rw [hu]
      refine (leads_startClock p e).append (leads_advance ?_ ?_ e)
      · rw [startClock_eq]
        exact hd
      · rw [startClock_eq]
        exact hp

/-- **The calls of every operation.** -/
theorem leads_apply (p : Player) (op : Op φ) :
    (objects φ).Leads (Sound p) (p.apply op).events (Sound (p.apply op).player) := by
  have hsame : ∀ {q : Player} {w : Objects}, SameVideo p q → Sound p w → Sound q w := fun hq h => sound_congr h hq
  cases op with
  | play file e => exact leads_play p file e
  | update e => exact leads_update p e
  | pause now =>
      unfold apply done pause
      dsimp only
      split
      · exact .nil fun _ => id
      · exact (leads_audio _ _ _ fun _ _ => rfl).mono (fun _ => id) fun _ => hsame ⟨rfl, rfl, rfl, rfl, rfl, rfl⟩
  | resume now =>
      unfold apply done resume
      dsimp only
      split
      · exact (leads_audio _ _ _ fun _ _ => rfl).mono (fun _ => id) fun _ => hsame ⟨rfl, rfl, rfl, rfl, rfl, rfl⟩
      · exact .nil fun _ => id
  | stop => exact leads_stop p
  | dispose =>
      refine (leads_stop p).append ?_
      cases ht : p.texture with
      | none => exact .nil fun w h => ⟨h.decoder, h.playing, nofun, nofun⟩
      | some t =>
          refine .one fun w h => ⟨w.setTexture t.id .disposed, ?_, h.decoder, h.playing, nofun, nofun⟩
          have hlive := (h.texture t ht).1
          simp [objects, Objects.next, hlive]
  | setFilter minFilter magFilter =>
      unfold apply done setFilter
      dsimp only
      split
      · exact .nil fun _ => id
      · cases ht : p.texture with
        | none => exact .nil fun _ => hsame ⟨rfl, rfl, ht.symm, rfl, rfl, rfl⟩
        | some t =>
            refine .one fun w h => ⟨w, ?_, hsame ⟨rfl, rfl, ht.symm, rfl, rfl, rfl⟩ h⟩
            have hlive := (h.texture t ht).1
            simp [objects, Objects.next, hlive]
  | setVolume volume => exact leads_audio _ _ _ fun _ _ => rfl
  | setLooping looping => exact .nil fun _ => hsame ⟨rfl, rfl, rfl, rfl, rfl, rfl⟩
  | setOnVideoSizeListener listener => exact .nil fun _ => hsame ⟨rfl, rfl, rfl, rfl, rfl, rfl⟩
  | setOnCompletionListener listener => exact .nil fun _ => hsame ⟨rfl, rfl, rfl, rfl, rfl, rfl⟩

/-! ## Every sequence of operations -/

abbrev run (p : Player) (ops : List (Op φ)) : Player := (playerMachine φ).after p ops

def calls (p : Player) (ops : List (Op φ)) : List (Event φ) := ((playerMachine φ).trace p ops).flatMap Step.events

theorem leads_calls (p : Player) (ops : List (Op φ)) :
    (objects φ).Leads (Sound p) (p.calls ops) (Sound (p.run ops)) := by
  induction ops generalizing p with
  | nil => exact .nil fun _ => id
  | cons op ops ih => exact (leads_apply p op).append (ih (p.apply op).player)

/-- All calls `es` were allowed; while the player plays its decoder has loaded and is not closed; a frame to be shown
again is in a texture; and a texture it holds is not disposed of and has the sizes of the video. -/
def Invariant (p : Player) (es : List (Event φ)) : Prop :=
  ∃ w, (objects φ).feed Objects.start es = some w ∧
    (p.playing = true → ∃ d b, p.decoder = some d ∧ w.decoders d = .loaded b) ∧
    (p.showAlreadyDecodedFrame = true → p.texture.isSome = true) ∧
    ∀ t, p.texture = some t → w.textures t.id = .live t.width t.height ∧
      t.width = p.videoBufferWidth ∧ t.height = p.currentVideoHeight

end Player

/-- **The player's invariant**, for every sequence of operations on a new player, whatever each load and each
`nextVideoFrame` answers. -/
theorem player_sound {φ : Type} (looping sizeListener completionListener : Bool) (ops : List (Op φ)) :
    ((Player.new looping sizeListener completionListener).run ops).Invariant
      ((Player.new looping sizeListener completionListener).calls ops) := by
  obtain ⟨w, hw, hsound⟩ := Player.leads_calls _ ops _ (Player.sound_start looping sizeListener completionListener)
  refine ⟨w, hw, fun hplays => ?_, fun hs => (hsound.shown hs).2, hsound.texture⟩
  obtain ⟨d, b, hd, hb, -⟩ := hsound.playing hplays
  exact ⟨d, b, hd, hb⟩

end ArcVideo
