import Mathlib.Tactic.Ring
import ArcVideo.Picture.Upload
import ArcVideo.Player.Playback

/-!
# What is drawn

`renderVideoFrame` draws a region of the texture, which `update` filled with a slot of the ring.

* `TextureRegion`, `View`, `Player.drawn` : the region drawn, by the player or by a `VideoViewer`, and its size;
* `OnlyDecoded` : the region lies in the columns of the video and is drawn in its proportions;
* `Reported` : the sizes of the video come from a load;
* `Sized` : what a player with a texture knows about its sizes, kept by every operation (`sized_apply`);
* `only_decoded_iff` : only decoded pixels are drawn if and only if the width of the video is a multiple of 32.
-/

namespace ArcVideo
open Conc

/-! ## The region drawn -/

structure TextureRegion where
  x : Nat
  y : Nat
  width : Nat
  height : Nat

def TextureRegion.Selects (r : TextureRegion) (x y : Nat) : Prop :=
  r.x ≤ x ∧ x < r.x + r.width ∧ r.y ≤ y ∧ y < r.y + r.height

/-- A call of `Draw.rect`: the region, and the size when it is given one. -/
structure Drawn where
  region : TextureRegion
  size : Option (ℚ × ℚ)

inductive View
  | baseVideoVideoPlayer
  | videoViewer

/-- What `renderVideoFrame` draws; `set` is `TextureRegion.set`. -/
def Player.drawn (set : Texture → TextureRegion) (p : Player) : View → Option Drawn
  | .baseVideoVideoPlayer => p.texture.map fun t => ⟨set t, none⟩
  | .videoViewer => p.texture.map fun t => ⟨set t, some ((p.currentVideoWidth : ℚ) / 2, (p.currentVideoHeight : ℚ) / 2)⟩

/-- The region is in the columns of a video of these sizes, and is not squeezed. -/
structure OnlyDecoded (d : Drawn) (videoWidth videoHeight : Nat) : Prop where
  columns : ∀ x y, d.region.Selects x y → x < videoWidth
  proportions : ∀ s, d.size = some s → s.1 * d.region.height = s.2 * d.region.width

/-- The whole texture is drawn in the proportions of the video if and only if it is as wide. -/
theorem onlyDecoded_iff {d : Drawn} {w h width : Nat} (hregion : d.region = ⟨0, 0, width, h⟩)
    (hsize : ∀ s, d.size = some s → s = ((w : ℚ) / 2, (h : ℚ) / 2)) (hw : w ≤ width) (hpos : 0 < w) (hh : 0 < h) :
    OnlyDecoded d w h ↔ width = w := by
  constructor
  · intro hd
    have hlast : d.region.Selects (width - 1) 0 := by
      rw [hregion]
      unfold TextureRegion.Selects
      dsimp only
      omega
    have := hd.columns _ _ hlast
    omega
  · rintro rfl
    refine ⟨fun x y hxy => ?_, fun s hs => ?_⟩
    · rw [hregion] at hxy
      have := hxy.2.1
      dsimp only at this
      omega
    · rw [hsize s hs, hregion]
      ring

/-! ## The sizes -/

/-- The sizes of the video are those of a load whose slots have their buffers from `av_frame_get_buffer`. -/
def Reported (b : VideoDecoderBuffers) : Prop :=
  ∃ (a : Answers) (sizeMax : Nat) (allocated : Nat → Bool) (slots : Nat → ImageFrame) (d : Native)
    (info : VideoBufferInfo), a.Buffers sizeMax allocated slots ∧ (d.loadVideo a).1 = .returned info ∧
      b.videoBufferWidth = info.videoBufferWidth ∧ b.videoWidth = info.videoWidth ∧ b.videoHeight = info.videoHeight

/-- The sizes a load can report. -/
structure Sizes (videoBufferWidth videoWidth videoHeight : Nat) : Prop where
  buffer : videoBufferWidth = roundUp 32 videoWidth
  width : 0 < videoWidth
  height : 0 < videoHeight

theorem sizes_of_reported {b : VideoDecoderBuffers} (h : Reported b) :
    Sizes b.videoBufferWidth b.videoWidth b.videoHeight := by
  obtain ⟨a, sizeMax, allocated, slots, d, info, hb, hinfo, hbw, hw, hh⟩ := h
  obtain ⟨hget, -, -, hinfow, hinfoh, -⟩ := loadVideo_returned hinfo
  obtain ⟨-, hs, -⟩ := hb.slot_eq (show 0 < 4 by decide) hget
  have hreported := (hb.reported hinfo).1
  rw [hbw, hw, hh, hinfow, hinfoh]
  exact ⟨hreported, hs.width, hs.height⟩

def Op.load {φ : Type} : Op φ → Option LoadOutcome
  | .play _ e => some e.load
  | .update e => some e.play.load
  | _ => none

/-- Whatever an operation loads, the sizes are reported. -/
def Op.LoadsReported {φ : Type} (op : Op φ) : Prop := ∀ b, op.load = some (.buffers b) → Reported b

namespace Player

variable {φ : Type}

/-- While the player plays or holds a texture, its sizes are those of a load. -/
def Sized (p : Player) : Prop :=
  p.playing = true ∨ p.texture.isSome = true → Sizes p.videoBufferWidth p.currentVideoWidth p.currentVideoHeight

theorem Sized.mono {p q : Player} (h : Sized p) (hplaying : q.playing = true → p.playing = true)
    (htexture : q.texture = p.texture) (hwidth : q.videoBufferWidth = p.videoBufferWidth)
    (hw : q.currentVideoWidth = p.currentVideoWidth) (hh : q.currentVideoHeight = p.currentVideoHeight) : Sized q := by
  unfold Sized
  rw [hwidth, hw, hh, htexture]
  intro hq
  exact h (hq.imp_left hplaying)

theorem sized_stop {p : Player} (h : Sized p) : Sized (p.stop (φ := φ)).1 := h.mono nofun rfl rfl rfl rfl

theorem sized_clean {p : Player} (h : Sized p) : Sized (p.clean (φ := φ)).1 := by
  unfold clean
  split
  · exact sized_stop h
  · exact h

theorem sized_play {p : Player} (h : Sized p) (file : Option Fi) {e : PlayEnv}
    (hload : ∀ b, e.load = .buffers b → Reported b) : Sized (p.play (φ := φ) file e).player := by
  have hclean := sized_clean (φ := φ) h
  have hplay : Played φ p file e _ _ := p.play_cases file e
  generalize (p.play (φ := φ) file e).player = q at hplay ⊢
  generalize (p.play (φ := φ) file e).result = r at hplay
  cases hplay with
  | null | notFound | linkage => exact h
  | notRead | notLoaded | notOpened => exact hclean.mono id rfl rfl rfl rfl
  | started f stream decoder b t _ _ _ _ _ hb => exact fun _ => sizes_of_reported (hload b hb)

theorem sized_startClock {p : Player} (h : Sized p) (e : UpdateEnv φ) : Sized (p.startClock e).1 := by
  rw [startClock_eq]
  exact h.mono id rfl rfl rfl rfl

theorem sized_update {p : Player} (h : Sized p) {e : UpdateEnv φ}
    (hload : ∀ b, e.play.load = .buffers b → Reported b) : Sized (p.update e).player := by
  have hclock := sized_startClock h e
  have hupdate : Updated p e _ _ := p.update_cases e
  generalize (p.update e).player = q at hupdate ⊢
  generalize (p.update e).result = r at hupdate
  cases hupdate with
  | inactive => exact h
  | shown v t ha =>
      have hplaying : p.playing = true := by
        unfold active at ha
        exact (Bool.and_eq_true_iff.mp ha).2
      intro _
      rw [startClock_eq]
      exact h (Or.inl hplaying)
  | starved => exact hclock
  | restarted =>
      rw [restart_player]
      exact sized_play hclock _ hload
  | ended => exact hclock.mono nofun rfl rfl rfl rfl
  | again => exact hclock.mono id rfl rfl rfl rfl

/-- **Every operation keeps the sizes.** -/
theorem sized_apply {p : Player} (h : Sized p) {op : Op φ} (hop : op.LoadsReported) : Sized (p.apply op).player := by
  cases op with
  | play file e => exact sized_play h file fun b hb => hop b (congrArg some hb)
  | update e => exact sized_update h fun b hb => hop b (congrArg some hb)
  | pause now =>
      unfold apply done pause
      dsimp only
      split
      · exact h
      · exact h.mono id rfl rfl rfl rfl
  | resume now =>
      unfold apply done resume
      dsimp only
      split
      · exact h.mono id rfl rfl rfl rfl
      · exact h
  | stop => exact sized_stop (φ := φ) h
  | dispose =>
      rintro (hplaying | htexture)
      · exact absurd hplaying Bool.false_ne_true
      · exact absurd htexture Bool.false_ne_true
  | setFilter minFilter magFilter =>
      unfold apply done setFilter
      dsimp only
      split
      · exact h
      · exact h.mono id rfl rfl rfl rfl
  | setVolume volume => exact h
  | setLooping looping => exact h.mono id rfl rfl rfl rfl
  | setOnVideoSizeListener listener => exact h.mono id rfl rfl rfl rfl
  | setOnCompletionListener listener => exact h.mono id rfl rfl rfl rfl

theorem sized_run {ops : List (Op φ)} :
    ∀ {p : Player}, Sized p → (∀ op ∈ ops, op.LoadsReported) → Sized (p.run ops) := by
  induction ops with
  | nil => exact fun h _ => h
  | cons op ops ih =>
      intro p h hops
      exact ih (sized_apply h (hops op List.mem_cons_self)) fun o ho => hops o (List.mem_cons_of_mem op ho)

/-! ## The calls of renderVideoFrame -/

theorem not_render_of_play {p : Player} {file : Option Fi} {e : PlayEnv} (t : Option Nat) :
    Event.render (φ := φ) t ∉ (p.play file e).events :=
  fun ht => absurd (ofPlay_play p file e _ ht) Bool.false_ne_true

theorem not_render_of_option {α : Type} {a : Option α} {f : α → Event φ} {t : Option Nat}
    (hf : ∀ x, f x ≠ .render t) : Event.render t ∉ (a.map f).toList := by
  intro ht
  obtain ⟨x, -, hx⟩ := Option.map_eq_some_iff.mp (Option.mem_toList.mp ht)
  exact hf x hx

theorem not_render_of_noFrame (p : Player) (e : UpdateEnv φ) (t : Option Nat) :
    Event.render t ∉ (p.noFrame e).events := by
  unfold noFrame
  split
  · exact List.not_mem_nil
  split
  · unfold restart
    dsimp only
    split
    · intro ht
      rcases List.mem_append.mp ht with ht | ht
      · exact not_render_of_play t ht
      · exact absurd ht (not_render_of_option (by simp))
    · exact not_render_of_play t
    · exact not_render_of_play t
  · dsimp only
    split
    · simp
    · exact List.not_mem_nil

theorem mem_showFrame {p : Player} {e : UpdateEnv φ} {t : Option Nat} (ht : Event.render t ∈ (p.showFrame e).2) :
    t = p.texture.map Texture.id := by
  rcases List.mem_append.mp ht with ht | ht
  · rw [renderVideoFrame, List.mem_singleton] at ht
    cases ht
    rfl
  · exact absurd ht (not_render_of_option (by simp))

/-- **An update renders the texture that the player holds after it.** -/
theorem update_renders {p : Player} {e : UpdateEnv φ} {t : Option Nat} (ht : Event.render t ∈ (p.update e).events) :
    t = (p.update e).player.texture.map Texture.id := by
  cases ha : p.active with
  | false =>
      rw [update_of_inactive ha e] at ht
      exact absurd ht List.not_mem_nil
  | true =>
      obtain ⟨d, -, hu⟩ := update_of_active ha e
      rw [hu] at ht ⊢
      rcases List.mem_append.mp ht with ht | ht
      · unfold startClock at ht
        split at ht
        · exact absurd ht (not_render_of_option (by simp))
        · exact absurd ht List.not_mem_nil
      · unfold advance at ht ⊢
        split at ht
        next hs =>
          rw [if_pos hs]
          cases hv : e.videoData with
          | some v =>
              rw [hv] at ht
              rcases List.mem_append.mp ht with ht | ht
              · unfold upload at ht
                split at ht
                · simp at ht
                · simp at ht
              · exact mem_showFrame ht
          | none =>
              rw [hv] at ht
              rcases List.mem_append.mp ht with ht | ht
              · simp at ht
              · exact absurd ht (not_render_of_noFrame _ e t)
        next hs =>
          rw [if_neg hs]
          exact mem_showFrame (e := e) ht

end Player

/-- **Only decoded pixels are drawn if and only if the width of the video is a multiple of 32**: so it is whenever an
update renders a frame, in every run of the player on videos whose sizes are reported by the native code. -/
theorem only_decoded_iff {φ : Type} {set : Texture → TextureRegion} (hset : ∀ t, set t = ⟨0, 0, t.width, t.height⟩)
    (looping sizeListener completionListener : Bool) {ops : List (Op φ)} {e : UpdateEnv φ}
    (hops : ∀ op ∈ ops ++ [.update e], op.LoadsReported) {p : Player}
    (hp : p = (Player.new looping sizeListener completionListener).run ops) {t : Option Nat}
    (ht : Event.render t ∈ (p.update e).events) (view : View) :
    ∃ d, (p.update e).player.drawn set view = some d ∧
      (OnlyDecoded d (p.update e).player.currentVideoWidth (p.update e).player.currentVideoHeight ↔
        32 ∣ (p.update e).player.currentVideoWidth) := by
  have hstart := Player.sound_start looping sizeListener completionListener
  obtain ⟨w, -, hsound⟩ := Player.leads_calls _ ops _ hstart
  rw [← hp] at hsound
  obtain ⟨w', hfeed, hsound⟩ := Player.leads_update p e w hsound
  have hsized : Player.Sized (p.update e).player := by
    have hnew : Player.Sized (Player.new looping sizeListener completionListener) :=
      fun h => h.elim (fun h => absurd h Bool.false_ne_true) fun h => absurd h Bool.false_ne_true
    have hrun := Player.sized_run hnew fun op hop => hops op (List.mem_append_left _ hop)
    rw [← hp] at hrun
    exact Player.sized_apply hrun (hops (.update e) (List.mem_append_right _ (List.mem_singleton_self _)))
  have hid := Player.update_renders ht
  generalize (p.update e).player = q at hsound hsized hid ⊢
  cases htex : q.texture with
  | none =>
      -- a region of no texture is not drawn
      rw [hid, htex] at ht
      obtain ⟨v, v', hnext⟩ := (objects φ).exists_next_of_mem hfeed ht
      cases hnext
  | some u =>
      obtain ⟨-, hwidth, hheight⟩ := hsound.texture u htex
      obtain ⟨hbuffer, hw, hh⟩ := hsized (Or.inr (by rw [htex]; rfl))
      have hle := le_roundUp (show 0 < 32 by decide) q.currentVideoWidth
      have hregion : set u = ⟨0, 0, roundUp 32 q.currentVideoWidth, q.currentVideoHeight⟩ := by
        rw [hset, hwidth, hheight, hbuffer]
      rw [← roundUp_eq_self_iff (show 0 < 32 by decide)]
      cases view with
      | baseVideoVideoPlayer =>
          refine ⟨⟨set u, none⟩, by rw [Player.drawn, htex]; rfl, ?_⟩
          exact onlyDecoded_iff hregion nofun hle hw hh
      | videoViewer =>
          refine ⟨⟨set u, some ((q.currentVideoWidth : ℚ) / 2, (q.currentVideoHeight : ℚ) / 2)⟩, ?_, ?_⟩
          · rw [Player.drawn, htex]
            rfl
          · exact onlyDecoded_iff hregion (fun s hs => (Option.some.inj hs).symm) hle hw hh

theorem reported_rgb {sizeMax w h : Nat} (hok : avImageCheckSize w h = .ok ()) (hfits : BufferFits sizeMax w h)
    (audioBuffer : Bool) : Reported ⟨audioBuffer, roundUp 32 w, w, h⟩ := by
  refine ⟨rgbAnswers w h, sizeMax, _, _, Native.constructed, _, rgbAnswers_buffers hok hfits, rfl, ?_, rfl, rfl⟩
  exact (Nat.mul_div_cancel_left _ (show 0 < 3 by decide)).symm

/-- A play of a video, and the update that shows its first frame in the texture 7. -/
def playVideo (b : VideoDecoderBuffers) : Op Nat := .play (some ⟨"v"⟩) ⟨true, true, some 0, some 0, .buffers b, none⟩

def firstFrame : UpdateEnv Nat := ⟨100, some 0, 7, 100, 0, 0, ⟨true, true, none, none, .null, none⟩⟩

theorem playVideo_reported {b : VideoDecoderBuffers} (hb : Reported b) :
    ∀ op ∈ [playVideo b] ++ [.update firstFrame], op.LoadsReported := by
  intro op hop
  simp only [List.singleton_append, List.mem_cons, List.not_mem_nil, or_false] at hop
  rcases hop with rfl | rfl
  · intro b' hb'
    cases hb'
    exact hb
  · nofun

/-- A video of 96 x 50 pixels fills its texture. -/
theorem only_decoded_96 : ∃ d, (((Player.new false false false).run [playVideo ⟨false, 96, 96, 50⟩]).update
    firstFrame).player.drawn (fun t => ⟨0, 0, t.width, t.height⟩) .videoViewer = some d ∧ OnlyDecoded d 96 50 := by
  have hfits : BufferFits (2 ^ 64 - 1) 96 50 := by
    unfold BufferFits
    decide
  have hops := playVideo_reported (reported_rgb rfl hfits false)
  have hrender : Event.render (some 7) ∈ (((Player.new false false false).run [playVideo ⟨false, 96, 96, 50⟩]).update
      firstFrame).events := by decide
  obtain ⟨d, hd, hiff⟩ := @only_decoded_iff Nat (fun t => ⟨0, 0, t.width, t.height⟩) (fun _ => rfl) false false false
    _ _ hops _ rfl _ hrender .videoViewer
  exact ⟨d, hd, hiff.mpr (by decide)⟩

/-- Of a video of 100 x 50 pixels the texels of 128 columns are drawn. -/
theorem padding_drawn : ∃ d, (∀ op ∈ [playVideo ⟨false, 128, 100, 50⟩] ++ [.update firstFrame], op.LoadsReported) ∧
    Event.render (some 7) ∈ (((Player.new false false false).run [playVideo ⟨false, 128, 100, 50⟩]).update
      firstFrame).events ∧
    (((Player.new false false false).run [playVideo ⟨false, 128, 100, 50⟩]).update firstFrame).player.drawn
      (fun t => ⟨0, 0, t.width, t.height⟩) .baseVideoVideoPlayer = some d ∧
    d.region.Selects 127 49 ∧ ¬ OnlyDecoded d 100 50 := by
  have hfits : BufferFits (2 ^ 64 - 1) 100 50 := by
    unfold BufferFits
    decide
  have hselects : TextureRegion.Selects ⟨0, 0, 128, 50⟩ 127 49 := by
    unfold TextureRegion.Selects
    decide
  refine ⟨⟨⟨0, 0, 128, 50⟩, none⟩, playVideo_reported (reported_rgb rfl hfits false), by decide, rfl, hselects, ?_⟩
  intro hd
  exact absurd (hd.columns 127 49 hselects) (by decide)

end ArcVideo
