import ArcVideo.Decoder.RingBuffer
import ArcVideo.Picture.Upload

/-!
# The pictures in the slots

`run` converts every frame with the scaler and into the buffers that `loadContainer` made for the first size.

* `PixelFormat`, `Picture`, `SwsContext` : a frame of any size and format, and what a scaler is configured for;
* `swsScale` : the checks of `sws_scale` and the rows it writes; what a row is converted to is a parameter;
* `VideoSetup` : the scaler and the buffers; `slotsAfter` : the rows in the slots after the steps of a run;
* `HoldsWhole` : a slot holds all of a frame, by a scaler configured for it, in a buffer that is large enough;
* `holds_whole_iff` : the slot of a frame published does if and only if the frame is of the size and format configured.
-/

namespace ArcVideo
open Conc

/-! ## The scaler -/

structure PixelFormat where
  pixFmt : Nat
  /-- `1 << chrSrcVSubSample` -/
  macroHeight : Nat
  planes : Nat
  deriving DecidableEq

/-- What a frame of the codec holds; `videoCodecContext->height` is its height. -/
structure Picture (ρ : Type) where
  width : Nat
  height : Nat
  format : PixelFormat
  data : ρ
  deriving DecidableEq

/-- The source a scaler is configured for; it converts to RGB24 of the same size. -/
structure SwsContext where
  srcW : Nat
  srcH : Nat
  srcFormat : PixelFormat
  deriving DecidableEq

/-- The RGB rows a scaler makes of a picture. -/
abbrev Conversion (ρ β : Type) : Type := SwsContext → Picture ρ → Nat → β

/-- The rows of a slot, `none` where none was written. -/
abbrev Rows (β : Type) : Type := Nat → Option β

variable {ρ β π : Type}

/-- `sws_scale` of the slice from row 0 on: the checks of `scale_internal`, and the rows of the slice. The destination
has no `data` where its buffer was not allocated. -/
def swsScale (convert : Conversion ρ β) (c : SwsContext) (src : Picture ρ) (srcSliceH : Nat) (dst : Option ImageFrame)
    (rows : Rows β) : Int × Rows β :=
  if srcSliceH % c.srcFormat.macroHeight ≠ 0 ∧ srcSliceH ≠ c.srcH ∨ srcSliceH > c.srcH then (AVERROR_EINVAL, rows)
  else if src.format.planes < c.srcFormat.planes ∨ dst.isNone then (AVERROR_EINVAL, rows)
  else if srcSliceH = 0 then (0, rows)
  else (srcSliceH, fun y => if y < srcSliceH then some (convert c src y) else rows y)

section
variable {convert : Conversion ρ β} {c : SwsContext} {src : Picture ρ} {n : Nat} {dst : Option ImageFrame}
  {rows : Rows β}

theorem swsScale_higher (h : c.srcH < n) : swsScale convert c src n dst rows = (AVERROR_EINVAL, rows) :=
  if_pos (Or.inr h)

theorem swsScale_below {y : Nat} (h : n ≤ y) : (swsScale convert c src n dst rows).2 y = rows y := by
  unfold swsScale
  split
  · rfl
  split
  · rfl
  split
  · rfl
  · exact if_neg (Nat.not_lt.mpr h)

/-- **A picture of the source's size and format is converted**, all of it. -/
theorem swsScale_rows (hheight : n = c.srcH) (hformat : src.format = c.srcFormat) (hdst : dst.isSome = true) {y : Nat}
    (hy : y < n) : (swsScale convert c src n dst rows).2 y = some (convert c src y) := by
  have hslice : ¬(n % c.srcFormat.macroHeight ≠ 0 ∧ n ≠ c.srcH ∨ n > c.srcH) := by
    rintro (⟨-, hne⟩ | hgt)
    · exact hne hheight
    · exact absurd hheight.le (Nat.not_le.mpr hgt)
  have hpointers : ¬(src.format.planes < c.srcFormat.planes ∨ dst.isNone = true) := by
    rw [hformat, Option.isNone_iff_eq_none]
    rintro (hlt | hnone)
    · exact absurd hlt (lt_irrefl _)
    · rw [hnone] at hdst
      exact absurd hdst Bool.false_ne_true
  unfold swsScale
  rw [if_neg hslice, if_neg hpointers, if_neg (Nat.ne_of_gt (Nat.zero_lt_of_lt hy))]
  exact if_pos hy

end

/-! ## The slots -/

/-- The scaler `loadContainer` configures and the buffers of the slots, some of which may be missing. -/
structure VideoSetup where
  swsContext : SwsContext
  buffers : Fin VIDEOPLAYER_VIDEO_NUM_BUFFERED_FRAMES → Option ImageFrame
  sizeMax : Nat
  allocated : ∀ i buffer, buffers i = some buffer →
    avFrameGetBuffer sizeMax true (rgbFrame swsContext.srcW swsContext.srcH) 0 = .ok buffer

/-- The frame on which a step of `run` is the end of `sws_scale`. -/
def RunPc.scales {φ : Type} : RunPc φ π → RunAct φ → Option (AVFrame φ)
  | .scaled f, .step => some f
  | _, _ => none

/-- The call of `sws_scale` that ends in a step: the slot and the frame. -/
def scaleCall {φ : Type} (s : State φ π) : Action φ → Option (Fin VIDEOPLAYER_VIDEO_NUM_BUFFERED_FRAMES × AVFrame φ)
  | ⟨.run, a⟩ => (s.run.scales a).map fun f => (s.shared.getWriteIndex, f)
  | _ => none

def scaleCalls {φ : Type} (h : List (State φ π × Action φ)) :
    List (Fin VIDEOPLAYER_VIDEO_NUM_BUFFERED_FRAMES × AVFrame φ) :=
  h.filterMap fun p => scaleCall p.1 p.2

abbrev Slots (β : Type) : Type := Fin VIDEOPLAYER_VIDEO_NUM_BUFFERED_FRAMES → Rows β

/-- `run` scales a frame into a slot and ignores the result. -/
def scaleInto (v : VideoSetup) (convert : Conversion ρ β) (slots : Slots β)
    (call : Fin VIDEOPLAYER_VIDEO_NUM_BUFFERED_FRAMES × AVFrame (Picture ρ)) : Slots β :=
  Function.update slots call.1
    (swsScale convert v.swsContext call.2.data call.2.data.height (v.buffers call.1) (slots call.1)).2

/-- **The rows in the slots** after the steps of a run. -/
def slotsAfter (v : VideoSetup) (convert : Conversion ρ β) (h : List (State (Picture ρ) π × Action (Picture ρ))) :
    Slots β :=
  (scaleCalls h).foldl (scaleInto v convert) fun _ _ => none

structure HoldsWhole (v : VideoSetup) (convert : Conversion ρ β) (rows : Rows β) (buffer : Option ImageFrame)
    (picture : Picture ρ) : Prop where
  width : v.swsContext.srcW = picture.width
  height : v.swsContext.srcH = picture.height
  format : v.swsContext.srcFormat = picture.format
  rows : ∀ y < picture.height, rows y = some (convert v.swsContext picture y)
  buffer : ∃ b size, buffer = some b ∧ b.buf = some size ∧ 3 * picture.width ≤ b.row ∧ b.row * picture.height ≤ size

/-- The picture is of the size and the format that the scaler was configured for. -/
def VideoSetup.Fits (v : VideoSetup) (picture : Picture ρ) : Prop :=
  picture.width = v.swsContext.srcW ∧ picture.height = v.swsContext.srcH ∧ picture.format = v.swsContext.srcFormat

theorem slotsAfter_snoc (v : VideoSetup) (convert : Conversion ρ β)
    (h : List (State (Picture ρ) π × Action (Picture ρ))) (p : State (Picture ρ) π × Action (Picture ρ)) :
    slotsAfter v convert (h ++ [p]) =
      (scaleCall p.1 p.2).toList.foldl (scaleInto v convert) (slotsAfter v convert h) := by
  rw [slotsAfter, scaleCalls, List.filterMap_append, List.foldl_append, List.filterMap_cons, List.filterMap_nil]
  cases scaleCall p.1 p.2 <;> rfl

theorem VideoSetup.buffer_large (v : VideoSetup) {i : Fin VIDEOPLAYER_VIDEO_NUM_BUFFERED_FRAMES} {b : ImageFrame}
    (hb : v.buffers i = some b) : ∃ size, b.buf = some size ∧ 3 * v.swsContext.srcW ≤ b.row ∧
      b.row * v.swsContext.srcH ≤ size := by
  obtain ⟨rfl, -⟩ := rgbBuffer_of_ok (v.allocated i b hb)
  refine ⟨_, rfl, ?_, ?_⟩
  · exact Nat.mul_le_mul_left 3 (le_roundUp (by decide) _)
  · have hrows := Nat.mul_le_mul_left (3 * roundUp 32 v.swsContext.srcW)
      (le_roundUp (show 0 < 32 by decide) v.swsContext.srcH)
    exact hrows.trans (Nat.le_add_left _ _)

/-! ## The slot of a frame that is published -/

/-- Once `run` has scaled a frame, the slot of the write index is as the call left it. -/
def HoldsScaled (v : VideoSetup) (convert : Conversion ρ β) (slots : Slots β) (d : VideoDecoder (Picture ρ) π) :
    RunPc (Picture ρ) π → Prop
  | .writePts f | .publish f => ∃ rows, slots d.getWriteIndex =
      (swsScale convert v.swsContext f.data f.data.height (v.buffers d.getWriteIndex) rows).2
  | _ => True

theorem RunMove.holdsScaled {v : VideoSetup} {convert : Conversion ρ β} {slots : Slots β} {c : Container}
    {a : RunAct (Picture ρ)} {l l' : RunPc (Picture ρ) π} {d d' : VideoDecoder (Picture ρ) π}
    (h : RunMove c a l d l' d') (hk : HoldsScaled v convert slots d l) :
    HoldsScaled v convert (((l.scales a).map fun f => (d.getWriteIndex, f)).toList.foldl (scaleInto v convert) slots)
      d' l' := by
  cases h with
  | scaled => exact ⟨slots d.getWriteIndex, Function.update_self _ _ _⟩
  | writePts => exact hk
  | has => split <;> trivial
  | @fetch d f f' m hf => cases f' <;> trivial
  | _ => trivial

theorem holdsScaled_of_run {v : VideoSetup} {convert : Conversion ρ β} {c : Container} {file : List (Demuxed π)}
    {h : List (State (Picture ρ) π × Action (Picture ρ))} {s : State (Picture ρ) π}
    (hr : (decoder (Picture ρ) c file).Run h s) : HoldsScaled v convert (slotsAfter v convert h) s.shared s.run := by
  refine System.RunWhen.induction
    (P := fun h s => HoldsScaled v convert (slotsAfter v convert h) s.shared s.run) ?_ ?_ hr
  · rintro _ rfl
    trivial
  · rintro h s ⟨t, a⟩ s' hr ih - hstep
    rw [slotsAfter_snoc]
    obtain ⟨l, d, hs, rfl⟩ := Program.next_eq_some hstep
    have hother : t ≠ .run → HoldsScaled v convert (slotsAfter v convert h) d s.run := by
      intro ht
      have htotal := (step_effect hs).total_eq ht
      have hindex : d.getWriteIndex = s.shared.getWriteIndex := by
        rw [VideoDecoder.getWriteIndex, VideoDecoder.getWriteIndex, htotal]
      unfold HoldsScaled at ih ⊢
      rw [hindex]
      exact ih
    cases t with
    | run => exact (run_move hs).holdsScaled ih
    | consumer => exact hother (by decide)
    | audio => exact hother (by decide)

theorem run_of_published {φ : Type} {s : State φ π} {a : Action φ} {f : AVFrame φ} (h : published s a = some f) :
    s.run = .publish f := by
  obtain ⟨t, a⟩ := a
  cases t with
  | run =>
      change s.run.publishes a = some f at h
      unfold RunPc.publishes at h
      split at h
      next hl =>
        cases h
        exact hl
      next => cases h
  | consumer => cases h
  | audio => cases h

/-- **The slot of a frame published holds the whole frame** if and only if the frame is of the size and format that the
scaler was configured for, and the slot has its buffer: in every run, for every frame. -/
theorem holds_whole_iff {v : VideoSetup} {convert : Conversion ρ β} {c : Container} {file : List (Demuxed π)}
    {h : List (State (Picture ρ) π × Action (Picture ρ))} {s : State (Picture ρ) π}
    (hr : (decoder (Picture ρ) c file).Run h s) {a : Action (Picture ρ)} {f : AVFrame (Picture ρ)}
    (hp : published s a = some f) :
    HoldsWhole v convert (slotsAfter v convert h s.shared.getWriteIndex) (v.buffers s.shared.getWriteIndex) f.data ↔
      v.Fits f.data ∧ (v.buffers s.shared.getWriteIndex).isSome = true := by
  constructor
  · rintro ⟨hw, hh, hformat, -, b, size, hb, -⟩
    exact ⟨⟨hw.symm, hh.symm, hformat.symm⟩, by rw [hb]; rfl⟩
  · rintro ⟨⟨hw, hh, hformat⟩, hsome⟩
    have hk : HoldsScaled v convert (slotsAfter v convert h) s.shared s.run := holdsScaled_of_run hr
    rw [run_of_published hp] at hk
    obtain ⟨rows, hrows⟩ := hk
    obtain ⟨b, hb⟩ := Option.isSome_iff_exists.mp hsome
    obtain ⟨size, hsize, hrow, hall⟩ := v.buffer_large hb
    refine ⟨hw.symm, hh.symm, hformat.symm, fun y hy => ?_, b, size, hb, hsize, ?_, ?_⟩
    · rw [hrows]
      exact swsScale_rows hh hformat hsome hy
    · rw [hw]
      exact hrow
    · rw [hh]
      exact hall

def yuv420p : PixelFormat := ⟨0, 2, 3⟩

/-- A scaler for 64 x 48 pixels, and the buffers of the slots. -/
def setup48 : VideoSetup where
  swsContext := ⟨64, 48, yuv420p⟩
  buffers := fun _ => some (rgbBuffer 64 48)
  sizeMax := 2 ^ 64 - 1
  allocated i buffer hb := by
    cases hb
    exact avFrameGetBuffer_fits rfl (by unfold BufferFits; decide)

/-- The decoder of a file with two packets, whose codec answers pictures. -/
abbrev pictureDecoder : System (State (Picture Unit) Unit) (Action (Picture Unit)) :=
  decoder (Picture Unit) (Container.videoOnly false) (videoFile 2)

/-- The first frame, of the size configured. -/
theorem holds_whole_48 : ∃ h s, pictureDecoder.Run h s ∧
    published s ⟨.run, .step⟩ = some ⟨⟨64, 48, yuv420p, ()⟩, 0⟩ ∧
    HoldsWhole setup48 (fun _ _ y => y) (slotsAfter setup48 (fun _ _ y => y) h s.shared.getWriteIndex)
      (setup48.buffers s.shared.getWriteIndex) ⟨64, 48, yuv420p, ()⟩ := by
  obtain ⟨h, s, hr, hp⟩ := pictureDecoder.exists_run rfl (Action.decodes ⟨⟨64, 48, yuv420p, ()⟩, 0⟩ ++ Action.runs 3)
    (fun _ s => published s ⟨.run, .step⟩ = some ⟨⟨64, 48, yuv420p, ()⟩, 0⟩) (by decide +kernel)
  exact ⟨h, s, hr, hp, (holds_whole_iff hr hp).mpr ⟨⟨rfl, rfl, rfl⟩, rfl⟩⟩

/-- A frame of 64 x 96 pixels comes after it: nothing is written into its slot, and it is published. -/
theorem slot_unwritten : ∃ h s, pictureDecoder.Run h s ∧
    published s ⟨.run, .step⟩ = some ⟨⟨64, 96, yuv420p, ()⟩, 40⟩ ∧
    slotsAfter setup48 (fun _ _ y => y) h s.shared.getWriteIndex 0 = none ∧
    ¬ HoldsWhole setup48 (fun _ _ y => y) (slotsAfter setup48 (fun _ _ y => y) h s.shared.getWriteIndex)
      (setup48.buffers s.shared.getWriteIndex) ⟨64, 96, yuv420p, ()⟩ := by
  obtain ⟨h, s, hr, hp, hindex, hcalls⟩ := pictureDecoder.exists_run rfl
    (Action.decodes ⟨⟨64, 48, yuv420p, ()⟩, 0⟩ ++ Action.runs 4 ++ Action.decodes ⟨⟨64, 96, yuv420p, ()⟩, 40⟩ ++
      Action.runs 3)
    (fun h s => published s ⟨.run, .step⟩ = some ⟨⟨64, 96, yuv420p, ()⟩, 40⟩ ∧ s.shared.getWriteIndex = 2 ∧
      scaleCalls h = [(1, ⟨⟨64, 48, yuv420p, ()⟩, 0⟩), (2, ⟨⟨64, 96, yuv420p, ()⟩, 40⟩)]) (by decide +kernel)
  have hnone : slotsAfter setup48 (fun _ _ y => y) h s.shared.getWriteIndex 0 = none := by
    rw [hindex, slotsAfter, hcalls, List.foldl_cons, List.foldl_cons, List.foldl_nil, scaleInto, Function.update_self]
    rw [swsScale_higher (show 48 < 96 by decide), scaleInto, Function.update_of_ne (by decide)]
  refine ⟨h, s, hr, hp, hnone, fun hwhole => ?_⟩
  rw [hwhole.rows 0 (by decide)] at hnone
  cases hnone

end ArcVideo
