import ArcVideo.Audio.Blocks
import ArcVideo.Conc.Words

/-!
# The buffer of a picture

`av_frame_get_buffer` of libavutil on a video frame, with the functions of imgutils it calls.

* `Fault` : a call returns an error code, or an `int` overflows in it;
* `AVPixFmtDescriptor`, `rgb24` : the layout of a pixel format;
* `alignLoop` : the search for a width whose rows are aligned;
* `avFrameGetBuffer` : the sizes of the rows and of the allocation;
* `avFrameGetBuffer_rgb24` : a row of an RGB24 frame is the width rounded up to 32 pixels. Nothing overflows.

Sizes are not negative and are natural numbers. A `size_t` is at most `sizeMax`.
-/

namespace ArcVideo
open Conc

/-! ## Checked arithmetic -/

def AVERROR_ENOMEM : Int := -12

inductive Fault
  | error (code : Int)
  /-- An `int` leaves its range: the behaviour of the code is undefined. -/
  | overflow
  deriving DecidableEq

def int (x : Nat) : Except Fault Nat := if (x : Int) ≤ INT_MAX then .ok x else .error .overflow

/-- `FFALIGN` of macros.h on an `int`. -/
def FFALIGN (x a : Nat) : Except Fault Nat := do
  let sum ← int (x + a)
  return Nat.ldiff (sum - 1) (a - 1)

/-! ## The pixel formats -/

structure AVComponentDescriptor where
  plane : Nat
  step : Nat

/-- `comp` has four entries. -/
structure AVPixFmtDescriptor where
  log2ChromaW : Nat
  log2ChromaH : Nat
  comp : List AVComponentDescriptor
  /-- The flags `HWACCEL`, `PAL` and `BITSTREAM`. -/
  hwaccel : Bool
  pal : Bool
  bitstream : Bool

def rgb24 : AVPixFmtDescriptor where
  log2ChromaW := 0
  log2ChromaH := 0
  comp := [⟨0, 3⟩, ⟨0, 3⟩, ⟨0, 3⟩, ⟨0, 0⟩]
  hwaccel := false
  pal := false
  bitstream := false

/-- `av_image_fill_max_pixsteps` for one plane: the widest step of a component in it, and the first such component. -/
def maxPixstep (desc : AVPixFmtDescriptor) (plane : Nat) : Nat × Nat :=
  desc.comp.zipIdx.foldl
    (fun max (comp, i) => if comp.plane = plane ∧ comp.step > max.1 then (comp.step, i) else max) (0, 0)

def imageGetLinesize (width maxStep maxStepComp : Nat) (desc : AVPixFmtDescriptor) : Except Fault Nat := do
  let s := if maxStepComp = 1 ∨ maxStepComp = 2 then desc.log2ChromaW else 0
  let sum ← int (width + 2 ^ s)
  let shiftedW := (sum - 1) >>> s
  if shiftedW ≠ 0 ∧ (maxStep : Int) > INT_MAX / shiftedW then .error (.error AVERROR_EINVAL)
  else
    let linesize := maxStep * shiftedW
    if desc.bitstream then return (← int (linesize + 7)) >>> 3 else return linesize

def avImageFillLinesizes (desc : AVPixFmtDescriptor) (width : Nat) : Except Fault (List Nat) :=
  if desc.hwaccel then .error (.error AVERROR_EINVAL)
  else [0, 1, 2, 3].mapM fun i => imageGetLinesize width (maxPixstep desc i).1 (maxPixstep desc i).2 desc

/-- `av_image_check_size`: for the pixel format `AV_PIX_FMT_NONE` a pixel is taken to have 8 bytes. -/
def avImageCheckSize (w h : Nat) : Except Fault Unit :=
  let stride := 8 * w + 128 * 8
  if w = 0 ∨ (w : Int) > INT_MAX ∨ h = 0 ∨ (h : Int) > INT_MAX ∨ (stride : Int) ≥ INT_MAX ∨
      ((stride * (h + 128) : Nat) : Int) ≥ INT_MAX then .error (.error AVERROR_EINVAL)
  else .ok ()

/-- `av_image_fill_plane_sizes`: the planes from the second on, up to the first that is not there. -/
def chromaPlaneSizes (sizeMax : Nat) (desc : AVPixFmtDescriptor) (height : Nat) :
    List (Nat × Nat) → Except Fault (List Nat)
  | [] => .ok []
  | (i, linesize) :: planes =>
    if desc.comp.all fun comp => comp.plane ≠ i then .ok (0 :: planes.map fun _ => 0)
    else do
      let s := if i = 1 ∨ i = 2 then desc.log2ChromaH else 0
      let sum ← int (height + 2 ^ s)
      let h := (sum - 1) >>> s
      if linesize > sizeMax / h then .error (.error AVERROR_EINVAL)
      else return h * linesize :: (← chromaPlaneSizes sizeMax desc height planes)

def avImageFillPlaneSizes (sizeMax : Nat) (desc : AVPixFmtDescriptor) (height : Nat) (linesizes : List Nat) :
    Except Fault (List Nat) :=
  if desc.hwaccel then .error (.error AVERROR_EINVAL)
  else if linesizes.headD 0 > sizeMax / height then .error (.error AVERROR_EINVAL)
  else if desc.pal then .ok [linesizes.headD 0 * height, 256 * 4, 0, 0]
  else return linesizes.headD 0 * height :: (← chromaPlaneSizes sizeMax desc height ([1, 2, 3].zip linesizes.tail))

/-- The sum of the sizes, as long as it is an `int`. -/
def addSizes (sizes : List Nat) (total : Nat) : Except Fault Nat :=
  sizes.foldlM (fun (total size : Nat) =>
    if (size : Int) > INT_MAX - total then .error (.error AVERROR_EINVAL) else .ok (total + size)) total

/-- The offset of every plane in the buffer, up to the first without a size. -/
def planeOffsets (offset : Nat) : List Nat → List (Option Nat)
  | [] => []
  | size :: sizes =>
    if size = 0 then none :: sizes.map fun _ => none else some offset :: planeOffsets (offset + size) sizes

/-- `av_image_fill_pointers`; the first plane is at the start of the buffer. -/
def avImageFillPointers (sizeMax : Nat) (desc : AVPixFmtDescriptor) (height : Nat) (linesizes : List Nat) :
    Except Fault (List (Option Nat)) := do
  let sizes ← avImageFillPlaneSizes sizeMax desc height linesizes
  let _ ← addSizes sizes 0
  return some 0 :: planeOffsets (sizes.headD 0) sizes.tail

/-! ## The frame -/

/-- The fields of a frame for a picture; without a format it is `AV_PIX_FMT_NONE`. -/
structure ImageFrame where
  width : Nat
  height : Nat
  format : Option AVPixFmtDescriptor
  linesize : List Nat
  /-- The size of `buf[0]`. -/
  buf : Option Nat
  /-- The offsets in `buf[0]` that `data` points to. -/
  data : List (Option Nat)

/-- The loop of `get_video_buffer`: double `i` until the rows of a width rounded up to `i` are aligned. -/
def alignLoop (desc : AVPixFmtDescriptor) (width align i : Nat) (linesize : List Nat) (hi : 0 < i) :
    Except Fault (List Nat) :=
  if _h : i ≤ align then do
    let aligned ← FFALIGN width i
    let linesize ← avImageFillLinesizes desc aligned
    if linesize.headD 0 &&& (align - 1) = 0 then return linesize
    else alignLoop desc width align (i + i) linesize (by omega)
  else .ok linesize
termination_by align + 1 - i

/-- `FFALIGN` on every row size up to the first 0. -/
def alignLinesizes (align : Nat) : List Nat → Except Fault (List Nat)
  | [] => .ok []
  | linesize :: ls =>
    if linesize = 0 then .ok (linesize :: ls)
    else do return (← FFALIGN linesize align) :: (← alignLinesizes align ls)

/-- `get_video_buffer`: the row sizes, computed unless they are given. -/
def rowSizes (desc : AVPixFmtDescriptor) (frame : ImageFrame) (align : Nat) : Except Fault (List Nat) :=
  if frame.linesize.headD 0 = 0 then do
    let align := if align = 0 then 32 else align
    let linesize ← alignLoop desc frame.width align 1 frame.linesize Nat.one_pos
    alignLinesizes align linesize
  else .ok frame.linesize

/-- `get_video_buffer`; `allocated` is whether `av_buffer_alloc` returns a buffer. -/
def getVideoBuffer (sizeMax : Nat) (allocated : Bool) (frame : ImageFrame) (align : Nat) : Except Fault ImageFrame :=
  let planePadding := max (16 + 16) align
  match frame.format with
  | none => .error (.error AVERROR_EINVAL)
  | some desc => do
    avImageCheckSize frame.width frame.height
    let linesize ← rowSizes desc frame align
    let paddedHeight ← FFALIGN frame.height 32
    let sizes ← avImageFillPlaneSizes sizeMax desc paddedHeight linesize
    let totalSize ← addSizes sizes (4 * planePadding)
    if allocated then do
      let data ← avImageFillPointers sizeMax desc paddedHeight linesize
      return { frame with
        linesize := linesize
        buf := some totalSize
        data := data.mapIdx fun i offset => offset.map (· + i * planePadding) }
    else .error (.error AVERROR_ENOMEM)

/-- `av_frame_get_buffer`; the frame has no samples of audio. -/
def avFrameGetBuffer (sizeMax : Nat) (allocated : Bool) (frame : ImageFrame) (align : Nat) : Except Fault ImageFrame :=
  if frame.format.isNone then .error (.error AVERROR_EINVAL)
  else if frame.width > 0 ∧ frame.height > 0 then getVideoBuffer sizeMax allocated frame align
  else .error (.error AVERROR_EINVAL)

/-! ## An RGB24 frame -/

/-- A frame as `loadContainer` asks for its buffer. -/
def rgbFrame (width height : Nat) : ImageFrame := ⟨width, height, some rgb24, [0, 0, 0, 0], none, []⟩

theorem ok_bind {α β : Type} (x : α) (f : α → Except Fault β) : ((.ok x : Except Fault α) >>= f) = f x := rfl

theorem int_of_le {x : Nat} (h : (x : Int) ≤ INT_MAX) : int x = .ok x := if_pos h

theorem FFALIGN_two_pow {x k : Nat} (h : ((x + 2 ^ k : Nat) : Int) ≤ INT_MAX) :
    FFALIGN x (2 ^ k) = .ok (roundUp (2 ^ k) x) := by
  rw [FFALIGN, int_of_le h, ok_bind, ← ldiff_eq_roundUp]
  rfl

/-- The check against the overflow of a product. -/
theorem not_gt_div {m : Int} {a b : Nat} (h : ((a * b : Nat) : Int) ≤ m) : ¬(b ≠ 0 ∧ (a : Int) > m / b) := by
  rintro ⟨hne, hgt⟩
  have hpos : (0 : Int) < b := by omega
  have hlt := (Int.ediv_lt_iff_lt_mul hpos).mp hgt
  push_cast at h
  omega

theorem imageGetLinesize_rgb24 {width maxStep : Nat} (h : ((maxStep * width : Nat) : Int) ≤ INT_MAX)
    (hw : ((width + 1 : Nat) : Int) ≤ INT_MAX) : imageGetLinesize width maxStep 0 rgb24 = .ok (maxStep * width) := by
  unfold imageGetLinesize
  rw [show rgb24.log2ChromaW = 0 from rfl, ite_self]
  dsimp only
  rw [pow_zero, int_of_le hw, ok_bind, Nat.add_sub_cancel, Nat.shiftRight_zero, if_neg (not_gt_div h),
    show rgb24.bitstream = false from rfl]
  rfl

theorem avImageFillLinesizes_rgb24 {width : Nat} (h : ((3 * width + 1 : Nat) : Int) ≤ INT_MAX) :
    avImageFillLinesizes rgb24 width = .ok [3 * width, 0, 0, 0] := by
  have hw : ((width + 1 : Nat) : Int) ≤ INT_MAX := by omega
  have hluma : imageGetLinesize width 3 0 rgb24 = .ok (3 * width) := imageGetLinesize_rgb24 (by omega) hw
  have hchroma : imageGetLinesize width 0 0 rgb24 = .ok 0 := by
    rw [imageGetLinesize_rgb24 (by omega) hw, Nat.zero_mul]
  unfold avImageFillLinesizes
  rw [if_neg (by decide)]
  simp only [List.mapM_cons, List.mapM_nil, show maxPixstep rgb24 0 = (3, 0) from rfl,
    show maxPixstep rgb24 1 = (0, 0) from rfl, show maxPixstep rgb24 2 = (0, 0) from rfl,
    show maxPixstep rgb24 3 = (0, 0) from rfl, hluma, hchroma]
  rfl

/-- One round of the search: it ends when the rows are aligned to 32. -/
theorem alignLoop_step {w j : Nat} (hw : ((3 * (w + 32) : Nat) : Int) ≤ INT_MAX) (hj : j ≤ 5) (ls : List Nat)
    (hi : 0 < 2 ^ j) :
    alignLoop rgb24 w 32 (2 ^ j) ls hi = .ok [3 * roundUp (2 ^ 5) w, 0, 0, 0] ∨
      j < 5 ∧ alignLoop rgb24 w 32 (2 ^ j) ls hi =
        alignLoop rgb24 w 32 (2 ^ (j + 1)) [3 * roundUp (2 ^ j) w, 0, 0, 0] (Nat.two_pow_pos (j + 1)) := by
  have hpow : 2 ^ j ≤ 32 := Nat.pow_le_pow_right (show 0 < 2 by decide) hj
  have hround := roundUp_lt hi w
  have hfill : avImageFillLinesizes rgb24 (roundUp (2 ^ j) w) = .ok [3 * roundUp (2 ^ j) w, 0, 0, 0] :=
    avImageFillLinesizes_rgb24 (by omega)
  rw [alignLoop, dif_pos hpow, FFALIGN_two_pow (by omega), ok_bind, hfill, ok_bind]
  split
  next haligned =>
    have hdvd : 2 ^ 5 ∣ 3 * roundUp (2 ^ j) w := land_two_pow_sub_one_eq_zero_iff.mp haligned
    left
    rw [roundUp_eq_of_dvd_mul (by decide) hj hdvd]
    rfl
  next haligned =>
    refine Or.inr ⟨lt_of_le_of_ne hj fun hfive => haligned ?_, ?_⟩
    · subst hfive
      have hdvd : 2 ^ 5 ∣ 3 * roundUp (2 ^ 5) w := Dvd.dvd.mul_left (dvd_roundUp (2 ^ 5) w) 3
      exact land_two_pow_sub_one_eq_zero_iff.mpr hdvd
    · have hdouble : 2 ^ j + 2 ^ j = 2 ^ (j + 1) := by rw [pow_succ, Nat.mul_two]
      simp only [hdouble]

/-- **The search ends with the rows of the width rounded up to 32**, whichever alignment it stops at. -/
theorem alignLoop_rgb24 {w : Nat} (hw : ((3 * (w + 32) : Nat) : Int) ≤ INT_MAX) (n : Nat) :
    ∀ (j : Nat) (ls : List Nat) (hi : 0 < 2 ^ j), j + n = 5 →
      alignLoop rgb24 w 32 (2 ^ j) ls hi = .ok [3 * roundUp (2 ^ 5) w, 0, 0, 0] := by
  induction n with
  | zero =>
      intro j ls hi hj
      rcases alignLoop_step hw hj.le ls hi with hends | ⟨hlt, -⟩
      · exact hends
      · omega
  | succ n ih =>
      intro j ls hi hj
      rcases alignLoop_step hw (by omega) ls hi with hends | ⟨-, hnext⟩
      · exact hends
      · rw [hnext]
        exact ih (j + 1) _ _ (by omega)

theorem rowSizes_rgb24 {w h : Nat} (hw : ((3 * (w + 64) : Nat) : Int) ≤ INT_MAX) :
    rowSizes rgb24 (rgbFrame w h) 0 = .ok [3 * roundUp 32 w, 0, 0, 0] := by
  have hround := roundUp_lt (show 0 < 32 by decide) w
  have hloop : alignLoop rgb24 w 32 1 [0, 0, 0, 0] Nat.one_pos = .ok [3 * roundUp 32 w, 0, 0, 0] :=
    alignLoop_rgb24 (by omega) 5 0 [0, 0, 0, 0] Nat.one_pos rfl
  have haligned : FFALIGN (3 * roundUp 32 w) 32 = .ok (3 * roundUp 32 w) := by
    have hdvd : 32 ∣ 3 * roundUp 32 w := Dvd.dvd.mul_left (dvd_roundUp 32 w) 3
    have hsame := (roundUp_eq_self_iff (show 0 < 32 by decide)).mpr hdvd
    have hmask := FFALIGN_two_pow (x := 3 * roundUp 32 w) (k := 5) (by omega)
    exact hmask.trans (congrArg Except.ok hsame)
  unfold rowSizes
  rw [if_pos (show (rgbFrame w h).linesize.headD 0 = 0 from rfl)]
  show (alignLoop rgb24 w 32 1 [0, 0, 0, 0] Nat.one_pos >>= alignLinesizes 32) = _
  rw [hloop, ok_bind, alignLinesizes]
  split
  · rfl
  · rw [haligned, ok_bind]
    rfl

theorem avImageFillPlaneSizes_rgb24 (sizeMax height l : Nat) :
    avImageFillPlaneSizes sizeMax rgb24 height [l, 0, 0, 0] =
      if l > sizeMax / height then .error (.error AVERROR_EINVAL) else .ok [l * height, 0, 0, 0] := rfl

theorem addSizes_rgb24 (size total : Nat) :
    addSizes [size, 0, 0, 0] total =
      if (size : Int) > INT_MAX - total then .error (.error AVERROR_EINVAL) else .ok (total + size) := by
  unfold addSizes
  rw [List.foldlM_cons]
  split
  · rfl
  next hfits =>
    have hzero : ¬(((0 : Nat) : Int) > INT_MAX - ((total + size : Nat) : Int)) := by
      push_cast
      omega
    rw [ok_bind]
    simp only [List.foldlM_cons, List.foldlM_nil, if_neg hzero, Nat.add_zero, ok_bind]
    rfl

/-- The frame with its buffer: rows of the width rounded up to 32, as many as the height rounded up, and 128 bytes. -/
def rgbBuffer (width height : Nat) : ImageFrame :=
  { rgbFrame width height with
    linesize := [3 * roundUp 32 width, 0, 0, 0]
    buf := some (128 + 3 * roundUp 32 width * roundUp 32 height)
    data := [some 0, none, none, none] }

structure SizeChecked (w h : Nat) : Prop where
  width : 0 < w
  height : 0 < h
  row : ((3 * (w + 64) : Nat) : Int) ≤ INT_MAX
  rows : ((h + 32 : Nat) : Int) ≤ INT_MAX

theorem avImageCheckSize_cases (w h : Nat) :
    avImageCheckSize w h = .error (.error AVERROR_EINVAL) ∨ avImageCheckSize w h = .ok () ∧ SizeChecked w h := by
  unfold avImageCheckSize
  dsimp only
  split
  · exact Or.inl rfl
  next hsize =>
    simp only [not_or] at hsize
    obtain ⟨hw, -, hh, -, hstride, hproduct⟩ := hsize
    have hrows : h + 128 ≤ (8 * w + 128 * 8) * (h + 128) := Nat.le_mul_of_pos_left _ (by omega)
    refine Or.inr ⟨rfl, Nat.pos_of_ne_zero hw, Nat.pos_of_ne_zero hh, ?_, ?_⟩
    · omega
    · omega

theorem avImageFillPointers_rgb24 {sizeMax height l : Nat} (hl : ¬l > sizeMax / height)
    (hfits : ((128 + l * height : Nat) : Int) ≤ INT_MAX) :
    avImageFillPointers sizeMax rgb24 height [l, 0, 0, 0] = .ok [some 0, none, none, none] := by
  have hsum : ¬(((l * height : Nat) : Int) > INT_MAX - (0 : Nat)) := by omega
  unfold avImageFillPointers
  rw [avImageFillPlaneSizes_rgb24, if_neg hl, ok_bind, addSizes_rgb24, if_neg hsum, ok_bind]
  rfl

theorem getVideoBuffer_planes {w h : Nat} (sizeMax : Nat) (allocated : Bool) (hs : SizeChecked w h) :
    getVideoBuffer sizeMax allocated (rgbFrame w h) 0 = (avImageCheckSize w h >>= fun _ =>
      (if 3 * roundUp 32 w > sizeMax / roundUp 32 h then .error (.error AVERROR_EINVAL)
        else .ok [3 * roundUp 32 w * roundUp 32 h, 0, 0, 0]) >>= fun sizes =>
      addSizes sizes 128 >>= fun totalSize =>
      if allocated then
        avImageFillPointers sizeMax rgb24 (roundUp 32 h) [3 * roundUp 32 w, 0, 0, 0] >>= fun data =>
        .ok { rgbFrame w h with
          linesize := [3 * roundUp 32 w, 0, 0, 0]
          buf := some totalSize
          data := data.mapIdx fun i offset => offset.map (· + i * 32) }
      else .error (.error AVERROR_ENOMEM)) := by
  have hrows : FFALIGN h 32 = .ok (roundUp 32 h) := FFALIGN_two_pow (k := 5) hs.rows
  have hunfold : getVideoBuffer sizeMax allocated (rgbFrame w h) 0 = (avImageCheckSize w h >>= fun _ =>
      rowSizes rgb24 (rgbFrame w h) 0 >>= fun linesize =>
      FFALIGN h 32 >>= fun paddedHeight =>
      avImageFillPlaneSizes sizeMax rgb24 paddedHeight linesize >>= fun sizes =>
      addSizes sizes 128 >>= fun totalSize =>
      if allocated then
        avImageFillPointers sizeMax rgb24 paddedHeight linesize >>= fun data =>
        .ok { rgbFrame w h with
          linesize := linesize
          buf := some totalSize
          data := data.mapIdx fun i offset => offset.map (· + i * 32) }
      else .error (.error AVERROR_ENOMEM)) := rfl
  rw [hunfold, rowSizes_rgb24 hs.row, hrows]
  simp only [ok_bind, avImageFillPlaneSizes_rgb24]

/-- The sum of the sizes is an `int`, and the product that is part of it a `size_t`. -/
def BufferFits (sizeMax w h : Nat) : Prop :=
  3 * roundUp 32 w ≤ sizeMax / roundUp 32 h ∧ ((128 + 3 * roundUp 32 w * roundUp 32 h : Nat) : Int) ≤ INT_MAX

theorem getVideoBuffer_fits {sizeMax w h : Nat} (allocated : Bool) (hok : avImageCheckSize w h = .ok ())
    (hs : SizeChecked w h) (hfits : BufferFits sizeMax w h) :
    getVideoBuffer sizeMax allocated (rgbFrame w h) 0 =
      if allocated then .ok (rgbBuffer w h) else .error (.error AVERROR_ENOMEM) := by
  have hplane : ¬3 * roundUp 32 w > sizeMax / roundUp 32 h := not_lt.mpr hfits.1
  have hsum : ¬((3 * roundUp 32 w * roundUp 32 h : Nat) : Int) > INT_MAX - (128 : Nat) := by
    have := hfits.2
    omega
  rw [getVideoBuffer_planes sizeMax allocated hs, hok, ok_bind, if_neg hplane, ok_bind, addSizes_rgb24, if_neg hsum,
    ok_bind, avImageFillPointers_rgb24 hplane hfits.2, ok_bind]
  rfl

theorem getVideoBuffer_large {sizeMax w h : Nat} (allocated : Bool) (hok : avImageCheckSize w h = .ok ())
    (hs : SizeChecked w h) (hfits : ¬BufferFits sizeMax w h) :
    getVideoBuffer sizeMax allocated (rgbFrame w h) 0 = .error (.error AVERROR_EINVAL) := by
  rw [getVideoBuffer_planes sizeMax allocated hs, hok, ok_bind]
  split
  next => rfl
  next hplane =>
    have hsum : ((3 * roundUp 32 w * roundUp 32 h : Nat) : Int) > INT_MAX - (128 : Nat) := by
      by_contra hsum
      refine hfits ⟨not_lt.mp hplane, ?_⟩
      omega
    rw [ok_bind, addSizes_rgb24, if_pos hsum]
    rfl

theorem avFrameGetBuffer_eq {w h : Nat} (sizeMax : Nat) (allocated : Bool) (hs : SizeChecked w h) :
    avFrameGetBuffer sizeMax allocated (rgbFrame w h) 0 = getVideoBuffer sizeMax allocated (rgbFrame w h) 0 := by
  unfold avFrameGetBuffer
  rw [if_neg (show ¬(rgbFrame w h).format.isNone = true from Bool.false_ne_true), if_pos ⟨hs.width, hs.height⟩]

/-- **How `av_frame_get_buffer` ends on an RGB24 frame**: with an error code or with the buffer, which is of an `int`
size. It never overflows. -/
theorem avFrameGetBuffer_rgb24 (sizeMax : Nat) (allocated : Bool) (w h : Nat) :
    (∃ code, avFrameGetBuffer sizeMax allocated (rgbFrame w h) 0 = .error (.error code)) ∨
      avFrameGetBuffer sizeMax allocated (rgbFrame w h) 0 = .ok (rgbBuffer w h) ∧ SizeChecked w h ∧
        BufferFits sizeMax w h := by
  rcases avImageCheckSize_cases w h with herror | ⟨hok, hs⟩
  · refine Or.inl ⟨AVERROR_EINVAL, ?_⟩
    unfold avFrameGetBuffer
    rw [if_neg (show ¬(rgbFrame w h).format.isNone = true from Bool.false_ne_true)]
    split
    · show (avImageCheckSize w h >>= fun _ => _) = _
      rw [herror]
      rfl
    · rfl
  · rw [avFrameGetBuffer_eq sizeMax allocated hs]
    by_cases hfits : BufferFits sizeMax w h
    · rw [getVideoBuffer_fits allocated hok hs hfits]
      cases allocated with
      | true => exact Or.inr ⟨rfl, hs, hfits⟩
      | false => exact Or.inl ⟨AVERROR_ENOMEM, rfl⟩
    · exact Or.inl ⟨AVERROR_EINVAL, getVideoBuffer_large allocated hok hs hfits⟩

theorem rgbBuffer_of_ok {sizeMax w h : Nat} {allocated : Bool} {frame : ImageFrame}
    (hok : avFrameGetBuffer sizeMax allocated (rgbFrame w h) 0 = .ok frame) :
    frame = rgbBuffer w h ∧ SizeChecked w h ∧ BufferFits sizeMax w h := by
  rcases avFrameGetBuffer_rgb24 sizeMax allocated w h with ⟨code, herror⟩ | ⟨hrgb, hs, hfits⟩
  · rw [herror] at hok
    cases hok
  · rw [hrgb] at hok
    exact ⟨(Except.ok.inj hok).symm, hs, hfits⟩

/-- **It succeeds** on every size that is accepted, when the memory is there. -/
theorem avFrameGetBuffer_fits {sizeMax w h : Nat} (hok : avImageCheckSize w h = .ok ())
    (hfits : BufferFits sizeMax w h) :
    avFrameGetBuffer sizeMax true (rgbFrame w h) 0 = .ok (rgbBuffer w h) := by
  rcases avImageCheckSize_cases w h with herror | ⟨-, hs⟩
  · rw [herror] at hok
    cases hok
  · rw [avFrameGetBuffer_eq sizeMax true hs, getVideoBuffer_fits true hok hs hfits]
    rfl

end ArcVideo
