import ArcVideo.Picture.FrameBuffer

/-!
# The upload of a picture

The slots of the ring, the sizes `loadContainer` reports of them, and the bytes that `texImage2D` reads.

* `Answers.Buffers` : the answers of an attempt to load are those of `av_frame_get_buffer` on the slots;
* `texImageByte`, `scaledByte` : where a texel is read and where its pixel was written;
* `UploadsScaled` : the texels are the pixels, and the bytes read are there;
* `upload_scaled` : so it is for every size for which the slots have their buffers;
* `scaled_iff` : a byte read is one that was written if and only if its texel is in the columns of the video.
-/

namespace ArcVideo
open Conc

/-! ## The slots -/

def ImageFrame.row (frame : ImageFrame) : Nat := frame.linesize.headD 0

/-- The slots that have a buffer have it from `av_frame_get_buffer`, and the sizes are those of the first. -/
structure Answers.Buffers (a : Answers) (sizeMax : Nat) (allocated : Nat → Bool) (slots : Nat → ImageFrame) : Prop where
  slot : ∀ i < VIDEOPLAYER_VIDEO_NUM_BUFFERED_FRAMES, a.getBuffer i = true →
    avFrameGetBuffer sizeMax (allocated i) (rgbFrame a.width a.height) 0 = .ok (slots i)
  lineSize : a.getBuffer 0 = true → a.lineSize = (slots 0).row
  bufferSize : a.getBuffer 0 = true → (slots 0).buf = some a.bufferSize

/-! ## The bytes -/

/-- The bytes from one row to the next of an image of `width` RGB pixels under an unpack alignment. -/
def unpackRow (alignment width : Nat) : Nat := roundUp alignment (3 * width)

/-- The byte from which `texImage2D` reads the texel (x, y). -/
def texImageByte (alignment width x y : Nat) : Nat := unpackRow alignment width * y + 3 * x

/-- The byte, from `data[0]` on, at which `sws_scale` writes the pixel (x, y) of a slot. -/
def scaledByte (slot : ImageFrame) (x y : Nat) : Nat := y * slot.row + 3 * x

def Scaled (slot : ImageFrame) (width height byte : Nat) : Prop :=
  ∃ x < width, ∃ y < height, ∃ c < 3, byte = scaledByte slot x y + c

def unpackAlignments : List Nat := [1, 2, 4, 8]

/-- A slot is uploaded as it was scaled, by a `texImage2D` of the sizes reported. -/
structure UploadsScaled (info : VideoBufferInfo) (slot : ImageFrame) : Prop where
  row : info.videoBufferWidth * 3 = slot.row
  rowAligned : 32 ∣ slot.row
  width : info.videoWidth ≤ info.videoBufferWidth
  unpack : ∀ a ∈ unpackAlignments, unpackRow a info.videoBufferWidth = slot.row
  byte : ∀ a ∈ unpackAlignments, ∀ x y,
    texImageByte a info.videoBufferWidth x y = 3 * (y * info.videoBufferWidth + x)
  pixel : ∀ a ∈ unpackAlignments, ∀ x y, texImageByte a info.videoBufferWidth x y = scaledByte slot x y
  read : ∀ a ∈ unpackAlignments, ∀ x < info.videoBufferWidth, ∀ y < info.videoHeight,
    texImageByte a info.videoBufferWidth x y + 3 ≤ 3 * info.videoBufferWidth * info.videoHeight
  /-- The byte buffer, from `data[0]` on, is the allocation of the slot. -/
  size : 3 * info.videoBufferWidth * info.videoHeight ≤ info.videoBufferSize
  allocation : slot.data.head? = some (some 0) ∧ slot.buf = some info.videoBufferSize
  int : (info.videoBufferSize : Int) ≤ INT_MAX

theorem unpackRow_eq {a : Nat} (ha : a ∈ unpackAlignments) (w : Nat) :
    unpackRow a (roundUp 32 w) = 3 * roundUp 32 w := by
  have hdvd : a ∣ 32 ∧ 0 < a := by
    unfold unpackAlignments at ha
    simp only [List.mem_cons, List.not_mem_nil, or_false] at ha
    rcases ha with rfl | rfl | rfl | rfl <;> decide
  exact (roundUp_eq_self_iff hdvd.2).mpr (Dvd.dvd.mul_left (hdvd.1.trans (dvd_roundUp 32 w)) 3)

theorem uploadsScaled_rgbBuffer {w h sizeMax : Nat} {info : VideoBufferInfo} (hfits : BufferFits sizeMax w h)
    (hwidth : info.videoBufferWidth = roundUp 32 w) (hw : info.videoWidth = w) (hh : info.videoHeight = h)
    (hsize : info.videoBufferSize = 128 + 3 * roundUp 32 w * roundUp 32 h) : UploadsScaled info (rgbBuffer w h) := by
  have hrow : (rgbBuffer w h).row = 3 * roundUp 32 w := rfl
  have hunpack : ∀ a ∈ unpackAlignments, unpackRow a info.videoBufferWidth = (rgbBuffer w h).row := by
    intro a ha
    rw [hwidth, hrow, unpackRow_eq ha]
  have hpixel : ∀ a ∈ unpackAlignments, ∀ x y,
      texImageByte a info.videoBufferWidth x y = scaledByte (rgbBuffer w h) x y := by
    intro a ha x y
    rw [texImageByte, scaledByte, hunpack a ha, Nat.mul_comm]
  have hbyte : ∀ a ∈ unpackAlignments, ∀ x y,
      texImageByte a info.videoBufferWidth x y = 3 * (y * info.videoBufferWidth + x) := by
    intro a ha x y
    rw [hpixel a ha, scaledByte, hrow, hwidth, Nat.mul_add, Nat.mul_left_comm]
  refine ⟨?_, ?_, ?_, hunpack, hbyte, hpixel, ?_, ?_, ⟨rfl, ?_⟩, ?_⟩
  · rw [hwidth, hrow, Nat.mul_comm]
  · rw [hrow]
    exact Dvd.dvd.mul_left (dvd_roundUp 32 w) 3
  · rw [hwidth, hw]
    exact le_roundUp (by decide) w
  · intro a ha x hx y hy
    rw [hbyte a ha]
    have hlast : (y + 1) * info.videoBufferWidth ≤ info.videoHeight * info.videoBufferWidth :=
      Nat.mul_le_mul_right _ hy
    rw [Nat.mul_assoc, Nat.mul_comm info.videoBufferWidth]
    rw [Nat.add_mul, Nat.one_mul] at hlast
    omega
  · rw [hsize, hwidth, hh]
    have hrows := Nat.mul_le_mul_left (3 * roundUp 32 w) (le_roundUp (show 0 < 32 by decide) h)
    omega
  · rw [hsize]
    rfl
  · rw [hsize]
    exact hfits.2

/-- **A texel shows a pixel that was written** if and only if it is in the columns of the video. -/
theorem scaled_iff {info : VideoBufferInfo} {slot : ImageFrame} (h : UploadsScaled info slot) {a : Nat}
    (ha : a ∈ unpackAlignments) {x y : Nat} (hx : x < info.videoBufferWidth) (hy : y < info.videoHeight) :
    Scaled slot info.videoWidth info.videoHeight (texImageByte a info.videoBufferWidth x y) ↔ x < info.videoWidth := by
  rw [h.pixel a ha]
  constructor
  · rintro ⟨x', hx', y', hy', c, hc, heq⟩
    unfold scaledByte at heq
    have hwidth := h.width
    have hrow := h.row
    have hrows : y = y' := by
      have hy : (y * slot.row + 3 * x) / slot.row = (y' * slot.row + 3 * x' + c) / slot.row := by rw [heq]
      rw [Nat.add_assoc, Nat.mul_comm y, Nat.mul_comm y', Nat.mul_add_div (by omega), Nat.mul_add_div (by omega),
        Nat.div_eq_of_lt (by omega), Nat.div_eq_of_lt (by omega)] at hy
      exact hy
    subst hrows
    omega
  · intro hw
    exact ⟨x, hw, y, hy, 0, by decide, rfl⟩

theorem Answers.Buffers.slot_eq {a : Answers} {sizeMax : Nat} {allocated : Nat → Bool} {slots : Nat → ImageFrame}
    (hb : a.Buffers sizeMax allocated slots) {i : Nat} (hi : i < VIDEOPLAYER_VIDEO_NUM_BUFFERED_FRAMES)
    (hget : a.getBuffer i = true) :
    slots i = rgbBuffer a.width a.height ∧ SizeChecked a.width a.height ∧ BufferFits sizeMax a.width a.height :=
  rgbBuffer_of_ok (hb.slot i hi hget)

theorem loadVideo_returned {d : Native} {a : Answers} {info : VideoBufferInfo}
    (h : (d.loadVideo a).1 = .returned info) : a.getBuffer 0 = true ∧ info.videoBufferSize = a.bufferSize ∧
      info.videoBufferWidth = a.lineSize / 3 ∧ info.videoWidth = a.width ∧ info.videoHeight = a.height ∧
      (d.loadVideo a).2.videoFrameSize = some a.bufferSize := by
  unfold Native.loadVideo at h ⊢
  dsimp only at h ⊢
  split at h
  next => cases h
  next hget =>
    rw [if_neg hget]
    cases h
    exact ⟨by simpa using hget, rfl, rfl, rfl, rfl, rfl⟩

theorem Answers.Buffers.reported {a : Answers} {sizeMax : Nat} {allocated : Nat → Bool} {slots : Nat → ImageFrame}
    (hb : a.Buffers sizeMax allocated slots) {d : Native} {info : VideoBufferInfo}
    (h : (d.loadVideo a).1 = .returned info) : info.videoBufferWidth = roundUp 32 a.width ∧
      info.videoBufferSize = 128 + 3 * roundUp 32 a.width * roundUp 32 a.height := by
  obtain ⟨hget, hsize, hwidth, -⟩ := loadVideo_returned h
  have hslot := (hb.slot_eq (show 0 < 4 by decide) hget).1
  have hline := hb.lineSize hget
  have hbuf := hb.bufferSize hget
  rw [hslot] at hline hbuf
  refine ⟨?_, hsize.trans (Option.some.inj hbuf).symm⟩
  rw [hwidth, hline]
  exact Nat.mul_div_cancel_left _ (by decide)

/-- **The picture uploaded is the picture scaled, in bounds**, for every size and every slot that has its buffer; the
sizes are computed without overflow. -/
theorem upload_scaled {a : Answers} {sizeMax : Nat} {allocated : Nat → Bool} {slots : Nat → ImageFrame}
    (hb : a.Buffers sizeMax allocated slots) (d : Native) :
    (∀ i, avFrameGetBuffer sizeMax (allocated i) (rgbFrame a.width a.height) 0 ≠ .error .overflow) ∧
      ∀ info, (d.loadVideo a).1 = .returned info →
        (d.loadVideo a).2.videoFrameSize = some info.videoBufferSize ∧
        ∀ i < VIDEOPLAYER_VIDEO_NUM_BUFFERED_FRAMES, a.getBuffer i = true → UploadsScaled info (slots i) := by
  refine ⟨fun i => ?_, fun info hinfo => ?_⟩
  · rcases avFrameGetBuffer_rgb24 sizeMax (allocated i) a.width a.height with ⟨code, herror⟩ | ⟨hok, -⟩
    · rw [herror]
      nofun
    · rw [hok]
      nofun
  · obtain ⟨-, hsize, -, hw, hh, hframe⟩ := loadVideo_returned hinfo
    obtain ⟨hwidth, hbuffer⟩ := hb.reported hinfo
    refine ⟨by rw [hframe, hsize], fun i hi hget => ?_⟩
    obtain ⟨hslot, -, hfits⟩ := hb.slot_eq hi hget
    rw [hslot]
    exact uploadsScaled_rgbBuffer hfits hwidth hw hh hbuffer

def rgbAnswers (width height : Nat) : Answers :=
  { Answers.success with
    width := width
    height := height
    lineSize := 3 * roundUp 32 width
    bufferSize := 128 + 3 * roundUp 32 width * roundUp 32 height }

theorem rgbAnswers_buffers {sizeMax w h : Nat} (hok : avImageCheckSize w h = .ok ()) (hfits : BufferFits sizeMax w h) :
    (rgbAnswers w h).Buffers sizeMax (fun _ => true) fun _ => rgbBuffer w h :=
  ⟨fun _ _ _ => avFrameGetBuffer_fits hok hfits, fun _ => rfl, fun _ => rfl⟩

/-- A video of 100 x 50 pixels: a row is 128 pixels. -/
theorem upload_scaled_padded : ∃ info, (Native.constructed.loadVideo (rgbAnswers 100 50)).1 = .returned info ∧
    info.videoBufferWidth = 128 ∧ UploadsScaled info (rgbBuffer 100 50) := by
  have hfits : BufferFits (2 ^ 64 - 1) 100 50 := by
    unfold BufferFits
    decide
  obtain ⟨-, hreturned⟩ := upload_scaled (rgbAnswers_buffers rfl hfits) Native.constructed
  exact ⟨_, rfl, rfl, (hreturned _ rfl).2 0 (by decide) rfl⟩

end ArcVideo
