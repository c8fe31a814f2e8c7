import ArcVideo.Conc.Machine
import ArcVideo.Load.Avio

/-!
# The stream is the file

Whatever the demuxer calls, and however few bytes the channel has ready at a time, FFmpeg's buffer answers as the file
would.

* `Cursor` : a place in the file, and what can be read again; `Cursor.After`, `SeekStep` : what reading and seeking do
  to it;
* `readLoop_eq`, `fillTo_eq` : what the loops of `avio_read` and `avio_seek` leave;
* `StreamCall`, `StreamAnswer`, `AVIOContext.call` : the calls of the demuxer; `FileStep` : what a file answers;
* `stream_is_file` : every sequence of calls returns, and is answered as a file answers it.
-/

namespace ArcVideo
open Conc

/-! ## A file that is read through a buffer -/

/-- A place in the file, and whether its end has been met. The bytes from `start` on are in the buffer, and as far as
`kept` the file can be read without giving up any of them. -/
@[ext]
structure Cursor where
  tell : Nat
  ended : Bool
  start : Nat
  start_le : start ≤ tell
  kept : Nat

/-- When the file has been read as far as `upto`, the bytes given up are the first ones, and there are none of them
unless `upto` is beyond what is kept. -/
structure Cursor.Keeps (c c' : Cursor) (upto : Nat) : Prop where
  start_le : c.start ≤ c'.start
  kept : upto ≤ c.kept → c'.start = c.start ∧ c.kept ≤ c'.kept

/-- After `n` bytes, or all there are. -/
structure Cursor.After (file : List UInt8) (c : Cursor) (n : Nat) (c' : Cursor) : Prop where
  tell : c'.tell = min (c.tell + n) file.length
  ended : c'.ended = (c.ended || decide (file.length < c.tell + n))
  keeps : c.Keeps c' (c.tell + n)

/-- Room for `n` bytes, where those before the place may have to make way. -/
structure Cursor.Ensured (c : Cursor) (n : Nat) (c' : Cursor) : Prop where
  tell : c'.tell = c.tell
  ended : c'.ended = c.ended
  start : c'.start = c.start ∨ c'.start = c.tell
  kept_le : c.kept ≤ c'.kept
  kept : c.tell + n ≤ c'.kept

/-- What a seek to `target` returns and leads to. Only the bytes given up cannot be sought again, and past the end there
is no place: the seek fails where the last bytes were fetched. -/
inductive SeekStep (file : List UInt8) (c : Cursor) (target : Int) : Int → Cursor → Prop
  | invalid : target < 0 → SeekStep file c target Avio.AVERROR_EINVAL c
  | behind : 0 ≤ target → target < c.start → SeekStep file c target AVERROR_EPIPE c
  | back {c' : Cursor} : c.start ≤ target → target ≤ c.tell → c'.tell = target → c'.ended = false →
      c'.start = c.start → c'.kept = c.kept → SeekStep file c target target c'
  | ahead {c' : Cursor} : c.tell < target → target ≤ file.length → c'.tell = target → c'.ended = false →
      c.Keeps c' target.toNat → SeekStep file c target target c'
  | past {c' : Cursor} : file.length < target → c.tell ≤ c'.tell → c'.tell ≤ file.length → c'.ended = true →
      c.Keeps c' target.toNat → SeekStep file c target AVERROR_EOF c'

theorem Cursor.Keeps.refl (c : Cursor) (upto : Nat) : c.Keeps c upto := ⟨Nat.le_refl _, fun _ => ⟨rfl, Nat.le_refl _⟩⟩

theorem Cursor.Keeps.trans {c d e : Cursor} {upto : Nat} (h : c.Keeps d upto) (h' : d.Keeps e upto) :
    c.Keeps e upto where
  start_le := h.start_le.trans h'.start_le
  kept hle := by
    obtain ⟨hstart, hkept⟩ := h.kept hle
    obtain ⟨hstart', hkept'⟩ := h'.kept (hle.trans hkept)
    exact ⟨hstart'.trans hstart, hkept.trans hkept'⟩

namespace AVIOContext

variable {σ : Type} {file : List UInt8} {S : PacketSource file σ} {s t : AVIOContext σ}

/-- Up to here the file can be read without giving up any of the buffer. -/
def kept (s : AVIOContext σ) : Nat := max s.pos (s.start + s.bufferSize + 1 - IO_BUFFER_SIZE)

def cursor (s : AVIOContext σ) : Cursor where
  tell := s.avioTell
  ended := s.eofReached
  start := s.start
  start_le := Nat.le_add_right _ _
  kept := s.kept

theorem Follows.tell_le_length (h : Follows S s) : s.avioTell ≤ file.length := h.tell_le.trans h.pos_le

theorem Follows.room_iff (h : Follows S s) : s.Room ↔ s.pos < s.kept := by
  have hadd := h.start_add
  unfold Room kept IO_BUFFER_SIZE
  omega

theorem kept_le_kept (hpos : s.pos ≤ t.pos) (hstart : s.start ≤ t.start) (hsize : s.bufferSize ≤ t.bufferSize) :
    s.kept ≤ t.kept := by
  unfold kept
  omega

theorem Follows.keeps_fillBuffer (h : Follows S s) {upto : Nat} (hp : s.pos < upto) :
    s.cursor.Keeps (s.fillBuffer S).cursor upto := by
  rcases Nat.lt_or_ge s.pos file.length with hlt | hge
  · obtain ⟨n, hf⟩ := fillBuffer_more h hlt
    refine ⟨hf.start_le, fun hle => ?_⟩
    obtain ⟨hstart, hsize⟩ := hf.room (h.room_iff.mpr (hp.trans_le hle))
    exact ⟨hstart, kept_le_kept (by rw [hf.pos]; exact Nat.le_add_right _ _) hstart.ge hsize.ge⟩
  · have hf := fillBuffer_end h hge
    refine ⟨hf.start_le h, fun hle => ?_⟩
    obtain ⟨hstart, -, hsize⟩ := hf.same.resolve_right fun hno => hno.1 (h.room_iff.mpr (hp.trans_le hle))
    exact ⟨hstart, kept_le_kept hf.pos.ge hstart.ge hsize.ge⟩

/-! ## The loop of `avio_read` -/

/-- A turn of the loop leads `n` of `size` bytes on. -/
structure Advanced (S : PacketSource file σ) (s : AVIOContext σ) (n size : Nat) (t : AVIOContext σ) : Prop where
  follows : Follows S t
  tell : t.avioTell = s.avioTell + n
  ended : t.eofReached = s.eofReached
  keeps : s.cursor.Keeps t.cursor (s.avioTell + size)

/-- What the loop of `avio_read` leaves when it is asked for `size` bytes. -/
structure Copied (S : PacketSource file σ) (s : AVIOContext σ) (size : Nat) (s' : AVIOContext σ) : Prop where
  follows : Follows S s'
  after : s.cursor.After file size s'.cursor

theorem Copied.of_advanced {s' : AVIOContext σ} {n size : Nat} (ht : Advanced S s n (n + size) t)
    (hc : Copied S t size s') : Copied S s (n + size) s' where
  follows := hc.follows
  after := by
    obtain ⟨htell, hended, hkeeps⟩ := hc.after
    have hon : t.cursor.tell + size = s.cursor.tell + (n + size) := by
      rw [← Nat.add_assoc]
      exact congrArg (· + size) ht.tell
    rw [hon] at htell hended hkeeps
    exact ⟨htell, hended.trans (congrArg (· || _) ht.ended), ht.keeps.trans hkeeps⟩

theorem Copied.at_end {s' : AVIOContext σ} {size : Nat} (h : Follows S s') (htell : s'.avioTell = s.avioTell)
    (hended : s'.eofReached = true) (hend : s.avioTell = file.length) (hsize : 0 < size)
    (hkeeps : s.cursor.Keeps s'.cursor (s.avioTell + size)) : Copied S s size s' where
  follows := h
  after := by
    refine ⟨?_, ?_, hkeeps⟩
    · show s'.avioTell = min (s.avioTell + size) file.length
      omega
    · show s'.eofReached = (s.eofReached || decide (file.length < s.avioTell + size))
      rw [hended, decide_eq_true (by omega), Bool.or_true]

theorem Follows.keeps_direct (h : Follows S s) (hat : s.avioTell = s.pos) {size : Nat} (hdirect : s.bufferSize < size)
    (hstart : s.start ≤ t.start) : s.cursor.Keeps t.cursor (s.avioTell + size) := by
  have hadd := h.start_add
  refine ⟨hstart, fun hle => ?_⟩
  have hroom : s.avioTell + size ≤ max s.pos (s.start + s.bufferSize + 1 - IO_BUFFER_SIZE) := hle
  unfold IO_BUFFER_SIZE at hroom
  omega

theorem advanced_fillBuffer {size : Nat} (h : Follows S s) (hat : s.avioTell = s.pos) (hsize : 0 < size)
    (hp : s.pos < file.length) : Advanced S s 0 size (s.fillBuffer S) ∧
      (s.fillBuffer S).bufPtr < (s.fillBuffer S).bufEnd := by
  obtain ⟨n, hf⟩ := fillBuffer_more h hp
  refine ⟨⟨hf.follows, hf.tell.trans hat.symm, hf.ended.trans (h.eofReached_of_lt hp).symm, ?_⟩, hf.unread⟩
  exact h.keeps_fillBuffer (by omega)

theorem copied_fillBuffer {size : Nat} (h : Follows S s) (hat : s.avioTell = s.pos) (hsize : 0 < size)
    (hp : file.length ≤ s.pos) : Copied S s size (s.fillBuffer S) ∧
      (s.fillBuffer S).bufEnd ≤ (s.fillBuffer S).bufPtr := by
  have hf := fillBuffer_end h hp
  have hlast : s.pos = file.length := Nat.le_antisymm h.pos_le hp
  have hpos := hf.pos
  have hge := hf.tell_le h
  have hadd := hf.follows.tell_add
  refine ⟨.at_end hf.follows (by omega) hf.ended (hat.trans hlast) hsize ?_, by omega⟩
  exact h.keeps_fillBuffer (by omega)

def direct (s : AVIOContext σ) (source : σ) (n : Nat) : AVIOContext σ :=
  { s with source := source, pos := s.pos + n, bufPtr := 0, buffer := [] }

theorem Follows.direct (h : Follows S s) (hended : s.eofReached = false) {source : σ} {n : Nat}
    (hn : s.pos + n ≤ file.length) (hsource : S.position source = s.pos + n) : Follows S (s.direct source n) where
  ptr := Nat.le_refl _
  fits := Nat.zero_le _
  orig_pos := h.orig_pos
  orig_le := h.orig_le
  source := hsource
  pos_le := hn
  bufEnd_le := Nat.zero_le _
  window := (extract_of_le (Nat.le_refl _)).symm
  ended := fun he => absurd (hended.symm.trans he) Bool.false_ne_true
  error := h.error

section loop
variable {size : Nat} (fuel : Nat) (buf : List UInt8)

theorem readLoop_direct (h : Follows S s) (hat : s.avioTell = s.pos) (hp : s.pos < file.length)
    (hdirect : s.bufferSize < size) : ∃ source n, 0 < n ∧ n ≤ size ∧ Follows S (s.direct source n) ∧
      s.readLoop S (fuel + 1) size buf =
        (s.direct source n).readLoop S fuel (size - n) (buf ++ file.extract s.avioTell (s.avioTell + n)) := by
  have hsize : 0 < size := Nat.zero_lt_of_lt hdirect
  have htell := h.tell_add
  obtain ⟨n, hn, hnsize, hnfile, hreply, hsource⟩ := S.reads s.source size hsize (h.source.symm ▸ hp)
  rw [h.source] at hnfile hreply hsource
  have hdata : (file.extract s.pos (s.pos + n)).length = n := by
    rw [length_extract]
    omega
  refine ⟨_, n, hn, hnsize, h.direct (h.eofReached_of_lt hp) hnfile hsource, ?_⟩
  rw [readLoop, if_neg hsize.ne']
  simp only [if_pos (show min (s.bufEnd - s.bufPtr) size = 0 by omega)]
  rw [if_pos hdirect, hat]
  generalize S.readPacket s.source size = r at hreply ⊢
  obtain ⟨reply, source⟩ := r
  subst hreply
  simp only [hdata]
  rfl

theorem readLoop_direct_end (h : Follows S s) (hat : s.avioTell = s.pos) (hp : file.length ≤ s.pos)
    (hdirect : s.bufferSize < size) : ∃ source, S.position source = s.pos ∧ s.readLoop S (fuel + 1) size buf =
      some ({ s with source := source, eofReached := true, error := S.endCode }, buf) := by
  have hsize : 0 < size := Nat.zero_lt_of_lt hdirect
  have htell := h.tell_add
  obtain ⟨hreply, hsource⟩ := S.ends s.source size hsize (h.source.symm ▸ hp)
  refine ⟨_, hsource.trans h.source, ?_⟩
  rw [readLoop, if_neg hsize.ne']
  simp only [if_pos (show min (s.bufEnd - s.bufPtr) size = 0 by omega)]
  rw [if_pos hdirect]
  generalize S.readPacket s.source size = r at hreply ⊢
  obtain ⟨reply, source⟩ := r
  subst hreply
  rfl

theorem readLoop_fill (h : Follows S s) (hat : s.avioTell = s.pos) (hsize : 0 < size) (hfits : size ≤ s.bufferSize) :
    s.readLoop S (fuel + 1) size buf =
      if (s.fillBuffer S).bufEnd - (s.fillBuffer S).bufPtr = 0 then some (s.fillBuffer S, buf)
      else (s.fillBuffer S).readLoop S fuel size buf := by
  have htell := h.tell_add
  rw [readLoop, if_neg hsize.ne']
  simp only [if_pos (show min (s.bufEnd - s.bufPtr) size = 0 by omega)]
  rw [if_neg (Nat.not_lt.mpr hfits)]

theorem readLoop_copy (h : Follows S s) (hread : s.bufPtr < s.bufEnd) (hsize : 0 < size) :
    ∃ n, 0 < n ∧ n ≤ size ∧ s.bufPtr + n ≤ s.bufEnd ∧ (n < size → s.bufPtr + n = s.bufEnd) ∧
      s.readLoop S (fuel + 1) size buf =
        readLoop S fuel { s with bufPtr := s.bufPtr + n } (size - n)
          (buf ++ file.extract s.avioTell (s.avioTell + n)) := by
  have htell := h.tell_add
  refine ⟨min (s.bufEnd - s.bufPtr) size, by omega, by omega, by omega, by omega, ?_⟩
  rw [readLoop, if_neg hsize.ne']
  simp only [if_neg (show ¬min (s.bufEnd - s.bufPtr) size = 0 by omega)]
  rw [h.unread, take_extract, Nat.min_eq_left (show s.avioTell + min (s.bufEnd - s.bufPtr) size ≤ s.pos by omega)]

end loop

/-- **The loop of `avio_read`** copies the next `size` bytes of the file, or all there are. -/
theorem readLoop_eq (fuel : Nat) : ∀ (s : AVIOContext σ) (size : Nat) (buf : List UInt8), Follows S s →
    2 * size + (if s.bufPtr = s.bufEnd then 1 else 0) < fuel →
    ∃ s', s.readLoop S fuel size buf = some (s', buf ++ file.extract s.avioTell (s.avioTell + size)) ∧
      Copied S s size s' := by
  induction fuel with
  | zero => exact fun _ _ _ _ hfuel => absurd hfuel (Nat.not_lt_zero _)
  | succ fuel ih =>
      intro s size buf h hfuel
      have htell := h.tell_add
      have hpos := h.pos_le
      have hptr := h.ptr
      rcases Nat.eq_zero_or_pos size with rfl | hsize
      · refine ⟨s, ?_, h, ?_, ?_, .refl _ _⟩
        · rw [readLoop, if_pos rfl, extract_of_le (Nat.add_zero _).le, List.append_nil]
        · show s.avioTell = min (s.avioTell + 0) file.length
          omega
        · show s.eofReached = (s.eofReached || decide (file.length < s.avioTell + 0))
          rw [decide_eq_false (by omega), Bool.or_false]
      -- after `n` bytes, the rest
      have hrest : ∀ {t : AVIOContext σ} {n : Nat}, Advanced S s n size t → n ≤ size →
          2 * (size - n) + (if t.bufPtr = t.bufEnd then 1 else 0) < fuel →
          ∃ s', t.readLoop S fuel (size - n) (buf ++ file.extract s.avioTell (s.avioTell + n)) =
            some (s', buf ++ file.extract s.avioTell (s.avioTell + size)) ∧ Copied S s size s' := by
        intro t n ht hnsize hfuel
        obtain ⟨s', hloop, hc⟩ := ih t (size - n) (buf ++ file.extract s.avioTell (s.avioTell + n)) ht.follows hfuel
        obtain ⟨m, rfl⟩ := Nat.exists_eq_add_of_le hnsize
        rw [Nat.add_sub_cancel_left] at hc hloop ⊢
        refine ⟨s', ?_, .of_advanced ht hc⟩
        rw [hloop, ht.tell, List.append_assoc, extract_append _ (Nat.le_add_right _ _) (Nat.le_add_right _ _),
          Nat.add_assoc]
      rcases Nat.lt_or_ge s.bufPtr s.bufEnd with hread | hread
      · obtain ⟨n, hn, hnsize, hnend, hall, hstep⟩ := readLoop_copy fuel buf h hread hsize
        rw [hstep]
        have ht : Advanced S s n size { s with bufPtr := s.bufPtr + n } :=
          ⟨h.move hnend, (Nat.add_assoc _ _ _).symm, rfl, Nat.le_refl _, fun _ => ⟨rfl, Nat.le_refl _⟩⟩
        refine hrest ht hnsize ?_
        rw [if_neg hread.ne] at hfuel
        split <;> omega
      · have hat : s.avioTell = s.pos := by omega
        rw [if_pos (Nat.le_antisymm hptr hread)] at hfuel
        rcases Nat.lt_or_ge s.bufferSize size with hdirect | hfits
        · rcases Nat.lt_or_ge s.pos file.length with hlt | hge
          · obtain ⟨source, n, hn, hnsize, ht, hstep⟩ := readLoop_direct fuel buf h hat hlt hdirect
            rw [hstep]
            refine hrest ⟨ht, ?_, rfl, h.keeps_direct hat hdirect ?_⟩ hnsize (by split <;> omega)
            · rw [hat]
              rfl
            · have hadd := h.start_add
              show s.start ≤ s.pos + n
              omega
          · obtain ⟨source, hsource, hstep⟩ := readLoop_direct_end fuel buf h hat hge hdirect
            have hlast : s.pos = file.length := Nat.le_antisymm hpos hge
            rw [hstep, hat, extract_of_length_le hge, List.append_nil]
            refine ⟨_, rfl, .at_end ?_ rfl rfl (hat.trans hlast) hsize (h.keeps_direct hat hdirect (Nat.le_refl _))⟩
            exact { h with source := hsource, ended := fun _ => ⟨hlast, rfl⟩, error := Or.inr rfl }
        · rw [readLoop_fill fuel buf h hat hsize hfits]
          rcases Nat.lt_or_ge s.pos file.length with hlt | hge
          · obtain ⟨ht, hunread⟩ := advanced_fillBuffer h hat hsize hlt
            rw [if_neg (by omega)]
            have hgo := hrest ht (Nat.zero_le _) (by rw [if_neg hunread.ne]; omega)
            rwa [Nat.sub_zero, extract_of_le (Nat.add_zero _).le, List.append_nil] at hgo
          · obtain ⟨hc, hunread⟩ := copied_fillBuffer h hat hsize hge
            rw [if_pos (by omega), hat, extract_of_length_le hge, List.append_nil]
            exact ⟨_, rfl, hc⟩

/-! ## The calls -/

theorem Follows.error_ne (h : Follows S s) (he : s.eofReached = true) : s.error ≠ 0 := by
  have hneg := S.endCode_neg
  rw [(h.ended he).2]
  omega

def ReadReturn (endCode : Int) (size : Nat) (data : List UInt8) (ret : Int) : Prop :=
  if data.length = 0 then ret = endCode ∨ size = 0 ∧ ret = 0 else ret = data.length

/-- **`avio_read`** returns the next `size` bytes of the file, or all there are. -/
theorem avioRead_eq (h : Follows S s) (size : Nat) : ∃ ret s',
    s.avioRead S size = some ((ret, file.extract s.avioTell (s.avioTell + size)), s') ∧ Copied S s size s' ∧
      ReadReturn S.endCode size (file.extract s.avioTell (s.avioTell + size)) ret := by
  obtain ⟨s', hloop, hc⟩ := readLoop_eq (2 * size + 2) s size [] h (by split <;> omega)
  rw [List.nil_append] at hloop
  unfold avioRead
  rw [hloop, Option.map_some]
  unfold ReadReturn
  by_cases hnone : (file.extract s.avioTell (s.avioTell + size)).length = 0
  · simp only [if_pos hnone]
    by_cases herror : s'.error = 0
    · -- the end of the file has not been met, so nothing was asked for
      have hended : s'.eofReached = false := by
        by_contra he
        exact hc.follows.error_ne (Bool.not_eq_false _ ▸ he) herror
      have hsize : size = 0 := by
        have hnot : s'.eofReached = (s.eofReached || decide (file.length < s.avioTell + size)) := hc.after.ended
        rw [hended, eq_comm, Bool.or_eq_false_iff, decide_eq_false_iff_not] at hnot
        rw [length_extract] at hnone
        omega
      refine ⟨0, s', ?_, hc, Or.inr ⟨hsize, rfl⟩⟩
      unfold avioFeof
      simp only [herror, hended, ne_eq, not_true_eq_false, if_false, Bool.false_eq_true]
    · have hcode := hc.follows.error.resolve_left herror
      refine ⟨S.endCode, s', ?_, hc, Or.inl rfl⟩
      rw [if_pos herror, hcode]
  · simp only [if_neg hnone]
    exact ⟨_, s', rfl, hc, rfl⟩

/-- **`avio_r8`** returns the next byte of the file, or 0. -/
theorem avioR8_eq (h : Follows S s) : ∃ s', s.avioR8 S = (file.getD s.avioTell 0, s') ∧ Copied S s 1 s' := by
  have hpos := h.pos_le
  have htell := h.tell_add
  -- the byte is in the buffer, or has been fetched
  have hbyte : ∀ t : AVIOContext σ, Advanced S s 0 1 t → t.bufPtr < t.bufEnd →
      (if t.bufPtr < t.bufEnd then (t.buffer.getD t.bufPtr 0, { t with bufPtr := t.bufPtr + 1 }) else (0, t)) =
        (file.getD s.avioTell 0, { t with bufPtr := t.bufPtr + 1 }) ∧
      Copied S s 1 { t with bufPtr := t.bufPtr + 1 } := by
    intro t ht hptr
    have hat : t.avioTell = s.avioTell := ht.tell
    have hadd := ht.follows.tell_add
    have hle := ht.follows.pos_le
    have hread : t.buffer[t.bufPtr]? = file[s.avioTell]? := by
      have hunread := congrArg (·[0]?) ht.follows.unread
      rwa [List.getElem?_drop, getElem?_extract (by omega), Nat.add_zero, Nat.add_zero, hat] at hunread
    have hnext : avioTell { t with bufPtr := t.bufPtr + 1 } = s.avioTell + 1 := by
      rw [← hat]
      rfl
    rw [if_pos hptr, List.getD_eq_getElem?_getD, List.getD_eq_getElem?_getD, hread]
    refine ⟨rfl, ht.follows.move hptr, ?_, ?_, ht.keeps.start_le, ht.keeps.kept⟩
    · show avioTell { t with bufPtr := t.bufPtr + 1 } = min (s.avioTell + 1) file.length
      omega
    · show t.eofReached = (s.eofReached || decide (file.length < s.avioTell + 1))
      rw [decide_eq_false (by omega), Bool.or_false]
      exact ht.ended
  unfold avioR8
  rcases Nat.lt_or_ge s.bufPtr s.bufEnd with hread | hread
  · simp only [if_neg (Nat.not_le.mpr hread)]
    obtain ⟨heq, hc⟩ := hbyte s ⟨h, rfl, rfl, .refl _ _⟩ hread
    exact ⟨_, heq, hc⟩
  · simp only [if_pos hread]
    have hat : s.avioTell = s.pos := by omega
    rcases Nat.lt_or_ge s.pos file.length with hlt | hge
    · obtain ⟨ht, hunread⟩ := advanced_fillBuffer h hat Nat.one_pos hlt
      obtain ⟨heq, hc⟩ := hbyte _ ht hunread
      exact ⟨_, heq, hc⟩
    · obtain ⟨hc, hunread⟩ := copied_fillBuffer h hat Nat.one_pos hge
      have hlast : s.pos = file.length := Nat.le_antisymm hpos hge
      rw [if_neg (Nat.not_lt.mpr hunread), hat, hlast, List.getD_eq_getElem?_getD,
        List.getElem?_eq_none (Nat.le_refl _)]
      exact ⟨_, rfl, hc⟩

/-- `avio_feof` tells whether the end has been met; it may give up the buffer then. -/
theorem avioFeof_eq (h : Follows S s) : ∃ s', s.avioFeof S = (s.eofReached, s') ∧ Follows S s' ∧
    (s'.cursor = s.cursor ∨ s.eofReached = true ∧ s.kept ≤ file.length ∧ s'.eofReached = true ∧
      s'.avioTell = file.length ∧ s'.start = file.length) := by
  unfold avioFeof
  cases he : s.eofReached with
  | false =>
      refine ⟨s, ?_, h, Or.inl rfl⟩
      simp only [Bool.false_eq_true, if_false, he]
  | true =>
      have hlast := (h.ended he).1
      have hf := fillBuffer_end h.clear hlast.ge
      refine ⟨_, ?_, hf.follows, ?_⟩
      · simp only [if_true, hf.ended]
      rcases hf.same with ⟨hstart, htell, hsize⟩ | ⟨hroom, hstart, htell⟩
      · left
        refine Cursor.ext htell (hf.ended.trans he.symm) hstart ?_
        show kept _ = s.kept
        rw [kept, kept, hstart, hsize, hf.pos]
        rfl
      · have hkept := mt h.clear.room_iff.mpr hroom
        exact Or.inr ⟨rfl, hlast ▸ Nat.not_lt.mp hkept, hf.ended, htell.trans hlast, hstart.trans hlast⟩

/-- What the loop of `avio_seek` leaves when it fills the buffer up to `offset`. -/
structure FilledTo (S : PacketSource file σ) (s : AVIOContext σ) (offset : Nat) (s' : AVIOContext σ) : Prop where
  follows : Follows S s'
  tell_le : s.avioTell ≤ s'.avioTell
  start : s'.start ≤ offset
  ended : s'.eofReached = decide (file.length < offset)
  reached : offset ≤ file.length → offset ≤ s'.pos
  keeps : s.cursor.Keeps s'.cursor offset

/-- **The loop of `avio_seek`** reads up to the offset, or finds the end of the file before it. -/
theorem fillTo_eq (offset fuel : Nat) : ∀ s : AVIOContext σ, Follows S s → s.start ≤ offset →
    (s.eofReached = true → s.pos < offset) → offset - s.pos + (if s.eofReached then 0 else 1) < fuel →
    ∃ s', s.fillTo S fuel offset = some s' ∧ FilledTo S s offset s' := by
  induction fuel with
  | zero => exact fun _ _ _ _ hfuel => absurd hfuel (Nat.not_lt_zero _)
  | succ fuel ih =>
      intro s h hstart hended hfuel
      have hpos := h.pos_le
      have htell := h.tell_le
      rw [fillTo]
      by_cases hgo : s.pos < offset ∧ s.eofReached = false
      · obtain ⟨hlt, hgo⟩ := hgo
        rw [if_pos ⟨hlt, hgo⟩]
        rw [hgo] at hfuel
        have hrest : Follows S (s.fillBuffer S) → s.avioTell ≤ (s.fillBuffer S).avioTell →
            (s.fillBuffer S).start ≤ offset →
            ((s.fillBuffer S).eofReached = true → (s.fillBuffer S).pos < offset) →
            offset - (s.fillBuffer S).pos + (if (s.fillBuffer S).eofReached then 0 else 1) < fuel →
            ∃ s', (s.fillBuffer S).fillTo S fuel offset = some s' ∧ FilledTo S s offset s' := by
          intro ht htell hstart hended hfuel
          obtain ⟨s', hs', hf⟩ := ih _ ht hstart hended hfuel
          exact ⟨s', hs', { hf with
            tell_le := htell.trans hf.tell_le
            keeps := (h.keeps_fillBuffer hlt).trans hf.keeps }⟩
        rcases Nat.lt_or_ge s.pos file.length with hless | hge
        · obtain ⟨n, hf⟩ := fillBuffer_more h hless
          have hmore := hf.more
          have hpos' := hf.pos
          have htell' := hf.tell
          have hsplit : (s.fillBuffer S).avioTell = (s.fillBuffer S).start + (s.fillBuffer S).bufPtr := rfl
          refine hrest hf.follows (by omega) (by omega)
            (fun he => absurd (hf.ended.symm.trans he) Bool.false_ne_true) ?_
          rw [hf.ended, hpos']
          simp only [Bool.false_eq_true, if_false] at hfuel ⊢
          omega
        · have hf := fillBuffer_end h hge
          have hadd := hf.follows.start_add
          have hpos' := hf.pos
          refine hrest hf.follows (hf.tell_le h) (by omega) (fun _ => by omega) ?_
          rw [hf.ended, hpos', if_pos rfl]
          simp only [Bool.false_eq_true, if_false] at hfuel
          omega
      · rw [if_neg hgo]
        refine ⟨s, rfl, h, Nat.le_refl _, hstart, ?_, ?_, .refl _ _⟩
        · cases he : s.eofReached with
          | true =>
              have hlt := hended he
              have hlast := (h.ended he).1
              rw [decide_eq_true (by omega)]
          | false =>
              have hge : ¬s.pos < offset := fun hlt => hgo ⟨hlt, he⟩
              rw [decide_eq_false (by omega)]
        · intro hle
          by_contra hlt
          refine hgo ⟨by omega, ?_⟩
          exact h.eofReached_of_lt (by omega)

/-- **`avio_seek`**, from where the offset is known. -/
theorem seekTo_eq (h : Follows S s) (offset : Int) : ∃ ret s', s.seekTo S offset = some (ret, s') ∧ Follows S s' ∧
    SeekStep file s.cursor offset ret s'.cursor := by
  have hpos := h.pos_le
  have htell := h.tell_le
  have hadd := h.start_add
  unfold seekTo
  by_cases hneg : offset < 0
  · rw [if_pos hneg]
    exact ⟨_, s, rfl, h, .invalid hneg⟩
  rw [if_neg hneg]
  obtain ⟨target, rfl⟩ := Int.eq_ofNat_of_zero_le (Int.not_lt.mp hneg)
  by_cases hin : (0 : Int) ≤ target - s.start ∧ (target : Int) - s.start ≤ s.bufEnd
  · simp only [if_pos hin]
    have hptr : ((target : Int) - s.start).toNat ≤ s.bufEnd := by omega
    have htell' : s.start + ((target : Int) - s.start).toNat = target := by omega
    refine ⟨_, _, rfl, (h.move hptr).clear, ?_⟩
    rcases Nat.lt_or_ge s.avioTell target with hlt | hle
    · exact .ahead (Int.ofNat_lt.mpr hlt) (by omega) (congrArg _ htell') rfl
        ⟨Nat.le_refl _, fun _ => ⟨rfl, Nat.le_refl _⟩⟩
    · exact .back (by show (s.start : Int) ≤ target; omega) (Int.ofNat_le.mpr hle) (congrArg _ htell') rfl rfl rfl
  by_cases hafter : (0 : Int) ≤ target - s.start
  · simp only [if_neg hin, if_pos hafter, Int.toNat_natCast]
    have hlt : s.pos < target := by omega
    obtain ⟨t, hfill, hf⟩ := fillTo_eq target (target - s.pos + 2) s h (by omega) (fun _ => hlt) (by split <;> omega)
    have hended := hf.ended
    rw [hfill, Option.map_some]
    by_cases hpast : file.length < target
    · rw [decide_eq_true hpast] at hended
      rw [if_pos hended]
      exact ⟨_, t, rfl, hf.follows, .past (Int.ofNat_lt.mpr hpast) hf.tell_le hf.follows.tell_le_length hended hf.keeps⟩
    · rw [decide_eq_false hpast] at hended
      rw [if_neg (by rw [hended]; exact Bool.false_ne_true)]
      have hge := hf.reached (Nat.not_lt.mp hpast)
      have hadd' := hf.follows.start_add
      have hstart := hf.start
      have htell' : t.start + (t.bufEnd - (t.pos - target)) = target := by omega
      refine ⟨_, _, rfl, (hf.follows.move (Nat.sub_le _ _)).clear, .ahead ?_ (by omega) (congrArg _ htell') rfl
        ⟨hf.keeps.start_le, hf.keeps.kept⟩⟩
      exact Int.ofNat_lt.mpr (htell.trans_lt hlt)
  · simp only [if_neg hin, if_neg hafter]
    exact ⟨_, s, rfl, h, .behind (Int.natCast_nonneg _) (by show (target : Int) < s.start; omega)⟩

/-- The bytes that have been read are given up, in a buffer that has room for `n` bytes after the others. -/
theorem Follows.moved (h : Follows S s) {size n : Nat} (hsize : s.bufferSize ≤ size)
    (hroom : n + IO_BUFFER_SIZE - 1 ≤ size) :
    Follows S { s with buffer := s.buffer.drop s.bufPtr, bufPtr := 0, bufferSize := size } ∧
      s.cursor.Ensured n (cursor { s with buffer := s.buffer.drop s.bufPtr, bufPtr := 0, bufferSize := size }) := by
  have hend : bufEnd { s with buffer := s.buffer.drop s.bufPtr, bufPtr := 0, bufferSize := size } =
      s.bufEnd - s.bufPtr := List.length_drop
  have htell := h.tell_add
  have hstart : start { s with buffer := s.buffer.drop s.bufPtr, bufPtr := 0, bufferSize := size } = s.avioTell := by
    unfold start
    rw [hend]
    dsimp only
    omega
  have hfits := h.fits
  constructor
  · exact { h with
      ptr := Nat.zero_le _
      fits := by rw [hend]; dsimp only; omega
      orig_le := h.orig_le.trans hsize
      bufEnd_le := by rw [hend]; dsimp only; omega
      window := by rw [hstart]; exact h.unread }
  · refine ⟨hstart, rfl, Or.inr hstart, kept_le_kept (Nat.le_refl _) ?_ hsize, ?_⟩
    · rw [hstart]
      exact Nat.le_add_right _ _
    · refine le_max_of_le_right ?_
      rw [hstart]
      unfold IO_BUFFER_SIZE at hroom ⊢
      show s.avioTell + n ≤ s.avioTell + size + 1 - 32768
      omega

/-- **`ffio_ensure_seekback`** moves nothing in the file; when it returns 0, there is room for what it was asked for. -/
theorem ensureSeekback_eq (h : Follows S s) (bufSize : Int) :
    (∃ s', s.ensureSeekback bufSize = (0, s') ∧ Follows S s' ∧ s.cursor.Ensured bufSize.toNat s'.cursor) ∨
      s.ensureSeekback bufSize = (Avio.AVERROR_EINVAL, s) ∧ Avio.INT_MAX - IO_BUFFER_SIZE < bufSize := by
  have htell := h.tell_add
  -- where nothing is done, there is room
  have hstay : s.avioTell + bufSize.toNat ≤ s.kept → s.cursor.Ensured bufSize.toNat s.cursor :=
    fun hroom => ⟨rfl, rfl, Or.inl rfl, Nat.le_refl _, hroom⟩
  unfold ensureSeekback
  by_cases hfilled : bufSize ≤ ((s.bufEnd - s.bufPtr : Nat) : Int)
  · simp only [if_pos hfilled]
    refine Or.inl ⟨s, rfl, h, hstay (le_max_of_le_left ?_)⟩
    omega
  simp only [if_neg hfilled]
  by_cases hlarge : Avio.INT_MAX - IO_BUFFER_SIZE < bufSize
  · simp only [if_pos hlarge]
    exact Or.inr ⟨trivial, hlarge⟩
  simp only [if_neg hlarge]
  by_cases hroom : bufSize.toNat + IO_BUFFER_SIZE - 1 + s.bufPtr ≤ s.bufferSize
  · simp only [if_pos hroom]
    refine Or.inl ⟨s, rfl, h, hstay (le_max_of_le_right ?_)⟩
    have hsplit : s.avioTell = s.start + s.bufPtr := rfl
    unfold IO_BUFFER_SIZE at hroom ⊢
    omega
  simp only [if_neg hroom]
  by_cases hsize : bufSize.toNat + IO_BUFFER_SIZE - 1 ≤ s.bufferSize
  · rw [if_pos hsize]
    exact Or.inl ⟨_, rfl, h.moved (Nat.le_refl _) hsize⟩
  · rw [if_neg hsize]
    exact Or.inl ⟨_, rfl, h.moved (Nat.le_of_not_le hsize) (Nat.le_refl _)⟩

end AVIOContext

/-! ## The demuxer and the file -/

inductive StreamCall
  | read (size : Nat)
  | r8
  | seek (offset : Int) (whence : Whence)
  | feof
  | ensureSeekback (bufSize : Int)

inductive StreamAnswer
  | read (ret : Int) (data : List UInt8)
  | byte (b : UInt8)
  | code (ret : Int)
  | flag (b : Bool)

def AVIOContext.call {σ : Type} {file : List UInt8} (S : PacketSource file σ) (s : AVIOContext σ) :
    StreamCall → Option (StreamAnswer × AVIOContext σ)
  | .read size => (s.avioRead S size).map fun r => (.read r.1.1 r.1.2, r.2)
  | .r8 => some (.byte (s.avioR8 S).1, (s.avioR8 S).2)
  | .seek offset whence => (s.avioSeek S offset whence).map fun r => (.code r.1, r.2)
  | .feof => some (.flag (s.avioFeof S).1, (s.avioFeof S).2)
  | .ensureSeekback bufSize => some (.code (s.ensureSeekback bufSize).1, (s.ensureSeekback bufSize).2)

/-- Where a seek leads to; there is none from the end. -/
def Whence.target (tell : Nat) (offset : Int) : Whence → Option Int
  | .set => some offset
  | .cur => if INT64_MAX - tell < offset then none else some (offset + tell)
  | .fromEnd | .size => none

/-- **What a file answers**, at a place, when it is read through a buffer. -/
inductive FileStep (file : List UInt8) (endCode : Int) (c : Cursor) : StreamCall → StreamAnswer → Cursor → Prop
  | read {size : Nat} {ret : Int} {c' : Cursor} :
      AVIOContext.ReadReturn endCode size (file.extract c.tell (c.tell + size)) ret → c.After file size c' →
      FileStep file endCode c (.read size) (.read ret (file.extract c.tell (c.tell + size))) c'
  | r8 {c' : Cursor} : c.After file 1 c' → FileStep file endCode c .r8 (.byte (file.getD c.tell 0)) c'
  | tell : FileStep file endCode c (.seek 0 .cur) (.code c.tell) c
  | seek {offset target ret : Int} {whence : Whence} {c' : Cursor} : (whence = .cur → offset ≠ 0) →
      whence.target c.tell offset = some target → SeekStep file c target ret c' →
      FileStep file endCode c (.seek offset whence) (.code ret) c'
  | invalid {offset : Int} {whence : Whence} : whence.target c.tell offset = none → whence ≠ .size →
      FileStep file endCode c (.seek offset whence) (.code Avio.AVERROR_EINVAL) c
  | size {offset : Int} : FileStep file endCode c (.seek offset .size) (.code AVERROR_ENOSYS) c
  | feof : FileStep file endCode c .feof (.flag c.ended) c
  /-- At the end everything may be given up, with the bytes not read yet after a seek past the end. -/
  | feofAgain {c' : Cursor} : c.ended = true → c.kept ≤ file.length → c'.ended = true → c'.tell = file.length →
      c'.start = file.length → FileStep file endCode c .feof (.flag true) c'
  | ensured {bufSize : Int} {c' : Cursor} : c.Ensured bufSize.toNat c' →
      FileStep file endCode c (.ensureSeekback bufSize) (.code 0) c'
  | tooLarge {bufSize : Int} : Avio.INT_MAX - IO_BUFFER_SIZE < bufSize →
      FileStep file endCode c (.ensureSeekback bufSize) (.code Avio.AVERROR_EINVAL) c

namespace AVIOContext

variable {σ : Type} {file : List UInt8} {S : PacketSource file σ} {s : AVIOContext σ}

theorem avioSeek_eq (h : Follows S s) (offset : Int) (whence : Whence) : ∃ ret s',
    s.avioSeek S offset whence = some (ret, s') ∧ Follows S s' ∧
      FileStep file S.endCode s.cursor (.seek offset whence) (.code ret) s'.cursor := by
  cases whence with
  | size => exact ⟨_, s, rfl, h, .size⟩
  | fromEnd => exact ⟨_, s, rfl, h, .invalid rfl (by decide)⟩
  | set =>
      obtain ⟨ret, s', heq, ht, hs⟩ := seekTo_eq h offset
      exact ⟨ret, s', heq, ht, .seek nofun rfl hs⟩
  | cur =>
      unfold avioSeek
      by_cases hzero : offset = 0
      · subst hzero
        exact ⟨_, s, rfl, h, .tell⟩
      rw [if_neg hzero]
      by_cases hlarge : INT64_MAX - s.avioTell < offset
      · rw [if_pos hlarge]
        exact ⟨_, s, rfl, h, .invalid (if_pos hlarge) (by decide)⟩
      · rw [if_neg hlarge]
        obtain ⟨ret, s', heq, ht, hs⟩ := seekTo_eq h (offset + s.avioTell)
        exact ⟨ret, s', heq, ht, .seek (fun _ => hzero) (if_neg hlarge) hs⟩

/-- **Every call returns, and is answered as the file answers it.** -/
theorem call_eq (h : Follows S s) (a : StreamCall) : ∃ o s', s.call S a = some (o, s') ∧
    FileStep file S.endCode s.cursor a o s'.cursor ∧ Follows S s' := by
  cases a with
  | read size =>
      obtain ⟨ret, s', heq, hc, hret⟩ := avioRead_eq h size
      exact ⟨.read ret (file.extract s.avioTell (s.avioTell + size)), s', by rw [call, heq, Option.map_some],
        .read hret hc.after, hc.follows⟩
  | r8 =>
      obtain ⟨s', heq, hc⟩ := avioR8_eq h
      exact ⟨.byte (file.getD s.avioTell 0), s', by rw [call, heq], .r8 hc.after, hc.follows⟩
  | seek offset whence =>
      obtain ⟨ret, s', heq, ht, hstep⟩ := avioSeek_eq h offset whence
      exact ⟨_, s', by rw [call, heq, Option.map_some], hstep, ht⟩
  | feof =>
      obtain ⟨s', heq, ht, hsame⟩ := avioFeof_eq h
      refine ⟨.flag s.eofReached, s', by rw [call, heq], ?_, ht⟩
      rcases hsame with hsame | ⟨hended, hkept, hended', htell, hstart⟩
      · rw [hsame]
        exact .feof
      · rw [hended]
        exact .feofAgain hended hkept hended' htell hstart
  | ensureSeekback bufSize =>
      rcases ensureSeekback_eq h bufSize with ⟨s', heq, ht, hensured⟩ | ⟨heq, hlarge⟩
      · exact ⟨.code 0, s', by rw [call, heq], .ensured hensured, ht⟩
      · exact ⟨.code Avio.AVERROR_EINVAL, s, by rw [call, heq], .tooLarge hlarge, h⟩

theorem perform_eq (h : Follows S s) (calls : List StreamCall) : ∃ answers s',
    perform (call S) s calls = some (answers, s') ∧ Runs (FileStep file S.endCode) s.cursor calls answers s'.cursor ∧
      Follows S s' := by
  have hstep : ∀ s c a, Follows S s ∧ s.cursor = c → ∃ o s' c', call S s a = some (o, s') ∧
      FileStep file S.endCode c a o c' ∧ Follows S s' ∧ s'.cursor = c' := by
    rintro s c a ⟨hs, rfl⟩
    obtain ⟨o, s', heq, hone, ht⟩ := call_eq hs a
    exact ⟨o, s', _, heq, hone, ht, rfl⟩
  obtain ⟨os, s', c, heq, hruns, ht, rfl⟩ :=
    perform_refines (fun s c => Follows S s ∧ s.cursor = c) hstep ⟨h, rfl⟩ calls
  exact ⟨os, s', heq, hruns, ht⟩

end AVIOContext

/-- **What the demuxer reads is the file**: in whatever pieces the channel delivers it, every sequence of calls on the
context of `loadStream` returns, and each call is answered as the file answers it. -/
theorem stream_is_file (file : List UInt8) (ready : Nat → Nat) (calls : List StreamCall) : ∃ answers s,
    perform (AVIOContext.call (playerSource file ready)) (avioAllocContext CUSTOMIO_BUFFER_SIZE ⟨0, 0⟩) calls =
      some (answers, s) ∧
    Runs (FileStep file (-1)) ⟨0, false, 0, Nat.le_refl 0, 0⟩ calls answers s.cursor := by
  have h : AVIOContext.Follows (playerSource file ready) (avioAllocContext CUSTOMIO_BUFFER_SIZE ⟨0, 0⟩) :=
    AVIOContext.follows_alloc rfl (by decide)
  obtain ⟨answers, s, heq, hruns, -⟩ := AVIOContext.perform_eq h calls
  exact ⟨answers, s, heq, hruns⟩

/-- One byte at a time, of five: the read of two fetches two bytes, and the first is not there any more. -/
example : (perform (AVIOContext.call (playerSource [7, 8, 9, 10, 11] fun _ => 0))
    (avioAllocContext CUSTOMIO_BUFFER_SIZE ⟨0, 0⟩)
    [.read 2, .r8, .seek 0 .set, .seek 4 .set, .read 2]).map (·.1) =
      some [.read 2 [7, 8], .byte 9, .code AVERROR_EPIPE, .code 4, .read 1 [11]] := rfl

end ArcVideo
