import Mathlib.Data.List.Basic
import Mathlib.Data.List.Infix
import Mathlib.Algebra.Order.Ring.Nat

/-!
# Pieces of a list, and of a stream in chunks

* `extract_append` : adjacent pieces of a list join; `take_extract`, `drop_extract` : pieces of a piece are pieces;
* `Chunks` : the chunks in the order they arrive, none of them empty; `joined k` : the first `k` of them, joined;
* `Place` : what is left of the chunk being read, and the number of the next one;
* `Chunks.Read` : the elements read, followed by what is left of the current chunk, are the chunks fetched;
  `Read.refill` (fetch a chunk), `Read.cut` (read some of the current one), `Read.eq_take` (the elements read are the
  stream's first);
* `Chunks.Lazy` : a chunk is fetched only when it is needed (`Read.lt_next_iff`).
-/

namespace Conc

/-! ## Pieces of a list -/

section
variable {α : Type*}

theorem length_extract (l : List α) (i j : Nat) : (l.extract i j).length = min j l.length - i := by
  rw [List.extract_eq_take_drop, List.length_take, List.length_drop]
  omega

theorem extract_of_le {l : List α} {i j : Nat} (h : j ≤ i) : l.extract i j = [] := by
  rw [List.extract_eq_take_drop, Nat.sub_eq_zero_of_le h, List.take_zero]

theorem extract_of_length_le {l : List α} {i : Nat} (h : l.length ≤ i) (j : Nat) : l.extract i j = [] := by
  rw [List.extract_eq_take_drop, List.drop_of_length_le h, List.take_nil]

theorem extract_append {i j k : Nat} (l : List α) (hij : i ≤ j) (hjk : j ≤ k) :
    l.extract i j ++ l.extract j k = l.extract i k := by
  rw [List.extract_eq_take_drop, List.extract_eq_take_drop, List.extract_eq_take_drop,
    show k - i = (j - i) + (k - j) by omega, List.take_add, List.drop_drop, show i + (j - i) = j by omega]

theorem take_extract (l : List α) (i j n : Nat) : (l.extract i j).take n = l.extract i (min (i + n) j) := by
  rw [List.extract_eq_take_drop, List.extract_eq_take_drop, List.take_take]
  congr 1
  omega

theorem drop_extract (l : List α) (i j n : Nat) : (l.extract i j).drop n = l.extract (i + n) j := by
  rw [List.extract_eq_drop_take', List.extract_eq_drop_take', List.drop_drop]

theorem getElem?_extract {l : List α} {i j k : Nat} (h : i + k < j) : (l.extract i j)[k]? = l[i + k]? := by
  rw [List.extract_eq_drop_take', List.getElem?_drop, List.getElem?_take_of_lt h]

theorem extract_zero (l : List α) (j : Nat) : l.extract 0 j = l.take j := rfl

end

/-! ## Chunks -/

structure Chunks (α : Type*) where
  chunk : Nat → List α
  ne_nil : ∀ i, chunk i ≠ []

/-- What is left of the current chunk, and the number of the next chunk. -/
structure Place (α : Type*) where
  rest : List α
  next : Nat

namespace Chunks

variable {α : Type*} (C : Chunks α)

def joined (k : Nat) : List α := (List.range k).flatMap C.chunk

theorem joined_zero : C.joined 0 = [] := rfl

theorem joined_succ (k : Nat) : C.joined (k + 1) = C.joined k ++ C.chunk k := by
  simp [joined, List.range_succ]

theorem joined_mono {k l : Nat} (h : k ≤ l) : C.joined k <+: C.joined l := by
  induction h with
  | refl => exact List.prefix_refl _
  | step _ ih =>
      rw [joined_succ]
      exact ih.trans (List.prefix_append _ _)

theorem chunk_length_pos (i : Nat) : 0 < (C.chunk i).length := List.length_pos_of_ne_nil (C.ne_nil i)

/-! ### Reading -/

/-- The elements `out` have been read, and the reader is at `p`. -/
def Read (out : List α) (p : Place α) : Prop := out ++ p.rest = C.joined p.next

/-- Nothing is fetched ahead: when the last chunk fetched was needed, what was read is longer than the chunks before. -/
def Lazy (out : List α) (p : Place α) : Prop := ∀ i < p.next, (C.joined i).length < out.length

variable {C}

theorem Read.start : C.Read [] ⟨[], 0⟩ := rfl

theorem Lazy.start : C.Lazy [] ⟨[], 0⟩ := fun _ h => absurd h (Nat.not_lt_zero _)

theorem Read.refill {out : List α} {k : Nat} (h : C.Read out ⟨[], k⟩) : C.Read out ⟨C.chunk k, k + 1⟩ := by
  unfold Read at h ⊢
  rw [List.append_nil] at h
  rw [h, joined_succ]

theorem Read.cut {out : List α} {p : Place α} (n : Nat) (h : C.Read out p) :
    C.Read (out ++ p.rest.take n) ⟨p.rest.drop n, p.next⟩ := by
  unfold Read at h ⊢
  rw [List.append_assoc, List.take_append_drop, h]

theorem Lazy.cut {out : List α} {p : Place α} (n : Nat) (h : C.Lazy out p) :
    C.Lazy (out ++ p.rest.take n) ⟨p.rest.drop n, p.next⟩ := by
  intro i hi
  have hlt := h i hi
  rw [List.length_append]
  omega

theorem Lazy.refill_cut {out : List α} {k n : Nat} (hr : C.Read out ⟨[], k⟩) (hl : C.Lazy out ⟨[], k⟩) (hn : 0 < n) :
    C.Lazy (out ++ (C.chunk k).take n) ⟨(C.chunk k).drop n, k + 1⟩ := by
  intro i hi
  have hpos := C.chunk_length_pos k
  have hk : out.length = (C.joined k).length := by
    unfold Read at hr
    rw [List.append_nil] at hr
    rw [hr]
  rw [List.length_append, List.length_take]
  rcases Nat.lt_succ_iff_lt_or_eq.mp hi with hi | rfl
  · have hlt := hl i hi
    omega
  · omega

/-- **What was read is the beginning of the stream**, however many of its chunks are looked at. -/
theorem Read.eq_take {out : List α} {p : Place α} (h : C.Read out p) {k : Nat} (hk : p.next ≤ k) :
    out = (C.joined k).take out.length := by
  obtain ⟨t, ht⟩ := C.joined_mono hk
  unfold Read at h
  rw [← ht, ← h, List.append_assoc, List.take_left]

theorem Read.length_le {out : List α} {p : Place α} (h : C.Read out p) : out.length ≤ (C.joined p.next).length := by
  unfold Read at h
  rw [← h, List.length_append]
  omega

/-- The chunks fetched are those that begin before the end of what was read. -/
theorem Read.lt_next_iff {out : List α} {p : Place α} (h : C.Read out p) (hl : C.Lazy out p) (i : Nat) :
    i < p.next ↔ (C.joined i).length < out.length := by
  constructor
  · exact hl i
  · intro hi
    by_contra hge
    have hle := (C.joined_mono (Nat.le_of_not_lt hge)).length_le
    have hout := h.length_le
    omega

end Chunks

end Conc
