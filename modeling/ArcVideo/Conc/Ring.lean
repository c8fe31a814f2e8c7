import Mathlib.Algebra.GroupWithZero.Nat
import Mathlib.Data.Fin.Basic
import Mathlib.Data.List.Basic
import ArcVideo.Conc.System

/-!
# A queue kept in a ring of slots

* `slot n i` : the slot of index `i`; indices less than `n` apart have different slots (`slot_ne`);
* `Holds store lo q` : the entries of `q` are in the slots from index `lo` on. Kept by writes to the slot after the
  last entry while fewer than `n` entries are queued (`Holds.congr`), by appending what that slot holds (`Holds.snoc`)
  and by giving up the oldest entry (`Holds.tail`);
* `Fifo` : the queue itself, as an automaton that reads `put` and `get`; what is got is what was put, in order, and
  the rest is still queued (`Fifo.puts_eq`).
-/

namespace Conc

/-! ## Slots -/

/-- The slot of index `i` in a ring of `n` slots. -/
def slot (n : Nat) [NeZero n] (i : Nat) : Fin n := Fin.ofNat n i

theorem slot_ne {n : Nat} [NeZero n] {i j : Nat} (h : i < j) (hn : j < i + n) : slot n i ≠ slot n j := by
  intro he
  have hm : j % n = i % n := congrArg Fin.val he.symm
  have hd : n ∣ j - i := Nat.dvd_of_mod_eq_zero (Nat.sub_mod_eq_zero_of_mod_eq hm)
  exact absurd (Nat.le_of_dvd (by omega) hd) (by omega)

/-! ## A queue in its slots -/

section Holds
variable {n : Nat} [NeZero n] {β : Type*}

/-- The entries of `q` are in the slots from index `lo` on. -/
def Holds (store : Fin n → β) (lo : Nat) (q : List β) : Prop := ∀ i x, q[i]? = some x → store (slot n (lo + i)) = x

theorem Holds.nil (store : Fin n → β) (lo : Nat) : Holds store lo [] := fun _ _ h => by cases h

theorem Holds.head {store : Fin n → β} {lo : Nat} {x : β} {q : List β} (h : Holds store lo (x :: q)) :
    store (slot n lo) = x := h 0 x rfl

theorem Holds.tail {store : Fin n → β} {lo : Nat} {x : β} {q : List β} (h : Holds store lo (x :: q)) :
    Holds store (lo + 1) q := by
  intro i y hy
  rw [Nat.add_right_comm, Nat.add_assoc]
  exact h (i + 1) y hy

theorem Holds.snoc {store : Fin n → β} {lo : Nat} {q : List β} (h : Holds store lo q) {x : β}
    (hx : store (slot n (lo + q.length)) = x) : Holds store lo (q ++ [x]) := by
  intro i y hy
  rcases Nat.lt_trichotomy i q.length with hlt | rfl | hgt
  · rw [List.getElem?_append_left hlt] at hy
    exact h i y hy
  · rw [List.getElem?_concat_length] at hy
    exact hx.trans (Option.some.inj hy)
  · rw [List.getElem?_eq_none (by rw [List.length_append, List.length_singleton]; omega)] at hy
    cases hy

theorem Holds.congr {store store' : Fin n → β} {lo : Nat} {q : List β} (h : Holds store lo q) (hn : q.length < n)
    (hw : ∀ i, i ≠ slot n (lo + q.length) → store' i = store i) : Holds store' lo q := by
  intro i x hx
  have hlt : i < q.length := (List.getElem?_eq_some_iff.mp hx).1
  rw [hw _ (slot_ne (by omega) (by omega))]
  exact h i x hx

end Holds

/-! ## The queue -/

inductive Fifo.Event (β : Type*)
  | put (x : β)
  | get (x : β)

namespace Fifo

variable {β : Type*}

open Classical in
/-- The queue automaton: `get` only takes the oldest entry. -/
noncomputable def automaton (β : Type*) : Automaton (List β) (Event β) where
  start := []
  next
    | q, .put x => some (q ++ [x])
    | [], .get _ => none
    | y :: q, .get x => if x = y then some q else none

@[simp] theorem feed_put (q : List β) (x : β) : (automaton β).feed q [.put x] = some (q ++ [x]) := by
  cases q <;> rfl

@[simp] theorem feed_get (x : β) (q : List β) : (automaton β).feed (x :: q) [.get x] = some q := by
  simp [Automaton.feed, automaton]

def puts (es : List (Event β)) : List β := es.filterMap fun | .put x => some x | .get _ => none

def gets (es : List (Event β)) : List β := es.filterMap fun | .get x => some x | .put _ => none

theorem puts_append (es es' : List (Event β)) : puts (es ++ es') = puts es ++ puts es' := List.filterMap_append

theorem gets_append (es es' : List (Event β)) : gets (es ++ es') = gets es ++ gets es' := List.filterMap_append

theorem feed_eq {es : List (Event β)} : ∀ {q r : List β}, (automaton β).feed q es = some r →
    q ++ puts es = gets es ++ r := by
  induction es with
  | nil =>
      intro q r h
      cases h
      simp [puts, gets]
  | cons e es ih =>
      intro q r h
      obtain ⟨u, hu, h⟩ := Option.bind_eq_some_iff.mp h
      have := ih h
      cases e with
      | put x =>
          cases hu
          simpa [puts, gets] using this
      | get x =>
          cases q with
          | nil => cases hu
          | cons y q =>
              simp only [automaton, Option.ite_none_right_eq_some, Option.some.injEq] at hu
              obtain ⟨rfl, rfl⟩ := hu
              simpa [puts, gets] using this

/-- **What is taken is what was put, in order**, and what remains is still queued. -/
theorem puts_eq {es : List (Event β)} {r : List β} (h : (automaton β).feed [] es = some r) :
    puts es = gets es ++ r := feed_eq h

end Fifo

end Conc
