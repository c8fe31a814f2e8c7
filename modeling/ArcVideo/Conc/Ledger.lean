import Mathlib.Algebra.BigOperators.Group.Finset.Basic
import Mathlib.Data.Fintype.Basic
import Mathlib.Data.List.Nodup

/-!
# Objects owned by the members of a record

A record acquires objects, each stored into a member, and frees them through its members.

* `Ledger` : the object in each slot, the objects acquired, those freed;
* `LedgerOp` : store a new object, forget the one held, free it; `lost` is what becomes unreachable;
* `held_run` : what a slot holds after a run of operations is what the last of them on this slot has left;
* `Sound`, `Complete` : no object is freed or held twice, none is lost. `complete_run` : a run of operations leaves the
  ledger complete exactly when none of them loses an object;
* `keeps_iff_of_nodup` : over operations on different slots, losing is decided by the slots at the start;
* `freeAll_exact` : freeing every slot frees each object exactly once, and nothing else, exactly when none was lost.
-/

namespace Conc

structure Ledger (ι κ : Type*) where
  /-- The number of the object in a slot. -/
  slot : ι → Option Nat
  /-- The objects in the order in which they were acquired. -/
  objects : List κ
  freed : List Nat

inductive LedgerOp (ι κ : Type*)
  | store (i : ι) (k : κ)
  | forget (i : ι)
  | free (i : ι)

namespace LedgerOp

variable {ι κ : Type*}

def target : LedgerOp ι κ → ι
  | .store i _ => i
  | .forget i => i
  | .free i => i

def leaves : LedgerOp ι κ → Option κ
  | .store _ k => some k
  | .forget _ => none
  | .free _ => none

end LedgerOp

namespace Ledger

variable {ι κ : Type*}

def acquired (l : Ledger ι κ) : Nat := l.objects.length

@[ext] theorem ext {l l' : Ledger ι κ} (hs : ∀ i, l.slot i = l'.slot i) (ho : l.objects = l'.objects)
    (hf : l.freed = l'.freed) : l = l' := by
  cases l
  cases l'
  obtain rfl := funext hs
  obtain rfl := ho
  obtain rfl := hf
  rfl

/-- The object in a slot. -/
def held (l : Ledger ι κ) (i : ι) : Option κ := (l.slot i).bind fun id => l.objects[id]?

theorem held_of_none {l : Ledger ι κ} {i : ι} (h : l.slot i = none) : l.held i = none := by
  rw [held, h, Option.bind_none]

/-- The object that becomes unreachable without having been freed. -/
def lost (l : Ledger ι κ) : LedgerOp ι κ → Option Nat
  | .store i _ => l.slot i
  | .forget i => l.slot i
  | .free _ => none

theorem lost_eq_none {l : Ledger ι κ} {o : LedgerOp ι κ} (h : l.slot o.target = none) : l.lost o = none := by
  cases o with
  | store i k => exact h
  | forget i => exact h
  | free i => rfl

variable [DecidableEq ι]

def apply (l : Ledger ι κ) : LedgerOp ι κ → Ledger ι κ
  | .store i k => { l with slot := Function.update l.slot i (some l.acquired), objects := l.objects ++ [k] }
  | .forget i => { l with slot := Function.update l.slot i none }
  | .free i => { l with slot := Function.update l.slot i none, freed := l.freed ++ (l.slot i).toList }

def run (l : Ledger ι κ) (ops : List (LedgerOp ι κ)) : Ledger ι κ := ops.foldl apply l

@[simp] theorem run_nil (l : Ledger ι κ) : l.run [] = l := rfl

@[simp] theorem run_cons (l : Ledger ι κ) (o : LedgerOp ι κ) (ops : List (LedgerOp ι κ)) :
    l.run (o :: ops) = (l.apply o).run ops := rfl

theorem run_append (l : Ledger ι κ) (ops ops' : List (LedgerOp ι κ)) : l.run (ops ++ ops') = (l.run ops).run ops' :=
  List.foldl_append

theorem slot_apply_of_ne (l : Ledger ι κ) {o : LedgerOp ι κ} {i : ι} (h : i ≠ o.target) :
    (l.apply o).slot i = l.slot i := by
  cases o <;> exact Function.update_of_ne h _ _

theorem slot_run_of_notMem {ops : List (LedgerOp ι κ)} {i : ι} (h : i ∉ ops.map LedgerOp.target) (l : Ledger ι κ) :
    (l.run ops).slot i = l.slot i := by
  induction ops generalizing l with
  | nil => rfl
  | cons o ops ih =>
      rw [List.map_cons, List.mem_cons, not_or] at h
      rw [run_cons, ih h.2, l.slot_apply_of_ne h.1]

theorem acquired_le_apply (l : Ledger ι κ) (o : LedgerOp ι κ) : l.acquired ≤ (l.apply o).acquired := by
  cases o with
  | store i k =>
      rw [acquired, apply, acquired, List.length_append]
      exact Nat.le_add_right _ _
  | forget i => exact Nat.le_refl _
  | free i => exact Nat.le_refl _

/-! ## Losing an object -/

def Keeps (l : Ledger ι κ) : List (LedgerOp ι κ) → Prop
  | [] => True
  | o :: ops => l.lost o = none ∧ (l.apply o).Keeps ops

/-- Only the slot an operation is about decides what it loses. -/
theorem lost_apply_of_ne (l : Ledger ι κ) {o o' : LedgerOp ι κ} (h : o'.target ≠ o.target) :
    (l.apply o).lost o' = l.lost o' := by
  cases o' with
  | store i k => exact l.slot_apply_of_ne h
  | forget i => exact l.slot_apply_of_ne h
  | free i => rfl

theorem keeps_append {ops ops' : List (LedgerOp ι κ)} {l : Ledger ι κ} :
    l.Keeps (ops ++ ops') ↔ l.Keeps ops ∧ (l.run ops).Keeps ops' := by
  induction ops generalizing l with
  | nil => exact ⟨fun h => ⟨trivial, h⟩, And.right⟩
  | cons o ops ih => rw [List.cons_append, Keeps, Keeps, ih, run_cons, and_assoc]

theorem keeps_free (is : List ι) {l : Ledger ι κ} : l.Keeps (is.map .free) := by
  induction is generalizing l with
  | nil => trivial
  | cons i is ih => exact ⟨rfl, ih⟩

/-- Operations on different slots do not fill or empty each other's. -/
theorem keeps_iff_of_nodup {ops : List (LedgerOp ι κ)} (h : (ops.map LedgerOp.target).Nodup) {l : Ledger ι κ} :
    l.Keeps ops ↔ ∀ o ∈ ops, l.lost o = none := by
  induction ops generalizing l with
  | nil => exact ⟨fun _ o ho => absurd ho List.not_mem_nil, fun _ => trivial⟩
  | cons o ops ih =>
      rw [List.map_cons, List.nodup_cons] at h
      rw [Keeps, ih h.2, List.forall_mem_cons]
      refine and_congr_right fun _ => forall₂_congr fun o' ho' => ?_
      have hne : o'.target ≠ o.target := fun he => h.1 (he ▸ List.mem_map_of_mem ho')
      rw [l.lost_apply_of_ne hne]

/-! ## What is left in a slot -/

/-- What a list of operations leaves in a slot, where one of them is on it. -/
def effect (ops : List (LedgerOp ι κ)) (i : ι) : Option (Option κ) :=
  match ops with
  | [] => none
  | o :: ops => (effect ops i).or (if o.target = i then some o.leaves else none)

theorem effect_eq_none {ops : List (LedgerOp ι κ)} {i : ι} : effect ops i = none ↔ i ∉ ops.map LedgerOp.target := by
  induction ops with
  | nil => exact iff_of_true rfl List.not_mem_nil
  | cons o ops ih =>
      rw [effect, Option.or_eq_none_iff, ih, List.map_cons, List.mem_cons, not_or, and_comm]
      refine and_congr_left fun _ => ?_
      split_ifs with h
      · exact iff_of_false nofun fun hn => hn h.symm
      · exact iff_of_true rfl (Ne.symm h)

/-! ## Freeing everything -/

def freeAll (l : Ledger ι κ) (order : List ι) : Ledger ι κ := l.run (order.map .free)

theorem acquired_freeAll (l : Ledger ι κ) (order : List ι) : (l.freeAll order).acquired = l.acquired := by
  induction order generalizing l with
  | nil => rfl
  | cons i is ih => exact ih (l.apply (.free i))

theorem slot_freeAll {order : List ι} {i : ι} (h : i ∈ order) (l : Ledger ι κ) : (l.freeAll order).slot i = none := by
  induction order generalizing l with
  | nil => exact absurd h List.not_mem_nil
  | cons j is ih =>
      by_cases hmem : i ∈ is
      · exact ih hmem _
      · have hij : i = j := (List.mem_cons.mp h).resolve_right hmem
        have hne : i ∉ (is.map LedgerOp.free : List (LedgerOp ι κ)).map LedgerOp.target := by
          rw [List.map_map]
          change i ∉ is.map id
          rwa [List.map_id]
        rw [freeAll, List.map_cons, run_cons, slot_run_of_notMem hne, hij]
        exact Function.update_self ..

theorem freed_freeAll {order : List ι} (h : order.Nodup) (l : Ledger ι κ) :
    (l.freeAll order).freed = l.freed ++ order.flatMap fun i => (l.slot i).toList := by
  induction order generalizing l with
  | nil => exact (List.append_nil _).symm
  | cons i is ih =>
      rw [List.nodup_cons] at h
      have hsame : ∀ j ∈ is, ((l.apply (.free i)).slot j).toList = (l.slot j).toList := by
        intro j hj
        rw [l.slot_apply_of_ne (o := .free i) fun he => h.1 (by rwa [he] at hj)]
      calc (l.freeAll (i :: is)).freed
          = (l.apply (.free i)).freed ++ is.flatMap fun j => ((l.apply (.free i)).slot j).toList := ih h.2 _
        _ = l.freed ++ (l.slot i).toList ++ is.flatMap fun j => (l.slot j).toList := by
            rw [List.flatMap_congr hsame]
            rfl
        _ = l.freed ++ (i :: is).flatMap fun j => (l.slot j).toList := by rw [List.flatMap_cons, List.append_assoc]

/-! ## The account -/

variable [Fintype ι]

/-- How often an object is freed or held. -/
def owners (l : Ledger ι κ) (id : Nat) : Nat := l.freed.count id + ∑ i, (l.slot i).toList.count id

/-- No object is freed or held twice, and what is freed or held has been acquired. -/
def Sound (l : Ledger ι κ) : Prop := ∀ id, l.owners id ≤ if id < l.acquired then 1 else 0

def Complete (l : Ledger ι κ) : Prop := ∀ id < l.acquired, l.owners id = 1

def empty : Ledger ι κ := ⟨fun _ => none, [], []⟩

omit [DecidableEq ι] in
theorem sound_empty : (empty : Ledger ι κ).Sound := by
  intro id
  have hnone : (empty : Ledger ι κ).owners id = 0 := by simp [empty, owners]
  rw [hnone]
  exact Nat.zero_le _

omit [DecidableEq ι] in
theorem complete_empty : (empty : Ledger ι κ).Complete := fun id hid => absurd hid (Nat.not_lt_zero id)

theorem holders_update (s : ι → Option Nat) (i : ι) (v : Option Nat) (id : Nat) :
    ∑ j, (Function.update s i v j).toList.count id + (s i).toList.count id =
      ∑ j, (s j).toList.count id + v.toList.count id := by
  have hrest : ∀ j ∈ Finset.univ.erase i, (Function.update s i v j).toList.count id = (s j).toList.count id := by
    intro j hj
    rw [Function.update_of_ne (Finset.ne_of_mem_erase hj)]
  rw [← Finset.add_sum_erase _ _ (Finset.mem_univ i), Finset.sum_congr rfl hrest, Function.update_self,
    ← Finset.add_sum_erase Finset.univ (fun j => (s j).toList.count id) (Finset.mem_univ i)]
  omega

theorem owners_apply (l : Ledger ι κ) (o : LedgerOp ι κ) (id : Nat) :
    (l.apply o).owners id + (l.lost o).toList.count id =
      l.owners id + (List.range' l.acquired ((l.apply o).acquired - l.acquired)).count id := by
  cases o with
  | store i k =>
      have h := holders_update l.slot i (some l.acquired) id
      have hnew : (l.apply (.store i k)).acquired - l.acquired = 1 := by simp [apply, acquired]
      rw [hnew]
      dsimp only [apply, owners, lost]
      change _ = _ + [l.acquired].count id
      change _ = _ + [l.acquired].count id at h
      omega
  | forget i =>
      have h := holders_update l.slot i none id
      rw [show (l.apply (.forget i)).acquired - l.acquired = 0 from Nat.sub_self _]
      dsimp only [apply, owners, lost]
      change _ = _ + 0 at h ⊢
      omega
  | free i =>
      have h := holders_update l.slot i none id
      rw [show (l.apply (.free i)).acquired - l.acquired = 0 from Nat.sub_self _]
      dsimp only [apply, owners, lost]
      rw [List.count_append]
      change _ = _ + 0 at h ⊢
      change _ + 0 = _
      omega

theorem owners_apply_cases (l : Ledger ι κ) (o : LedgerOp ι κ) (id : Nat) :
    (l.apply o).owners id + (if l.lost o = some id then 1 else 0) =
      l.owners id + if l.acquired ≤ id ∧ id < (l.apply o).acquired then 1 else 0 := by
  have h := l.owners_apply o id
  have hlost : (l.lost o).toList.count id = if l.lost o = some id then 1 else 0 := by
    cases l.lost o with
    | none => rfl
    | some n => simp [List.count_singleton]
  have hmono := l.acquired_le_apply o
  have hnew : (l.acquired ≤ id ∧ id < l.acquired + ((l.apply o).acquired - l.acquired)) ↔
      (l.acquired ≤ id ∧ id < (l.apply o).acquired) := by omega
  rw [List.Nodup.count List.nodup_range', hlost] at h
  simpa only [List.mem_range'_1, hnew] using h

theorem Sound.apply {l : Ledger ι κ} (h : l.Sound) (o : LedgerOp ι κ) : (l.apply o).Sound := by
  intro id
  have hown := l.owners_apply_cases o id
  have hle := h id
  have hmono := l.acquired_le_apply o
  split_ifs at hown hle ⊢ <;> omega

theorem Sound.run {l : Ledger ι κ} (h : l.Sound) (ops : List (LedgerOp ι κ)) : (l.run ops).Sound := by
  induction ops generalizing l with
  | nil => exact h
  | cons o ops ih => exact ih (h.apply o)

theorem Sound.slot_lt {l : Ledger ι κ} (h : l.Sound) {i : ι} {id : Nat} (hi : l.slot i = some id) :
    id < l.acquired := by
  have hle := h id
  rw [owners, ← Finset.add_sum_erase _ _ (Finset.mem_univ i), hi, Option.toList_some, List.count_singleton_self] at hle
  by_contra hge
  rw [if_neg hge] at hle
  omega

theorem Sound.held_ne_none {l : Ledger ι κ} (h : l.Sound) {i : ι} (hi : l.slot i ≠ none) : l.held i ≠ none := by
  obtain ⟨id, hid⟩ := Option.ne_none_iff_exists'.mp hi
  rw [held, hid, Option.bind_some, List.getElem?_eq_getElem (h.slot_lt hid)]
  exact nofun

theorem held_apply {l : Ledger ι κ} (h : l.Sound) (o : LedgerOp ι κ) (i : ι) :
    (l.apply o).held i = if o.target = i then o.leaves else l.held i := by
  split_ifs with hi
  · obtain rfl := hi
    cases o with
    | store i k =>
        have hslot : (l.apply (.store i k)).slot i = some l.acquired := Function.update_self ..
        rw [held, LedgerOp.target, hslot, Option.bind_some]
        exact List.getElem?_concat_length
    | forget i => exact held_of_none (Function.update_self ..)
    | free i => exact held_of_none (Function.update_self ..)
  · rw [held, held, l.slot_apply_of_ne (Ne.symm hi)]
    refine Option.bind_congr fun id hid => ?_
    cases o with
    | store j k => exact List.getElem?_append_left (h.slot_lt hid)
    | forget j => rfl
    | free j => rfl

theorem held_run {ops : List (LedgerOp ι κ)} {l : Ledger ι κ} (h : l.Sound) (i : ι) :
    (l.run ops).held i = (effect ops i).getD (l.held i) := by
  induction ops generalizing l with
  | nil => rfl
  | cons o ops ih =>
      rw [run_cons, ih (h.apply o), held_apply h, effect]
      cases effect ops i with
      | some v => rfl
      | none => split_ifs <;> rfl

theorem Sound.lost_lt {l : Ledger ι κ} (h : l.Sound) {o : LedgerOp ι κ} {id : Nat} (hl : l.lost o = some id) :
    id < l.acquired := by
  cases o with
  | store i k => exact h.slot_lt hl
  | forget i => exact h.slot_lt hl
  | free i => cases hl

theorem complete_apply {l : Ledger ι κ} (h : l.Sound) (o : LedgerOp ι κ) :
    (l.apply o).Complete ↔ l.Complete ∧ l.lost o = none := by
  have hown := l.owners_apply_cases o
  have hmono := l.acquired_le_apply o
  constructor
  · intro hc
    -- what the operation loses has no owner any more
    have hnone : l.lost o = none := by
      refine Option.eq_none_iff_forall_ne_some.mpr fun id hl => ?_
      have hid := h.lost_lt hl
      have hone := hc id (by omega)
      have hle := h id
      have := hown id
      rw [if_pos hl, if_neg (by omega)] at this
      rw [if_pos hid] at hle
      omega
    refine ⟨fun id hid => ?_, hnone⟩
    have hone := hc id (by omega)
    have := hown id
    rw [hnone, if_neg (by simp), if_neg (by omega)] at this
    omega
  · rintro ⟨hc, hnone⟩ id hid
    have := hown id
    rw [hnone, if_neg (by simp)] at this
    by_cases hold : id < l.acquired
    · rw [if_neg (by omega), hc id hold] at this
      omega
    · have hle := h id
      rw [if_neg hold] at hle
      rw [if_pos (by omega)] at this
      omega

/-- **A run of operations** leaves the ledger complete exactly when none of them loses an object. -/
theorem complete_run {ops : List (LedgerOp ι κ)} {l : Ledger ι κ} (h : l.Sound) :
    (l.run ops).Complete ↔ l.Complete ∧ l.Keeps ops := by
  induction ops generalizing l with
  | nil => exact ⟨fun hc => ⟨hc, trivial⟩, And.left⟩
  | cons o ops ih => rw [run_cons, ih (h.apply o), complete_apply h, and_assoc, Keeps]

/-- **Freeing every slot** frees each object exactly once, and nothing else, exactly when none was lost. -/
theorem freeAll_exact {l : Ledger ι κ} (h : l.Sound) {order : List ι} (hall : ∀ i, i ∈ order) :
    (∀ id, (l.freeAll order).freed.count id = if id < l.acquired then 1 else 0) ↔ l.Complete := by
  have hcount : ∀ id, (l.freeAll order).owners id = (l.freeAll order).freed.count id := by
    intro id
    rw [owners, Finset.sum_eq_zero, Nat.add_zero]
    intro i _
    rw [slot_freeAll (hall i)]
    rfl
  have hcomplete : (l.freeAll order).Complete ↔ l.Complete := by
    rw [freeAll, complete_run h]
    exact and_iff_left (keeps_free _)
  rw [← hcomplete]
  constructor
  · intro hone id hid
    rw [acquired_freeAll] at hid
    rw [hcount, hone, if_pos hid]
  · intro hc id
    split_ifs with hid
    · rw [← hcount]
      exact hc id (by rwa [acquired_freeAll])
    · have hle := h.run (order.map .free) id
      change (l.freeAll order).owners id ≤ if id < (l.freeAll order).acquired then 1 else 0 at hle
      rw [acquired_freeAll, if_neg hid, hcount] at hle
      omega

end Ledger

end Conc
