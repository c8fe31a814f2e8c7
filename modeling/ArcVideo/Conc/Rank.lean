import Mathlib.Data.List.Count
import ArcVideo.Conc.System

/-!
# Ranks: bounded work and progress

* `Ranked` : a rank that every step that works lowers, and that only wake-ups raise, by `k` at most, in the states of an
  invariant;
* `Ranked.count_le` : a path has no more working steps than the rank of its first state and `k` for each wake-up;
* `Ranked.reaches` : where a working step is always possible until the goal is reached, the goal can be reached;
* `Endless`, `Fair` : endless paths, and those in which working steps are not put off for ever;
* `Ranked.eventually` : an endless fair path with finitely many wake-ups reaches the goal.
-/

namespace Conc

variable {σ α : Type*} {M : System σ α}

/-- In the states that meet `I`, which every step under `ok` keeps, the rank `μ` is lowered by a step that works, and
raised by one that wakes only, by `k` at most. -/
structure Ranked (M : System σ α) (ok : σ → α → Prop) (works wakes : σ → α → Bool) (k : Nat) (I : σ → Prop)
    (μ : σ → Nat) : Prop where
  keeps : ∀ s a t, I s → ok s a → M.step s a = some t → I t
  lowers : ∀ s a t, I s → ok s a → M.step s a = some t → μ t + (works s a).toNat ≤ μ s + k * (wakes s a).toNat

/-- A path without an end. -/
structure System.Endless (M : System σ α) (ok : σ → α → Prop) (s : σ) (states : Nat → σ) (actions : Nat → α) :
    Prop where
  zero : states 0 = s
  ok : ∀ i, ok (states i) (actions i)
  step : ∀ i, M.step (states i) (actions i) = some (states (i + 1))

/-- A step that works is not put off for ever while there always is one. -/
def System.Fair (M : System σ α) (ok : σ → α → Prop) (works : σ → α → Bool) (states : Nat → σ) (actions : Nat → α) :
    Prop :=
  ∀ i, (∀ j, i ≤ j → ∃ a t, ok (states j) a ∧ M.step (states j) a = some t ∧ works (states j) a = true) →
    ∃ j, i ≤ j ∧ works (states j) (actions j) = true

namespace Ranked

variable {ok : σ → α → Prop} {works wakes : σ → α → Bool} {k : Nat} {I : σ → Prop} {μ : σ → Nat}

theorem keeps_path (R : Ranked M ok works wakes k I μ) {s t : σ} {h : List (σ × α)} (hp : M.Path ok s h t)
    (hs : I s) : I t :=
  hp.invariant R.keeps hs

/-- **Bounded work**, on any path. -/
theorem count_le (R : Ranked M ok works wakes k I μ) {s t : σ} {h : List (σ × α)} (hp : M.Path ok s h t) (hs : I s) :
    h.countP (fun p => works p.1 p.2) + μ t ≤ μ s + k * h.countP (fun p => wakes p.1 p.2) := by
  induction hp with
  | nil => exact (Nat.zero_add _).le
  | @snoc h t u a hp hok hstep ih =>
      have hlow := R.lowers t a u (R.keeps_path hp hs) hok hstep
      rw [List.countP_append, List.countP_append, List.countP_singleton, List.countP_singleton, Nat.mul_add]
      cases hw : works t a <;> cases hk : wakes t a <;>
        simp only [hw, hk, Bool.toNat_false, Bool.toNat_true, if_true, if_false, Bool.false_eq_true] at hlow ⊢ <;> omega

/-- **Progress**: the goal is reached from every state where only working steps are taken. -/
theorem reaches (R : Ranked M ok works wakes k I μ) (goal : σ → Prop)
    (hprog : ∀ s, I s → ¬ goal s → ∃ a t, ok s a ∧ M.step s a = some t ∧ works s a = true ∧ wakes s a = false) {s : σ}
    (hs : I s) : ∃ h t, M.Path ok s h t ∧ goal t := by
  induction hn : μ s using Nat.strongRecOn generalizing s with
  | ind n ih =>
      by_cases hg : goal s
      · exact ⟨[], s, .nil, hg⟩
      · obtain ⟨a, t, hok, hstep, hw, hk⟩ := hprog s hs hg
        have hlow := R.lowers s a t hs hok hstep
        rw [hw, hk, Bool.toNat_true, Bool.toNat_false] at hlow
        obtain ⟨h, u, hp, hu⟩ := ih (μ t) (by omega) (R.keeps s a t hs hok hstep) rfl
        have hone : M.Path ok s [(s, a)] t := System.Path.snoc .nil hok hstep
        exact ⟨(s, a) :: h, u, hone.trans hp, hu⟩

variable {s : σ} {states : Nat → σ} {actions : Nat → α}

theorem keeps_endless (R : Ranked M ok works wakes k I μ) (hp : M.Endless ok s states actions) (hs : I s) (i : Nat) :
    I (states i) := by
  induction i with
  | zero => exact hp.zero ▸ hs
  | succ i ih => exact R.keeps _ _ _ ih (hp.ok i) (hp.step i)

theorem rank_le (R : Ranked M ok works wakes k I μ) (hp : M.Endless ok s states actions) (hs : I s) {i j : Nat}
    (hij : i ≤ j) (hcalm : ∀ l, i ≤ l → l < j → wakes (states l) (actions l) = false) :
    μ (states j) ≤ μ (states i) := by
  induction hij with
  | refl => exact Nat.le_refl _
  | @step j hij ih =>
      have hlow := R.lowers _ _ _ (R.keeps_endless hp hs j) (hp.ok j) (hp.step j)
      rw [hcalm j hij (Nat.lt_succ_self j)] at hlow
      have hle := ih fun l hil hlj => hcalm l hil (Nat.lt_succ_of_lt hlj)
      rw [Bool.toNat_false] at hlow
      show μ (states (j + 1)) ≤ μ (states i)
      omega

/-- **What must happen**: an endless path in which working steps are not put off for ever and the wake-ups come to an
end reaches the goal, where a working step is always possible until then. -/
theorem eventually (R : Ranked M ok works wakes k I μ) (goal : σ → Prop)
    (hprog : ∀ s, I s → ¬ goal s → ∃ a t, ok s a ∧ M.step s a = some t ∧ works s a = true) (hs : I s)
    (hp : M.Endless ok s states actions) (hfair : M.Fair ok works states actions)
    (hcalm : ∃ n, ∀ i, n ≤ i → wakes (states i) (actions i) = false) : ∃ i, goal (states i) := by
  by_contra hnever
  have hnot : ∀ i, ¬goal (states i) := fun i hi => hnever ⟨i, hi⟩
  obtain ⟨n, hcalm⟩ := hcalm
  -- the rank is lowered again and again from there on
  have hlower : ∀ m i, n ≤ i → μ (states i) = m → False := by
    intro m
    induction m using Nat.strongRecOn with
    | ind m ih =>
        intro i hi hm
        obtain ⟨j, hij, hwork⟩ := hfair i fun j _ => hprog _ (R.keeps_endless hp hs j) (hnot j)
        have hle := R.rank_le hp hs hij fun l hil _ => hcalm l (hi.trans hil)
        have hlow := R.lowers _ _ _ (R.keeps_endless hp hs j) (hp.ok j) (hp.step j)
        rw [hwork, hcalm j (hi.trans hij), Bool.toNat_true, Bool.toNat_false] at hlow
        exact ih (μ (states (j + 1))) (by omega) (j + 1) (hi.trans (hij.trans (Nat.le_succ j))) rfl
  exact hlower _ n (Nat.le_refl n) rfl

end Ranked

end Conc
