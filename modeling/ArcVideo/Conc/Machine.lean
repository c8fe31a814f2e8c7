import Mathlib.Data.List.Basic

/-!
# Deterministic machines and two runs of one

* `Machine` : every input is answered with an output and a next state;
* `after`, `trace` : the state after a list of inputs and the outputs on the way;
* `map` : the outputs seen through a function;
* `after_invariant` : what every input keeps holds after any list of inputs;
* `Bisimulation` : related states answer an input alike and stay related. Two runs from related states have the same
  trace (`Bisimulation.trace_eq`) and end in related states (`Bisimulation.after`);
* `perform` : the answers of a computation that may not return; `Runs` : the answers that a relation allows;
* `perform_refines` : when every answer is one the relation allows, so are those of a run.
-/

namespace Conc

structure Machine (σ α ο : Type*) where
  next : σ → α → σ
  output : σ → α → ο

namespace Machine

variable {σ α ο : Type*} (M : Machine σ α ο)

def after (s : σ) (as : List α) : σ := as.foldl M.next s

def trace (s : σ) : List α → List ο
  | [] => []
  | a :: as => M.output s a :: trace (M.next s a) as

def map {ο' : Type*} (f : ο → ο') : Machine σ α ο' := ⟨M.next, fun s a => f (M.output s a)⟩

variable {M}

/-- **Induction over the inputs.** -/
theorem after_invariant {I : σ → Prop} (hnext : ∀ s a, I s → I (M.next s a)) {s : σ} (hs : I s) (as : List α) :
    I (M.after s as) := by
  induction as generalizing s with
  | nil => exact hs
  | cons a as ih => exact ih (hnext s a hs)

variable (M) in
/-- States related by `R` answer the inputs that meet `ok` alike and lead to related states. -/
structure Bisimulation (ok : α → Prop) (R : σ → σ → Prop) : Prop where
  output : ∀ {s t a}, R s t → ok a → M.output s a = M.output t a
  next : ∀ {s t a}, R s t → ok a → R (M.next s a) (M.next t a)

namespace Bisimulation

variable {ok : α → Prop} {R : σ → σ → Prop}

/-- **Two runs from related states cannot be told apart.** -/
theorem trace_eq (hb : M.Bisimulation ok R) {s t : σ} (hR : R s t) {as : List α} (hok : ∀ a ∈ as, ok a) :
    M.trace s as = M.trace t as := by
  induction as generalizing s t with
  | nil => rfl
  | cons a as ih =>
      have ha : ok a := hok a List.mem_cons_self
      rw [trace, trace, hb.output hR ha, ih (hb.next hR ha) fun b hm => hok b (List.mem_cons_of_mem a hm)]

theorem after (hb : M.Bisimulation ok R) {s t : σ} (hR : R s t) {as : List α} (hok : ∀ a ∈ as, ok a) :
    R (M.after s as) (M.after t as) := by
  induction as generalizing s t with
  | nil => exact hR
  | cons a as ih =>
      exact ih (hb.next hR (hok a List.mem_cons_self)) fun b hm => hok b (List.mem_cons_of_mem a hm)

end Bisimulation

end Machine

/-! ## Runs with answers -/

section runs
variable {σ τ α ο : Type*}

/-- The inputs are answered one after another, as `step` allows. -/
inductive Runs (step : τ → α → ο → τ → Prop) : τ → List α → List ο → τ → Prop
  | nil (t : τ) : Runs step t [] [] t
  | cons {t u v : τ} {a : α} {o : ο} {as : List α} {os : List ο} :
      step t a o u → Runs step u as os v → Runs step t (a :: as) (o :: os) v

/-- The answers to the inputs and the last state; `none` where an answer does not come. -/
def perform (f : σ → α → Option (ο × σ)) : σ → List α → Option (List ο × σ)
  | s, [] => some ([], s)
  | s, a :: as => (f s a).bind fun r => (perform f r.2 as).map fun rs => (r.1 :: rs.1, rs.2)

/-- **Refinement**: every input is answered, with an answer that `step` allows in a related state. -/
theorem perform_refines {f : σ → α → Option (ο × σ)} {step : τ → α → ο → τ → Prop} (R : σ → τ → Prop)
    (hstep : ∀ s t a, R s t → ∃ o s' t', f s a = some (o, s') ∧ step t a o t' ∧ R s' t') {s : σ} {t : τ} (h : R s t)
    (as : List α) : ∃ os s' t', perform f s as = some (os, s') ∧ Runs step t as os t' ∧ R s' t' := by
  induction as generalizing s t with
  | nil => exact ⟨[], s, t, rfl, .nil t, h⟩
  | cons a as ih =>
      obtain ⟨o, s₁, t₁, hf, hone, h₁⟩ := hstep s t a h
      obtain ⟨os, s₂, t₂, hrest, hruns, h₂⟩ := ih h₁
      refine ⟨o :: os, s₂, t₂, ?_, .cons hone hruns, h₂⟩
      rw [perform, hf, Option.bind_some, hrest, Option.map_some]

end runs

end Conc
