import Mathlib.Logic.Function.Basic
import ArcVideo.Conc.System

/-!
# Threads over a shared state, and proof outlines

* `Program` : each thread `i` has a local state `L i` and steps that read and write it and the shared state;
* `Config`, `Program.system` : the interleavings of the threads' steps;
* `Program.outline` : the rule of proof outlines. An assertion for each thread, about its own local state and the
  shared state, holds in every run when each step establishes the stepping thread's assertion and keeps the others';
* `Program.relyGuarantee` : the same with the effect of a step on the shared state named once (`G`), every other
  thread's assertion being stable under it.
-/

namespace Conc

/-- The steps of the threads `ι`: thread `i` has local states `L i` and actions `A i`. -/
structure Program (ι : Type) (L A : ι → Type) (σ : Type) where
  step : ∀ i, A i → L i → σ → Option (L i × σ)

structure Config {ι : Type} (L : ι → Type) (σ : Type) where
  loc : ∀ i, L i
  shared : σ

variable {ι : Type} [DecidableEq ι] {L A : ι → Type} {σ : Type}

/-- Thread `i` moves to `l` and leaves the shared state `x`. -/
def Config.put (c : Config L σ) (i : ι) (l : L i) (x : σ) : Config L σ := ⟨Function.update c.loc i l, x⟩

@[simp] theorem Config.put_shared (c : Config L σ) (i : ι) (l : L i) (x : σ) : (c.put i l x).shared = x := rfl

@[simp] theorem Config.put_loc_self (c : Config L σ) (i : ι) (l : L i) (x : σ) : (c.put i l x).loc i = l :=
  Function.update_self i l c.loc

theorem Config.put_loc_of_ne (c : Config L σ) {i j : ι} (h : j ≠ i) (l : L i) (x : σ) :
    (c.put i l x).loc j = c.loc j := Function.update_of_ne h l c.loc

namespace Program

variable (P : Program ι L A σ)

def next (c : Config L σ) (a : Σ i, A i) : Option (Config L σ) :=
  (P.step a.1 a.2 (c.loc a.1) c.shared).map fun r => c.put a.1 r.1 r.2

/-- The interleavings of the threads' steps. -/
def system (init : Config L σ → Prop) : System (Config L σ) (Σ i, A i) := ⟨init, P.next⟩

variable {P}

theorem next_eq_some {c d : Config L σ} {i : ι} {a : A i} (h : P.next c ⟨i, a⟩ = some d) :
    ∃ l x, P.step i a (c.loc i) c.shared = some (l, x) ∧ d = c.put i l x := by
  obtain ⟨⟨l, x⟩, hs, hd⟩ := Option.map_eq_some_iff.mp h
  exact ⟨l, x, hs, hd.symm⟩

/-- **The rule of proof outlines.** -/
theorem outline {init : Config L σ → Prop} {ok : Config L σ → (Σ i, A i) → Prop} {I : ∀ i, L i → σ → Prop}
    (hinit : ∀ c, init c → ∀ i, I i (c.loc i) c.shared)
    (hown : ∀ c i a l x, (∀ j, I j (c.loc j) c.shared) → ok c ⟨i, a⟩ →
      P.step i a (c.loc i) c.shared = some (l, x) → I i l x)
    (hother : ∀ c i a l x, (∀ j, I j (c.loc j) c.shared) → ok c ⟨i, a⟩ →
      P.step i a (c.loc i) c.shared = some (l, x) → ∀ j, j ≠ i → I j (c.loc j) x)
    {h : List (Config L σ × Σ i, A i)} {c : Config L σ} (hr : (P.system init).RunWhen ok h c) (i : ι) :
    I i (c.loc i) c.shared := by
  refine System.RunWhen.induction (P := fun _ c => ∀ i, I i (c.loc i) c.shared) (fun c hc => hinit c hc) ?_ hr i
  rintro _ c ⟨i, a⟩ d _ hI hok hstep j
  obtain ⟨l, x, hs, rfl⟩ := next_eq_some hstep
  by_cases hj : j = i
  · subst hj
    rw [Config.put_loc_self]
    exact hown c j a l x hI hok hs
  · rw [Config.put_loc_of_ne c hj]
    exact hother c i a l x hI hok hs j hj

/-- **Rely and guarantee**: thread `i` changes the shared state within `G i`, and the assertions of the other threads
are stable under `G i`. -/
theorem relyGuarantee {init : Config L σ → Prop} {ok : Config L σ → (Σ i, A i) → Prop} {I : ∀ i, L i → σ → Prop}
    (G : ι → σ → σ → Prop) (hinit : ∀ c, init c → ∀ i, I i (c.loc i) c.shared)
    (hown : ∀ c i a l x, (∀ j, I j (c.loc j) c.shared) → ok c ⟨i, a⟩ →
      P.step i a (c.loc i) c.shared = some (l, x) → I i l x ∧ G i c.shared x)
    (hstable : ∀ i j l x y, j ≠ i → I j l x → G i x y → I j l y)
    {h : List (Config L σ × Σ i, A i)} {c : Config L σ} (hr : (P.system init).RunWhen ok h c) (i : ι) :
    I i (c.loc i) c.shared :=
  outline hinit (fun c i a l x hI hok hs => (hown c i a l x hI hok hs).1)
    (fun c i a l x hI hok hs j hj => hstable i j _ _ _ hj (hI j) (hown c i a l x hI hok hs).2) hr i

end Program

end Conc
