import Mathlib.Data.List.Basic
import Mathlib.Data.List.Infix

/-!
# Labelled transition systems and their runs

* `System` : initial states and a partial step function, so that a run can be evaluated;
* `Path ok s h t` : the steps recorded in `h` lead from `s` to `t` and each of them meets `ok`;
  `RunWhen ok h t` starts in an initial state, `Run h t` is the case without a condition;
* `RunWhen.induction` : what the empty run has and every step keeps, every run has;
* `exec` : a run computed from its list of actions (`run_of_exec`, `exists_run`);
* `visited` : the states of a run (`forall_visited_snoc`, `RunWhen.forall_visited`);
* `Run.prefix_of_mem` : each recorded step ends a prefix that is a run itself;
* `RunWhen.le_of_mem`, `RunWhen.passes` : what no step lowers was lower before; a count that a step raises by one at
  most takes every value on the way;
* `Automaton`, `Automaton.Leads` : an automaton that reads events, and triples for what a list of them does to it;
* `accepts_of_simulation` : the events of every run are accepted by an abstract automaton.
-/

namespace Conc

/-- A labelled transition system; `step s a = none` where the action `a` is not enabled in `s`. -/
structure System (σ α : Type*) where
  init : σ → Prop
  step : σ → α → Option σ

/-- The states that the steps `h` pass on the way to `t`, and `t`. -/
def visited {σ α : Type*} (h : List (σ × α)) (t : σ) : List σ := h.map Prod.fst ++ [t]

theorem forall_visited_snoc {σ α : Type*} (h : List (σ × α)) (s t : σ) (a : α) (P : σ → Prop) :
    (∀ u ∈ visited (h ++ [(s, a)]) t, P u) ↔ (∀ u ∈ visited h s, P u) ∧ P t := by
  rw [visited, visited, List.map_append, List.forall_mem_append, List.map_singleton, List.forall_mem_singleton]

theorem mem_visited_last {σ α : Type*} (h : List (σ × α)) (t : σ) : t ∈ visited h t :=
  List.mem_append_right _ (List.mem_singleton_self t)

theorem mem_visited_before {σ α : Type*} {h : List (σ × α)} {s t u : σ} {a : α} (hu : u ∈ visited h s) :
    u ∈ visited (h ++ [(s, a)]) t := by
  rw [visited, List.map_append]
  exact List.mem_append_left _ hu

namespace System

variable {σ α : Type*} (M : System σ α)

/-- The steps `h` (state before, action) lead from `s` to the last state, each of them meeting `ok`. -/
inductive Path (ok : σ → α → Prop) (s : σ) : List (σ × α) → σ → Prop
  | nil : Path ok s [] s
  | snoc {h : List (σ × α)} {t u : σ} {a : α} :
      Path ok s h t → ok t a → M.step t a = some u → Path ok s (h ++ [(t, a)]) u

/-- A run whose steps all meet `ok`. -/
def RunWhen (ok : σ → α → Prop) (h : List (σ × α)) (t : σ) : Prop := ∃ s, M.init s ∧ M.Path ok s h t

abbrev Free : σ → α → Prop := fun _ _ => True

abbrev Run (h : List (σ × α)) (t : σ) : Prop := M.RunWhen Free h t

variable {M}

theorem RunWhen.snoc {ok : σ → α → Prop} {h : List (σ × α)} {t u : σ} {a : α} (hr : M.RunWhen ok h t)
    (hok : ok t a) (hstep : M.step t a = some u) : M.RunWhen ok (h ++ [(t, a)]) u := by
  obtain ⟨s, hs, hp⟩ := hr
  exact ⟨s, hs, hp.snoc hok hstep⟩

theorem RunWhen.unsnoc {ok : σ → α → Prop} {h : List (σ × α)} {s t : σ} {a : α} (hr : M.RunWhen ok (h ++ [(s, a)]) t) :
    M.RunWhen ok h s ∧ ok s a ∧ M.step s a = some t := by
  obtain ⟨r, hi, hp⟩ := hr
  generalize hk : h ++ [(s, a)] = k at hp
  cases hp with
  | nil => exact absurd hk (by simp)
  | snoc hp hok hstep =>
      obtain ⟨rfl, hlast⟩ := List.append_inj' hk rfl
      cases hlast
      exact ⟨⟨r, hi, hp⟩, hok, hstep⟩

/-- **Induction over a run**: the initial states and every step that meets `ok`. -/
theorem RunWhen.induction {ok : σ → α → Prop} {P : List (σ × α) → σ → Prop}
    (init : ∀ s, M.init s → P [] s)
    (step : ∀ h s a t, M.RunWhen ok h s → P h s → ok s a → M.step s a = some t → P (h ++ [(s, a)]) t)
    {h : List (σ × α)} {t : σ} (hr : M.RunWhen ok h t) : P h t := by
  obtain ⟨s, hs, hp⟩ := hr
  induction hp with
  | nil => exact init s hs
  | snoc hp hok hstep ih => exact step _ _ _ _ ⟨s, hs, hp⟩ ih hok hstep

/-- **Induction along a path** from a state that need not be initial. -/
theorem Path.invariant {ok : σ → α → Prop} {P : σ → Prop}
    (step : ∀ s a t, P s → ok s a → M.step s a = some t → P t)
    {s t : σ} {h : List (σ × α)} (hp : M.Path ok s h t) (hs : P s) : P t := by
  induction hp with
  | nil => exact hs
  | snoc _ hok hstep ih => exact step _ _ _ ih hok hstep

theorem Path.invariant_before {ok : σ → α → Prop} {P : σ → Prop}
    (step : ∀ s a t, P s → ok s a → M.step s a = some t → P t)
    {s t : σ} {h : List (σ × α)} (hp : M.Path ok s h t) (hs : P s) : ∀ p ∈ h, P p.1 := by
  induction hp with
  | nil => exact fun p hp => absurd hp List.not_mem_nil
  | snoc hp _ _ ih =>
      intro p hmem
      rcases List.mem_append.mp hmem with hmem | hmem
      · exact ih p hmem
      · rw [List.mem_singleton.mp hmem]
        exact hp.invariant step hs

theorem Path.mono {ok ok' : σ → α → Prop} (hok : ∀ s a, ok s a → ok' s a) {s t : σ} {h : List (σ × α)}
    (hp : M.Path ok s h t) : M.Path ok' s h t := by
  induction hp with
  | nil => exact .nil
  | snoc _ ho hstep ih => exact ih.snoc (hok _ _ ho) hstep

theorem RunWhen.mono {ok ok' : σ → α → Prop} (hok : ∀ s a, ok s a → ok' s a) {t : σ} {h : List (σ × α)}
    (hr : M.RunWhen ok h t) : M.RunWhen ok' h t := by
  obtain ⟨s, hs, hp⟩ := hr
  exact ⟨s, hs, hp.mono hok⟩

theorem RunWhen.run {ok : σ → α → Prop} {t : σ} {h : List (σ × α)} (hr : M.RunWhen ok h t) : M.Run h t :=
  hr.mono fun _ _ _ => trivial

theorem Path.trans {ok : σ → α → Prop} {s t u : σ} {h h' : List (σ × α)} (hp : M.Path ok s h t)
    (hq : M.Path ok t h' u) : M.Path ok s (h ++ h') u := by
  induction hq with
  | nil => rwa [List.append_nil]
  | snoc _ hok hstep ih =>
      rw [← List.append_assoc]
      exact ih.snoc hok hstep

theorem RunWhen.append {ok : σ → α → Prop} {t u : σ} {h h' : List (σ × α)} (hr : M.RunWhen ok h t)
    (hp : M.Path ok t h' u) : M.RunWhen ok (h ++ h') u := by
  obtain ⟨s, hs, hq⟩ := hr
  exact ⟨s, hs, hq.trans hp⟩

theorem Run.when {ok : σ → α → Prop} {t : σ} {h : List (σ × α)} (hr : M.Run h t)
    (hok : ∀ p ∈ h, ok p.1 p.2) : M.RunWhen ok h t := by
  obtain ⟨s, hs, hp⟩ := hr
  refine ⟨s, hs, ?_⟩
  clear hs
  induction hp with
  | nil => exact .nil
  | snoc _ _ hstep ih =>
      exact (ih fun p hm => hok p (List.mem_append_left _ hm)).snoc
        (hok _ (List.mem_append_right _ (List.mem_singleton_self _))) hstep

theorem Path.ok_of_mem {ok : σ → α → Prop} {s t : σ} {h : List (σ × α)} (hp : M.Path ok s h t) :
    ∀ p ∈ h, ok p.1 p.2 := by
  induction hp with
  | nil => exact fun p hm => absurd hm List.not_mem_nil
  | snoc _ hok _ ih => exact List.forall_mem_append.mpr ⟨ih, List.forall_mem_singleton.mpr hok⟩

theorem RunWhen.ok_of_mem {ok : σ → α → Prop} {t : σ} {h : List (σ × α)} (hr : M.RunWhen ok h t) :
    ∀ p ∈ h, ok p.1 p.2 := by
  obtain ⟨_, _, hp⟩ := hr
  exact hp.ok_of_mem

/-! ## Evaluating a run -/

variable (M) in
/-- Run the actions `as` from `s`: the steps taken and the last state. -/
def exec (s : σ) : List α → Option (List (σ × α) × σ)
  | [] => some ([], s)
  | a :: as => (M.step s a).bind fun t => (exec t as).map fun r => ((s, a) :: r.1, r.2)

theorem path_of_exec {as : List α} : ∀ {s t : σ} {h : List (σ × α)}, M.exec s as = some (h, t) →
    M.Path Free s h t := by
  induction as with
  | nil =>
      intro s t h he
      cases he
      exact .nil
  | cons a as ih =>
      intro s t h he
      obtain ⟨u, hu, he⟩ := Option.bind_eq_some_iff.mp he
      obtain ⟨⟨h', t'⟩, hr, he⟩ := Option.map_eq_some_iff.mp he
      cases he
      have hone : M.Path Free s [(s, a)] u := Path.snoc .nil trivial hu
      exact hone.trans (ih hr)

theorem run_of_exec {s t : σ} {as : List α} {h : List (σ × α)} (hs : M.init s)
    (he : M.exec s as = some (h, t)) : M.Run h t :=
  ⟨s, hs, path_of_exec he⟩

variable (M) in
/-- **A run by evaluation**: the actions `as` are enabled one after the other and lead to where `P` holds. -/
theorem exists_run {s : σ} (hs : M.init s) (as : List α) (P : List (σ × α) → σ → Prop) [∀ h t, Decidable (P h t)]
    (he : (M.exec s as).any (fun r => decide (P r.1 r.2)) = true) : ∃ h t, M.Run h t ∧ P h t := by
  obtain ⟨⟨h, t⟩, hex, hp⟩ := (Option.any_eq_true _ _).mp he
  exact ⟨h, t, run_of_exec hs hex, of_decide_eq_true hp⟩

/-! ## The steps of a run -/

/-- Every recorded step ends a prefix of the run, which is a run itself. -/
theorem Run.prefix_of_mem {h : List (σ × α)} {t : σ} (hr : M.Run h t) {p : σ × α} (hp : p ∈ h) :
    ∃ g u, g ++ [p] <+: h ∧ M.Run g p.1 ∧ M.step p.1 p.2 = some u := by
  refine RunWhen.induction (P := fun h _ => p ∈ h → ∃ g u, g ++ [p] <+: h ∧ M.Run g p.1 ∧ M.step p.1 p.2 = some u)
    (fun s _ hp => absurd hp List.not_mem_nil) ?_ hr hp
  intro h s a t hr ih _ hstep hp
  rcases List.mem_append.mp hp with hp | hp
  · obtain ⟨g, u, hpre, hg, hu⟩ := ih hp
    exact ⟨g, u, hpre.trans (List.prefix_append _ _), hg, hu⟩
  · rw [List.mem_singleton.mp hp]
    exact ⟨h, t, List.prefix_refl _, hr, hstep⟩

/-- What every run under `ok` reaches, every state of it has. -/
theorem RunWhen.forall_visited {ok : σ → α → Prop} {P : σ → Prop} (hP : ∀ h t, M.RunWhen ok h t → P t)
    {h : List (σ × α)} {t : σ} (hr : M.RunWhen ok h t) : ∀ u ∈ visited h t, P u := by
  refine RunWhen.induction (P := fun h t => ∀ u ∈ visited h t, P u) ?_ ?_ hr
  · intro s hs u hu
    rw [List.mem_singleton.mp hu]
    exact hP [] s ⟨s, hs, .nil⟩
  · intro h s a t hr ih hok hstep
    exact (forall_visited_snoc h s t a P).mpr ⟨ih, hP _ t (hr.snoc hok hstep)⟩

/-- **A count takes every value on the way**: from 0, raised by one at most in a step. -/
theorem RunWhen.passes {ok : σ → α → Prop} (f : σ → Nat) (hinit : ∀ s, M.init s → f s = 0)
    (hstep : ∀ s a t, M.step s a = some t → f t ≤ f s + 1) {h : List (σ × α)} {t : σ} (hr : M.RunWhen ok h t)
    {k : Nat} (hk : k ≤ f t) : f t = k ∨ ∃ p ∈ h, f p.1 = k := by
  refine RunWhen.induction (P := fun h t => k ≤ f t → f t = k ∨ ∃ p ∈ h, f p.1 = k) ?_ ?_ hr hk
  · intro s hs hk
    rw [hinit s hs] at hk ⊢
    exact Or.inl (Nat.le_zero.mp hk).symm
  · intro h s a t _ ih _ hs hk
    rcases Nat.lt_or_ge (f s) k with hlt | hge
    · have := hstep s a t hs
      exact Or.inl (by omega)
    · refine Or.inr ?_
      rcases ih hge with he | ⟨p, hp, he⟩
      · exact ⟨(s, a), List.mem_append_right _ (List.mem_singleton_self _), he⟩
      · exact ⟨p, List.mem_append_left _ hp, he⟩

theorem RunWhen.le_of_mem {ok : σ → α → Prop} {β : Type*} [Preorder β] (f : σ → β)
    (hstep : ∀ s a t, M.step s a = some t → f s ≤ f t) {h : List (σ × α)} {t : σ} (hr : M.RunWhen ok h t)
    {p : σ × α} (hp : p ∈ h) : f p.1 ≤ f t := by
  refine RunWhen.induction (P := fun h t => ∀ p ∈ h, f p.1 ≤ f t) ?_ ?_ hr p hp
  · exact fun _ _ p hp => absurd hp List.not_mem_nil
  · intro h s a t _ ih _ hs p hp
    rcases List.mem_append.mp hp with hp | hp
    · exact (ih p hp).trans (hstep s a t hs)
    · rw [List.mem_singleton.mp hp]
      exact hstep s a t hs

end System

/-! ## Refinement of an abstract automaton -/

/-- An automaton that reads events; `none` rejects. -/
structure Automaton (τ ε : Type*) where
  start : τ
  next : τ → ε → Option τ

namespace Automaton

variable {τ ε : Type*} (A : Automaton τ ε)

def feed (t : τ) : List ε → Option τ
  | [] => some t
  | e :: es => (A.next t e).bind fun u => feed u es

theorem feed_append (t : τ) (es es' : List ε) : A.feed t (es ++ es') = (A.feed t es).bind fun u => A.feed u es' := by
  induction es generalizing t with
  | nil => rfl
  | cons e es ih =>
      rw [List.cons_append, feed, feed, Option.bind_assoc]
      congr 1
      funext u
      exact ih u

theorem exists_next_of_mem {t u : τ} {es : List ε} (h : A.feed t es = some u) {e : ε} (he : e ∈ es) :
    ∃ v w, A.next v e = some w := by
  induction es generalizing t with
  | nil => exact absurd he List.not_mem_nil
  | cons e' es ih =>
      obtain ⟨v, hv, hrest⟩ := Option.bind_eq_some_iff.mp h
      rcases List.mem_cons.mp he with rfl | he
      · exact ⟨t, v, hv⟩
      · exact ih hrest he

/-! ### Triples -/

/-- From every state that meets `P` the events `es` are accepted and lead to a state that meets `Q`. -/
def Leads (P : τ → Prop) (es : List ε) (Q : τ → Prop) : Prop := ∀ t, P t → ∃ u, A.feed t es = some u ∧ Q u

variable {A}

theorem Leads.nil {P Q : τ → Prop} (h : ∀ t, P t → Q t) : A.Leads P [] Q := fun t ht => ⟨t, rfl, h t ht⟩

theorem Leads.append {P Q R : τ → Prop} {es es' : List ε} (h : A.Leads P es Q) (h' : A.Leads Q es' R) :
    A.Leads P (es ++ es') R := by
  intro t ht
  obtain ⟨u, hu, hQ⟩ := h t ht
  obtain ⟨v, hv, hR⟩ := h' u hQ
  refine ⟨v, ?_, hR⟩
  rw [A.feed_append, hu, Option.bind_some, hv]

theorem Leads.one {P Q : τ → Prop} {e : ε} (h : ∀ t, P t → ∃ u, A.next t e = some u ∧ Q u) : A.Leads P [e] Q := by
  intro t ht
  obtain ⟨u, hu, hQ⟩ := h t ht
  refine ⟨u, ?_, hQ⟩
  rw [feed, hu, Option.bind_some, feed]

theorem Leads.cons {P Q R : τ → Prop} {e : ε} {es : List ε} (h : A.Leads P [e] Q) (h' : A.Leads Q es R) :
    A.Leads P (e :: es) R := h.append h'

theorem Leads.mono {P P' Q Q' : τ → Prop} {es : List ε} (h : A.Leads P es Q) (hP : ∀ t, P' t → P t)
    (hQ : ∀ t, Q t → Q' t) : A.Leads P' es Q' := by
  intro t ht
  obtain ⟨u, hu, hu'⟩ := h t (hP t ht)
  exact ⟨u, hu, hQ u hu'⟩

theorem Leads.stay {P : τ → Prop} {es : List ε} (h : ∀ e ∈ es, ∀ t, P t → A.next t e = some t) : A.Leads P es P := by
  induction es with
  | nil => exact .nil fun _ => id
  | cons e es ih =>
      refine .cons (.one fun t ht => ⟨t, h e List.mem_cons_self t ht, ht⟩) (ih fun e he => ?_)
      exact h e (List.mem_cons_of_mem _ he)

end Automaton

/-- **Forward simulation**: when each step's events lead the automaton from related to related states, the events of
every run are accepted, and the states reached are related. -/
theorem System.accepts_of_simulation {σ α τ ε : Type*} {M : System σ α} {A : Automaton τ ε} {ok : σ → α → Prop}
    (event : σ → α → List ε) (R : σ → τ → Prop) (hinit : ∀ s, M.init s → R s A.start)
    (hstep : ∀ h s a s' t, M.RunWhen ok h s → R s t → ok s a → M.step s a = some s' →
      ∃ t', A.feed t (event s a) = some t' ∧ R s' t')
    {h : List (σ × α)} {s : σ} (hr : M.RunWhen ok h s) :
    ∃ t, A.feed A.start (h.flatMap fun p => event p.1 p.2) = some t ∧ R s t := by
  refine RunWhen.induction (P := fun h s => ∃ t, A.feed A.start (h.flatMap fun p => event p.1 p.2) = some t ∧ R s t)
    ?_ ?_ hr
  · intro s hs
    exact ⟨A.start, rfl, hinit s hs⟩
  · rintro h s a s' hr ⟨t, ht, hR⟩ hok hs
    obtain ⟨t', ht', hR'⟩ := hstep h s a s' t hr hR hok hs
    refine ⟨t', ?_, hR'⟩
    rw [List.flatMap_append, A.feed_append, ht]
    simpa using ht'

end Conc
