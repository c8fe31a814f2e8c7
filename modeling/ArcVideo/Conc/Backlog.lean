import Mathlib.Data.List.Basic

/-!
# A worker with a backlog

A worker takes jobs in order; a job may give any number of outputs. Whoever runs it does not see it finish the jobs:
outputs come out one by one, and jobs are added meanwhile.

* `workAll` : the outputs of a list of jobs, and the worker after them;
* `Does work b new out b'` : from the backlog `b`, with the jobs `new` added, the outputs `out` come out and the backlog
  `b'` is left; these compose (`Does.trans`), and from nothing to nothing they are `workAll` (`Does.whole`).
-/

namespace Conc

variable {σ ι β : Type*} (work : σ → ι → List β × σ)

def workAll : σ → List ι → List β × σ
  | c, [] => ([], c)
  | c, j :: js => ((work c j).1 ++ (workAll (work c j).2 js).1, (workAll (work c j).2 js).2)

theorem workAll_append (c : σ) (js js' : List ι) : workAll work c (js ++ js') =
    ((workAll work c js).1 ++ (workAll work (workAll work c js).2 js').1,
      (workAll work (workAll work c js).2 js').2) := by
  induction js generalizing c with
  | nil => rfl
  | cons j js ih => rw [List.cons_append, workAll, ih, workAll, List.append_assoc]

/-- A step of a worker with a backlog: what came out, and what is still to come out of what is left, is what comes out
of the backlog and the new jobs. -/
def Does (b : σ × List ι) (new : List ι) (out : List β) (b' : σ × List ι) : Prop :=
  workAll work b.1 (b.2 ++ new) = (out ++ (workAll work b'.1 b'.2).1, (workAll work b'.1 b'.2).2)

namespace Does

variable {work} {b b' b'' : σ × List ι} {new new' : List ι} {out out' : List β}

theorem refl (work : σ → ι → List β × σ) (b : σ × List ι) : Does work b [] [] b := by
  unfold Does
  rw [List.append_nil]
  rfl

theorem trans (h : Does work b new out b') (h' : Does work b' new' out' b'') :
    Does work b (new ++ new') (out ++ out') b'' := by
  unfold Does at h h' ⊢
  rw [workAll_append, Prod.mk.injEq] at h'
  rw [← List.append_assoc, workAll_append, h, List.append_assoc, List.append_assoc, h'.1, h'.2]

theorem add (work : σ → ι → List β × σ) (c : σ) (js new : List ι) : Does work (c, js) new [] (c, js ++ new) := rfl

theorem first (work : σ → ι → List β × σ) (c : σ) (j : ι) (js : List ι) :
    Does work (c, j :: js) [] (work c j).1 ((work c j).2, js) := by
  unfold Does
  rw [List.append_nil]
  rfl

theorem whole {c c' : σ} (h : Does work (c, []) new out (c', [])) : workAll work c new = (out, c') := by
  unfold Does at h
  rw [List.nil_append] at h
  rw [h, workAll, List.append_nil]

/-- The worker after more jobs is the one that is left, after them. -/
theorem after (h : Does work b new out b') (more : List ι) :
    (workAll work b.1 (b.2 ++ (new ++ more))).2 = (workAll work b'.1 (b'.2 ++ more)).2 := by
  unfold Does at h
  rw [← List.append_assoc, workAll_append, h, workAll_append]

theorem isPrefix {c : σ} (h : Does work (c, []) new out b) : out <+: (workAll work c new).1 := by
  unfold Does at h
  rw [List.nil_append] at h
  rw [h]
  exact List.prefix_append _ _

end Does

end Conc
