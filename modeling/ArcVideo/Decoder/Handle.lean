import ArcVideo.Conc.System

/-!
# The handle of a thread

The class `Thread`: a parent thread that calls `start`, any of `isRunning`, `getId`, `join` and `detach` any number of
times, and at last `~VideoDecoder`, which calls `join` and ends in `~Thread`; and its child, which runs `internalRun`.

* `ThreadObject` : the members, the places of the two threads' code (`ParentPc`, `ChildPc`), and the pthread functions
  called on the handle; every access to a member that both threads use is a step of its own;
* `HandleSafe` : the handle is joined or detached exactly once, nothing is called on it after that, and `~Thread` does
  not begin while `run()` executes;
* `keepsHandle` : the condition on a step; `handle_safe` : it is the exact one;
* `handle_leaked` : three runs that break it.
-/

namespace ArcVideo
open Conc

/-! ## The class -/

inductive PthreadCall
  | join | detach | cancel
  deriving DecidableEq

def PthreadCall.releases : PthreadCall → Bool
  | .join | .detach => true
  | .cancel => false

/-- The places of the parent; `last` is whether `join` is called by `~VideoDecoder`. -/
inductive ParentPc
  /-- `start`: `pthread_create` -/
  | create
  /-- `start`: `running = true` -/
  | setRunning
  | idle
  /-- `join`: `running && !detached` -/
  | joinTest (last : Bool)
  /-- `join`: `pthread_join` -/
  | joinWait (last : Bool)
  /-- `join`: `detached = true` -/
  | joinSet (last : Bool)
  | detachTest | detachCall | detachSet
  /-- `~Thread`: `running && !detached` -/
  | delTest
  /-- `~Thread`: `pthread_detach` -/
  | delDetach
  /-- `~Thread`: `running` -/
  | delTestAgain
  /-- `~Thread`: `pthread_cancel` -/
  | delCancel
  | gone
  deriving DecidableEq

inductive ChildPc
  /-- There is no thread. -/
  | unborn
  /-- In `run()`. -/
  | executing
  /-- Before `running = false`. -/
  | returned
  /-- After it. -/
  | stored
  | terminated
  deriving DecidableEq

def ChildPc.hasStored : ChildPc → Bool
  | .stored | .terminated => true
  | .unborn | .executing | .returned => false

structure ThreadObject where
  running : Bool
  detached : Bool
  parent : ParentPc
  child : ChildPc
  /-- The functions called on the handle, in order. -/
  calls : List PthreadCall
  deriving DecidableEq

inductive ThreadAct
  /-- `pthread_create` answers. -/
  | create (created : Bool)
  | isRunning | getId | join | detach
  /-- `~VideoDecoder` -/
  | delete
  /-- The next step of the parent in a call. -/
  | parent
  | child
  deriving DecidableEq

namespace ThreadObject

/-- `Thread::Thread()`, with the parent about to call `start`. -/
def init : ThreadObject := ⟨false, false, .create, .unborn, []⟩

def create (t : ThreadObject) (created : Bool) : ThreadObject :=
  if created then { t with parent := .setRunning, child := .executing } else { t with parent := .idle }

/-- A call of the parent, which does nothing else at present. -/
def call (t : ThreadObject) (l : ParentPc) : Option ThreadObject :=
  if t.parent = .idle then some { t with parent := l } else none

def afterJoin (last : Bool) : ParentPc := if last then .delTest else .idle

/-- One step of the parent in a call. `pthread_join` waits for the end of the child. -/
def parentStep (t : ThreadObject) : Option ThreadObject :=
  match t.parent with
  | .setRunning => some { t with running := true, parent := .idle }
  | .joinTest last => some { t with parent := if t.running && !t.detached then .joinWait last else afterJoin last }
  | .joinWait last =>
    if t.child = .terminated then some { t with calls := t.calls ++ [.join], parent := .joinSet last } else none
  | .joinSet last => some { t with detached := true, parent := afterJoin last }
  | .detachTest => some { t with parent := if t.running && !t.detached then .detachCall else .idle }
  | .detachCall => some { t with calls := t.calls ++ [.detach], parent := .detachSet }
  | .detachSet => some { t with detached := true, parent := .idle }
  | .delTest => some { t with parent := if t.running && !t.detached then .delDetach else .delTestAgain }
  | .delDetach => some { t with calls := t.calls ++ [.detach], parent := .delTestAgain }
  | .delTestAgain => some { t with parent := if t.running then .delCancel else .gone }
  | .delCancel => some { t with calls := t.calls ++ [.cancel], parent := .gone }
  | .create | .idle | .gone => none

/-- One step of the child: `run()` returns, `running = false`, the thread ends. -/
def childStep (t : ThreadObject) : Option ThreadObject :=
  match t.child with
  | .executing => some { t with child := .returned }
  | .returned => some { t with child := .stored, running := false }
  | .stored => some { t with child := .terminated }
  | .unborn | .terminated => none

def step (t : ThreadObject) : ThreadAct → Option ThreadObject
  | .create created => if t.parent = .create then some (t.create created) else none
  | .isRunning | .getId => t.call .idle
  | .join => t.call (.joinTest false)
  | .detach => t.call .detachTest
  | .delete => t.call (.joinTest true)
  | .parent => t.parentStep
  | .child => t.childStep

end ThreadObject

/-- **A thread object, from its construction to its end.** -/
def threadObject : System ThreadObject ThreadAct := ⟨(· = .init), ThreadObject.step⟩

/-! ## The condition -/

def ParentPc.deletes : ParentPc → Bool
  | .delTest | .delDetach | .delTestAgain | .delCancel | .gone => true
  | _ => false

/-- The handle is joined or detached exactly once before the object is gone, nothing is called on it after that, and
`run()` does not execute from the beginning of `~Thread` on. -/
structure HandleSafe (t : ThreadObject) : Prop where
  released : t.parent = .gone → t.child ≠ .unborn → t.calls.countP PthreadCall.releases = 1
  nothing_after : ∀ before c after, t.calls = before ++ c :: after → c.releases = true → after = []
  not_executing : t.parent.deletes = true → t.child ≠ .executing

/-- In a call of `join` or `detach` that has found `running` true. -/
def ParentPc.claims : ParentPc → Bool
  | .joinWait _ | .joinSet _ | .detachCall | .detachSet => true
  | _ => false

def ThreadObject.claimed (t : ThreadObject) : Bool := t.detached || t.parent.claims

/-- `~VideoDecoder` does not leave a detached thread in `run()` behind, and `~Thread` tests `running` the second time
only when there is no thread or the child has set it. -/
def ThreadObject.waits (t : ThreadObject) : Prop :=
  (t.parent = .joinTest true → t.detached = true → t.child ≠ .executing) ∧
    (t.parent = .delTestAgain → t.child = .unborn ∨ t.child.hasStored = true)

/-- The child sets `running` to false only when a call of `join` or `detach` has found it true, and the parent waits for
it. -/
def keepsHandle (t : ThreadObject) : ThreadAct → Prop
  | .child => t.child = .returned → t.claimed = true
  | .parent => t.waits
  | _ => True

instance (t : ThreadObject) : (a : ThreadAct) → Decidable (keepsHandle t a)
  | .child => inferInstanceAs (Decidable (_ → _))
  | .parent => inferInstanceAs (Decidable ((_ → _ → _) ∧ (_ → _)))
  | .create _ | .isRunning | .getId | .join | .detach | .delete => inferInstanceAs (Decidable True)

/-! ## The invariant -/

namespace ThreadObject

/-- `pthread_create` has not been called, or has failed. -/
def Fresh (t : ThreadObject) : Prop := t.child = .unborn ∧ t.running = false ∧ t.detached = false ∧ t.calls = []

/-- The thread is there, and `start` has set `running` before or after the child has set it back. -/
def Born (t : ThreadObject) : Prop := t.child ≠ .unborn ∧ (t.running = true ∨ t.child.hasStored = true)

def Started (t : ThreadObject) : Prop := t.Born ∧ t.detached = false ∧ t.calls = []

/-- The handle has been given back. -/
def Released (t : ThreadObject) : Prop :=
  t.Born ∧ t.detached = true ∧ (t.calls = [.join] ∧ t.child = .terminated ∨ t.calls = [.detach])

/-- What holds at each place of the parent. -/
def Knows (t : ThreadObject) : ParentPc → Prop
  | .create => t.Fresh
  | .setRunning => t.child ≠ .unborn ∧ t.running = false ∧ t.detached = false ∧ t.calls = []
  | .idle | .joinTest _ | .detachTest => t.Fresh ∨ t.Started ∨ t.Released
  | .joinWait _ | .detachCall => t.Started
  | .joinSet _ => t.Born ∧ t.detached = false ∧ t.calls = [.join] ∧ t.child = .terminated
  | .detachSet => t.Born ∧ t.detached = false ∧ t.calls = [.detach]
  | .delTest | .delTestAgain => t.Fresh ∨ (t.Started ∧ t.running = false) ∨ t.Released
  | .delDetach => False
  | .delCancel => t.Released
  | .gone => t.Fresh ∨ ((t.Started ∨ t.Released) ∧ t.running = false) ∨
      (t.child ≠ .unborn ∧ ∃ c : PthreadCall, c.releases = true ∧ t.calls = [c, .cancel])

/-- No step has broken the condition. -/
def Good (t : ThreadObject) : Prop :=
  (t.child.hasStored = true → t.running = false ∧ t.claimed = true) ∧ t.parent ≠ .delCancel ∧
    PthreadCall.cancel ∉ t.calls

def Quiet (t : ThreadObject) : Prop := t.parent.deletes = true → t.child ≠ .executing

theorem init_knows : init.Knows init.parent := ⟨rfl, rfl, rfl, rfl⟩

inductive ParentMove (t : ThreadObject) : ThreadObject → Prop
  | setRunning : t.parent = .setRunning → ParentMove t { t with running := true, parent := .idle }
  | joinFound (last : Bool) : t.parent = .joinTest last → (t.running && !t.detached) = true →
      ParentMove t { t with parent := .joinWait last }
  | joinPassed (last : Bool) : t.parent = .joinTest last → (t.running && !t.detached) = false →
      ParentMove t { t with parent := afterJoin last }
  | joinWait (last : Bool) : t.parent = .joinWait last → t.child = .terminated →
      ParentMove t { t with calls := t.calls ++ [.join], parent := .joinSet last }
  | joinSet (last : Bool) : t.parent = .joinSet last →
      ParentMove t { t with detached := true, parent := afterJoin last }
  | detachFound : t.parent = .detachTest → (t.running && !t.detached) = true →
      ParentMove t { t with parent := .detachCall }
  | detachPassed : t.parent = .detachTest → (t.running && !t.detached) = false → ParentMove t { t with parent := .idle }
  | detachCall : t.parent = .detachCall → ParentMove t { t with calls := t.calls ++ [.detach], parent := .detachSet }
  | detachSet : t.parent = .detachSet → ParentMove t { t with detached := true, parent := .idle }
  | delFound : t.parent = .delTest → (t.running && !t.detached) = true → ParentMove t { t with parent := .delDetach }
  | delPassed : t.parent = .delTest → (t.running && !t.detached) = false →
      ParentMove t { t with parent := .delTestAgain }
  | delDetach : t.parent = .delDetach → ParentMove t { t with calls := t.calls ++ [.detach], parent := .delTestAgain }
  | delAgainFound : t.parent = .delTestAgain → t.running = true → ParentMove t { t with parent := .delCancel }
  | delAgainPassed : t.parent = .delTestAgain → t.running = false → ParentMove t { t with parent := .gone }
  | delCancel : t.parent = .delCancel → ParentMove t { t with calls := t.calls ++ [.cancel], parent := .gone }

theorem parentStep_move {t t' : ThreadObject} (h : t.parentStep = some t') : ParentMove t t' := by
  unfold parentStep at h
  split at h
  next hp =>
    cases h
    exact .setRunning hp
  next last hp =>
    cases h
    cases ht : t.running && !t.detached with
    | true => exact .joinFound last hp ht
    | false => exact .joinPassed last hp ht
  next last hp =>
    obtain ⟨hterm, h⟩ := Option.ite_none_right_eq_some.mp h
    cases h
    exact .joinWait last hp hterm
  next last hp =>
    cases h
    exact .joinSet last hp
  next hp =>
    cases h
    cases ht : t.running && !t.detached with
    | true => exact .detachFound hp ht
    | false => exact .detachPassed hp ht
  next hp =>
    cases h
    exact .detachCall hp
  next hp =>
    cases h
    exact .detachSet hp
  next hp =>
    cases h
    cases ht : t.running && !t.detached with
    | true => exact .delFound hp ht
    | false => exact .delPassed hp ht
  next hp =>
    cases h
    exact .delDetach hp
  next hp =>
    cases h
    split
    next ht => exact .delAgainFound hp ht
    next ht => exact .delAgainPassed hp (by simpa using ht)
  next hp =>
    cases h
    exact .delCancel hp
  all_goals cases h

theorem childStep_eq {t t' : ThreadObject} (h : t.childStep = some t') :
    t'.parent = t.parent ∧ t'.detached = t.detached ∧ t'.calls = t.calls ∧
      (t.child = .executing ∧ t'.child = .returned ∧ t'.running = t.running ∨
        t.child = .returned ∧ t'.child = .stored ∧ t'.running = false ∨
        t.child = .stored ∧ t'.child = .terminated ∧ t'.running = t.running) := by
  unfold childStep at h
  split at h <;> cases h <;> simp_all

theorem childStep_knows {t t' : ThreadObject} (h : t.childStep = some t') (hk : t.Knows t.parent) :
    t'.Knows t'.parent := by
  obtain ⟨hp, hd, hc, hchild⟩ := childStep_eq h
  rw [hp]
  have hborn : t.Born → t'.Born := by
    unfold Born
    rcases hchild with ⟨h1, h2, h3⟩ | ⟨h1, h2, h3⟩ | ⟨h1, h2, h3⟩ <;> simp [h1, h2, h3, ChildPc.hasStored]
  have hfresh : ¬ t.Fresh := by
    unfold Fresh
    rcases hchild with ⟨h1, -⟩ | ⟨h1, -⟩ | ⟨h1, -⟩ <;> simp [h1]
  have hterm : t.child ≠ .terminated := by
    rcases hchild with ⟨h1, -⟩ | ⟨h1, -⟩ | ⟨h1, -⟩ <;> simp [h1]
  have hun : t'.child ≠ .unborn := by
    rcases hchild with ⟨-, h1, -⟩ | ⟨-, h1, -⟩ | ⟨-, h1, -⟩ <;> simp [h1]
  have hstill : t.running = false → t'.running = false := by
    rcases hchild with ⟨-, -, h1⟩ | ⟨-, -, h1⟩ | ⟨-, -, h1⟩ <;> simp [h1]
  have hstarted : t.Started → t'.Started := fun ⟨h1, h2, h3⟩ => ⟨hborn h1, hd.trans h2, hc.trans h3⟩
  have hreleased : t.Released → t'.Released := by
    rintro ⟨h1, h2, ⟨-, h3⟩ | h3⟩
    · exact absurd h3 hterm
    · exact ⟨hborn h1, hd.trans h2, Or.inr (hc.trans h3)⟩
  generalize t.parent = l at hk ⊢
  cases l <;> simp only [Knows] at hk ⊢ <;> grind

theorem childStep_quiet {t t' : ThreadObject} (h : t.childStep = some t') : t'.Quiet := by
  obtain ⟨-, -, -, hchild⟩ := childStep_eq h
  intro _
  rcases hchild with ⟨-, h2, -⟩ | ⟨-, h2, -⟩ | ⟨-, h2, -⟩ <;> simp [h2]

theorem childStep_good {t t' : ThreadObject} (h : t.childStep = some t') :
    t'.Good ↔ t.Good ∧ keepsHandle t .child := by
  obtain ⟨hp, hd, hc, hchild⟩ := childStep_eq h
  have hclaimed : t'.claimed = t.claimed := by
    unfold claimed
    rw [hp, hd]
  unfold Good keepsHandle
  rw [hclaimed, hp, hc]
  rcases hchild with ⟨h1, h2, h3⟩ | ⟨h1, h2, h3⟩ | ⟨h1, h2, h3⟩ <;> simp [h1, h2, h3, ChildPc.hasStored]
  tauto

/-! ## A step of the parent -/

theorem test_true {t : ThreadObject} (hk : t.Fresh ∨ t.Started ∨ t.Released)
    (h : (t.running && !t.detached) = true) : t.Started := by
  rw [Bool.and_eq_true, Bool.not_eq_true'] at h
  rcases hk with hk | hk | hk
  · exact absurd (h.1.symm.trans hk.2.1) (by decide)
  · exact hk
  · exact absurd (h.2.symm.trans hk.2.1) (by decide)

theorem test_false {t : ThreadObject} (hk : t.Fresh ∨ t.Started ∨ t.Released)
    (h : (t.running && !t.detached) = false) : t.Fresh ∨ (t.Started ∧ t.running = false) ∨ t.Released := by
  rcases hk with hk | hk | hk
  · exact Or.inl hk
  · rw [hk.2.1, Bool.not_false, Bool.and_true] at h
    exact Or.inr (Or.inl ⟨hk, h⟩)
  · exact Or.inr (Or.inr hk)

theorem knows_afterJoin {t : ThreadObject} {last : Bool}
    (h : t.Fresh ∨ (t.Started ∧ t.running = false) ∨ t.Released) : t.Knows (afterJoin last) := by
  cases last with
  | true => exact h
  | false =>
      show t.Fresh ∨ t.Started ∨ t.Released
      tauto

theorem knows_move {t : ThreadObject} {l m : ParentPc} (h : t.Knows l) :
    ({ t with parent := m } : ThreadObject).Knows l := by
  cases l <;> exact h

/-- At the first test of `~Thread` there is nothing left to detach. -/
theorem delTest_false {t : ThreadObject} (hk : t.Knows .delTest) : (t.running && !t.detached) = false := by
  rcases hk with hk | ⟨-, hk⟩ | hk
  · rw [hk.2.1, Bool.false_and]
  · rw [hk, Bool.false_and]
  · rw [hk.2.1, Bool.not_true, Bool.and_false]

theorem parentStep_knows {t t' : ThreadObject} (h : t.parentStep = some t') (hk : t.Knows t.parent) :
    t'.Knows t'.parent := by
  cases parentStep_move h with
  | setRunning hp =>
      rw [hp] at hk
      obtain ⟨h1, -, h3, h4⟩ := hk
      exact Or.inr (Or.inl ⟨⟨h1, Or.inl rfl⟩, h3, h4⟩)
  | joinFound last hp ht =>
      rw [hp] at hk
      exact test_true hk ht
  | joinPassed last hp ht =>
      rw [hp] at hk
      exact knows_move (knows_afterJoin (test_false hk ht))
  | joinWait last hp hterm =>
      rw [hp] at hk
      obtain ⟨h1, h2, h3⟩ := hk
      exact ⟨h1, h2, by simp [h3], hterm⟩
  | joinSet last hp =>
      rw [hp] at hk
      obtain ⟨h1, -, h3, h4⟩ := hk
      exact knows_afterJoin (Or.inr (Or.inr ⟨h1, rfl, Or.inl ⟨h3, h4⟩⟩))
  | detachFound hp ht =>
      rw [hp] at hk
      exact test_true hk ht
  | detachPassed hp =>
      rw [hp] at hk
      exact hk
  | detachCall hp =>
      rw [hp] at hk
      obtain ⟨h1, h2, h3⟩ := hk
      exact ⟨h1, h2, by simp [h3]⟩
  | detachSet hp =>
      rw [hp] at hk
      obtain ⟨h1, -, h3⟩ := hk
      exact Or.inr (Or.inr ⟨h1, rfl, Or.inr h3⟩)
  | delFound hp ht =>
      rw [hp] at hk
      exact absurd (ht.symm.trans (delTest_false hk)) (by decide)
  | delPassed hp =>
      rw [hp] at hk
      exact hk
  | delDetach hp =>
      rw [hp] at hk
      exact absurd hk id
  | delAgainFound hp ht =>
      rw [hp] at hk
      rcases hk with hk | ⟨-, hk⟩ | hk
      · exact absurd (ht.symm.trans hk.2.1) (by decide)
      · exact absurd (ht.symm.trans hk) (by decide)
      · exact hk
  | delAgainPassed hp ht =>
      rw [hp] at hk
      rcases hk with hk | hk | hk
      · exact Or.inl hk
      · exact Or.inr (Or.inl ⟨Or.inl hk.1, ht⟩)
      · exact Or.inr (Or.inl ⟨Or.inr hk, ht⟩)
  | delCancel hp =>
      rw [hp] at hk
      obtain ⟨⟨h1, -⟩, -, ⟨h3, -⟩ | h3⟩ := hk
      · exact Or.inr (Or.inr ⟨h1, .join, rfl, by simp [h3]⟩)
      · exact Or.inr (Or.inr ⟨h1, .detach, rfl, by simp [h3]⟩)

theorem good_iff (t : ThreadObject) : t.Good ↔
    (t.child.hasStored = true → t.running = false ∧ (t.detached || t.parent.claims) = true) ∧
      t.parent ≠ .delCancel ∧ PthreadCall.cancel ∉ t.calls := Iff.rfl

theorem good_move {t : ThreadObject} {l m : ParentPc} (hp : t.parent = l) (hc : m.claims = l.claims)
    (hm : m ≠ .delCancel) (hl : l ≠ .delCancel) : ({ t with parent := m } : ThreadObject).Good ↔ t.Good := by
  rw [good_iff, good_iff]
  dsimp only
  simp [hc, hm, hp, hl]

theorem good_claim {t : ThreadObject} {l m : ParentPc} (hp : t.parent = l) (hl : l ≠ .delCancel) (hm : m ≠ .delCancel)
    (hc : m.claims = true) (hd : t.detached = false) (hr : t.running = true) (hlc : l.claims = false) :
    ({ t with parent := m } : ThreadObject).Good ↔ t.Good := by
  rw [good_iff, good_iff]
  dsimp only
  simp [hc, hm, hp, hl, hd, hr, hlc]

theorem good_call {t : ThreadObject} {l m : ParentPc} {c : PthreadCall} (hp : t.parent = l) (hl : l.claims = true)
    (hm : m.claims = true) (hd : t.detached = false) (hcalls : t.calls = []) (hc : c.releases = true) :
    ({ t with calls := t.calls ++ [c], parent := m } : ThreadObject).Good ↔ t.Good := by
  have hlne : l ≠ .delCancel := by rintro rfl; cases hl
  have hmne : m ≠ .delCancel := by rintro rfl; cases hm
  have hcne : PthreadCall.cancel ≠ c := by rintro rfl; cases hc
  rw [good_iff, good_iff]
  dsimp only
  simp [hp, hl, hm, hlne, hmne, hd, hcalls, hcne]

theorem good_detached {t : ThreadObject} {l m : ParentPc} (hp : t.parent = l) (hl : l.claims = true)
    (hm : m ≠ .delCancel) : ({ t with detached := true, parent := m } : ThreadObject).Good ↔ t.Good := by
  have hlne : l ≠ .delCancel := by rintro rfl; cases hl
  rw [good_iff, good_iff]
  dsimp only
  simp [hp, hl, hm, hlne]

theorem again_found {t : ThreadObject} (hk : t.Knows .delTestAgain) (ht : t.running = true) (hg : t.Good) :
    t.child ≠ .unborn ∧ t.child.hasStored = false := by
  refine ⟨?_, ?_⟩
  · rcases hk with hk | ⟨hk, -⟩ | hk
    · exact absurd (ht.symm.trans hk.2.1) (by decide)
    · exact hk.1.1
    · exact hk.1.1
  · refine Bool.eq_false_iff.mpr fun hst => ?_
    exact absurd (ht.symm.trans (hg.1 hst).1) (by decide)

theorem again_passed {t : ThreadObject} (hk : t.Knows .delTestAgain) (ht : t.running = false) :
    t.child = .unborn ∨ t.child.hasStored = true := by
  have hborn : t.Born → t.child = .unborn ∨ t.child.hasStored = true := fun hb =>
    Or.inr (hb.2.resolve_left (by simp [ht]))
  rcases hk with hk | ⟨hk, -⟩ | hk
  · exact Or.inl hk.1
  · exact hborn hk.1
  · exact hborn hk.1

/-- The second test of `~Thread` is where a step of the parent may go wrong. -/
theorem parentStep_good {t t' : ThreadObject} (h : t.parentStep = some t') (hk : t.Knows t.parent) :
    t'.Good ↔ t.Good ∧ (t.parent = .delTestAgain → t.child = .unborn ∨ t.child.hasStored = true) := by
  have helse : t.parent ≠ .delTestAgain → (t'.Good ↔ t.Good) →
      (t'.Good ↔ t.Good ∧ (t.parent = .delTestAgain → t.child = .unborn ∨ t.child.hasStored = true)) :=
    fun hne hg => hg.trans (and_iff_left fun he => absurd he hne).symm
  cases parentStep_move h with
  | setRunning hp =>
      -- good if the child has not set it back
      rw [hp] at hk
      obtain ⟨-, -, h3, h4⟩ := hk
      exact helse (by rw [hp]; nofun) (by simp [good_iff, hp, h3, h4, ParentPc.claims])
  | joinFound last hp ht =>
      rw [hp] at hk
      obtain ⟨hrun, -⟩ := Bool.and_eq_true_iff.mp ht
      exact helse (by rw [hp]; nofun) (good_claim hp nofun nofun rfl (test_true hk ht).2.1 hrun rfl)
  | joinPassed last hp =>
      have hc : (afterJoin last).claims = (ParentPc.joinTest last).claims := by cases last <;> rfl
      have hm : afterJoin last ≠ .delCancel := by cases last <;> nofun
      exact helse (by rw [hp]; nofun) (good_move hp hc hm nofun)
  | joinWait last hp =>
      rw [hp] at hk
      exact helse (by rw [hp]; nofun) (good_call hp rfl rfl hk.2.1 hk.2.2 rfl)
  | joinSet last hp =>
      exact helse (by rw [hp]; nofun) (good_detached hp rfl (by cases last <;> nofun))
  | detachFound hp ht =>
      rw [hp] at hk
      obtain ⟨hrun, -⟩ := Bool.and_eq_true_iff.mp ht
      exact helse (by rw [hp]; nofun) (good_claim hp nofun nofun rfl (test_true hk ht).2.1 hrun rfl)
  | detachPassed hp => exact helse (by rw [hp]; nofun) (good_move hp rfl nofun nofun)
  | detachCall hp =>
      rw [hp] at hk
      exact helse (by rw [hp]; nofun) (good_call hp rfl rfl hk.2.1 hk.2.2 rfl)
  | detachSet hp => exact helse (by rw [hp]; nofun) (good_detached hp rfl nofun)
  | delFound hp ht =>
      rw [hp] at hk
      exact absurd (ht.symm.trans (delTest_false hk)) (by decide)
  | delPassed hp => exact helse (by rw [hp]; nofun) (good_move hp rfl nofun nofun)
  | delDetach hp =>
      rw [hp] at hk
      exact absurd hk id
  | delAgainFound hp ht =>
      rw [hp] at hk
      refine iff_of_false (fun hg => hg.2.1 rfl) ?_
      rintro ⟨hg, hset⟩
      obtain ⟨hborn, hnot⟩ := again_found hk ht hg
      exact (hset hp).elim hborn fun hst => absurd (hnot.symm.trans hst) (by decide)
  | delAgainPassed hp ht =>
      rw [hp] at hk
      rw [good_move (m := .gone) hp rfl nofun nofun, iff_self_and]
      exact fun _ _ => again_passed hk ht
  | delCancel hp =>
      refine iff_of_false (fun hg => hg.2.2 ?_) (fun hg => hg.1.2.1 hp)
      simp

/-- `join` in `~VideoDecoder` finds nothing to join: the child executes `run()` only when it is detached. -/
theorem joinPassed_quiet {t : ThreadObject} (hk : t.Knows (.joinTest true)) (h : (t.running && !t.detached) = false) :
    ({ t with parent := .delTest } : ThreadObject).Quiet ↔ (t.detached = true → t.child ≠ .executing) := by
  refine ⟨fun hq _ => hq rfl, fun hw _ he => ?_⟩
  change t.child = .executing at he
  rcases test_false hk h with hk | ⟨hk, hrun⟩ | hk
  · exact absurd (he.symm.trans hk.1) (by decide)
  · have hset := hk.1.2.resolve_left (by rw [hrun]; decide)
    rw [he] at hset
    cases hset
  · exact hw hk.2.1 he

/-- The end of `join` in `~VideoDecoder` is where a step of the parent may leave `run()` executing. -/
theorem parentStep_quiet {t t' : ThreadObject} (h : t.parentStep = some t') (hk : t.Knows t.parent) (hq : t.Quiet) :
    t'.Quiet ↔ (t.parent = .joinTest true → t.detached = true → t.child ≠ .executing) := by
  have helse : t.parent ≠ .joinTest true → t'.Quiet →
      (t'.Quiet ↔ (t.parent = .joinTest true → t.detached = true → t.child ≠ .executing)) :=
    fun hne hq' => iff_of_true hq' fun he => absurd he hne
  cases parentStep_move h with
  | setRunning hp | detachFound hp | detachPassed hp | detachCall hp | detachSet hp =>
      exact helse (by rw [hp]; nofun) nofun
  | joinFound last hp ht =>
      rw [hp] at hk
      refine iff_of_true nofun fun _ hd => ?_
      exact absurd (hd.symm.trans (test_true hk ht).2.1) (by decide)
  | joinPassed last hp ht =>
      cases last with
      | false => exact helse (by rw [hp]; nofun) nofun
      | true =>
          rw [hp] at hk
          exact (joinPassed_quiet hk ht).trans ⟨fun hw _ => hw, fun hw => hw hp⟩
  | joinWait last hp => exact helse (by rw [hp]; nofun) nofun
  | joinSet last hp =>
      rw [hp] at hk
      obtain ⟨-, -, -, hterm⟩ := hk
      exact helse (by rw [hp]; nofun) fun _ he => absurd (he.symm.trans hterm) (by decide)
  | delFound hp | delPassed hp | delDetach hp | delAgainFound hp | delAgainPassed hp | delCancel hp =>
      exact helse (by rw [hp]; nofun) fun _ => hq (by rw [hp]; rfl)

/-! ## Every run -/

theorem call_eq {t t' : ThreadObject} {l : ParentPc} (h : t.call l = some t') :
    t.parent = .idle ∧ t' = { t with parent := l } := by
  obtain ⟨hp, h⟩ := Option.ite_none_right_eq_some.mp h
  cases h
  exact ⟨hp, rfl⟩

theorem call_knows {t t' : ThreadObject} {l : ParentPc} (h : t.call l = some t') (hk : t.Knows t.parent)
    (hl : t.Knows .idle → t.Knows l) : t'.Knows t'.parent := by
  obtain ⟨hp, rfl⟩ := call_eq h
  rw [hp] at hk
  exact knows_move (hl hk)

theorem call_good {t t' : ThreadObject} {l : ParentPc} (h : t.call l = some t') (hl : l.claims = false)
    (hd : l.deletes = false) : t'.Good ∧ t'.Quiet ↔ t.Good := by
  obtain ⟨hp, rfl⟩ := call_eq h
  have hc : l ≠ .delCancel := by rintro rfl; cases hd
  refine (and_iff_left fun hdel => ?_).trans (good_move hp hl hc nofun)
  exact absurd (hdel.symm.trans hd) (by decide)

theorem create_knows {t : ThreadObject} {created : Bool} (hp : t.parent = .create) (hk : t.Knows t.parent) :
    (t.create created).Knows (t.create created).parent ∧
      ((t.create created).Good ∧ (t.create created).Quiet ↔ t.Good) := by
  rw [hp] at hk
  obtain ⟨h1, h2, h3, h4⟩ := hk
  unfold create
  cases created with
  | true =>
      refine ⟨⟨nofun, h2, h3, h4⟩, (and_iff_left nofun).trans ?_⟩
      simp [good_iff, hp, h1, h4, ChildPc.hasStored]
  | false =>
      refine ⟨Or.inl ⟨h1, h2, h3, h4⟩, (and_iff_left nofun).trans ?_⟩
      simp [good_iff, hp, h1, h4, ChildPc.hasStored]

/-- **What a step keeps.** -/
theorem step_knows {t t' : ThreadObject} {a : ThreadAct} (h : t.step a = some t') (hk : t.Knows t.parent) :
    t'.Knows t'.parent := by
  cases a with
  | create created =>
      obtain ⟨hp, h⟩ := Option.ite_none_right_eq_some.mp h
      cases h
      exact (create_knows hp hk).1
  | isRunning => exact call_knows h hk id
  | getId => exact call_knows h hk id
  | join => exact call_knows h hk id
  | detach => exact call_knows h hk id
  | delete => exact call_knows h hk id
  | parent => exact parentStep_knows h hk
  | child => exact childStep_knows h hk

/-- **What a step has to meet** for the steps to stay good and quiet. -/
theorem step_good {t t' : ThreadObject} {a : ThreadAct} (h : t.step a = some t') (hk : t.Knows t.parent)
    (hq : t.Quiet) : t'.Good ∧ t'.Quiet ↔ t.Good ∧ keepsHandle t a := by
  cases a with
  | create created =>
      obtain ⟨hp, h⟩ := Option.ite_none_right_eq_some.mp h
      cases h
      exact (create_knows hp hk).2.trans (and_iff_left trivial).symm
  | isRunning => exact (call_good h rfl rfl).trans (and_iff_left trivial).symm
  | getId => exact (call_good h rfl rfl).trans (and_iff_left trivial).symm
  | join => exact (call_good h rfl rfl).trans (and_iff_left trivial).symm
  | detach => exact (call_good h rfl rfl).trans (and_iff_left trivial).symm
  | delete => exact (call_good h rfl rfl).trans (and_iff_left trivial).symm
  | parent =>
      rw [parentStep_good h hk, parentStep_quiet h hk hq, and_assoc, and_comm (a := _ → _)]
      rfl
  | child => exact (and_iff_left (childStep_quiet h)).trans (childStep_good h)

theorem run_knows {h : List (ThreadObject × ThreadAct)} {t : ThreadObject} (hr : threadObject.Run h t) :
    t.Knows t.parent ∧ (t.Good ∧ (∀ u ∈ visited h t, u.Quiet) ↔ ∀ p ∈ h, keepsHandle p.1 p.2) := by
  refine System.RunWhen.induction (P := fun h t => t.Knows t.parent ∧
    (t.Good ∧ (∀ u ∈ visited h t, u.Quiet) ↔ ∀ p ∈ h, keepsHandle p.1 p.2)) ?_ ?_ hr
  · rintro _ rfl
    refine ⟨init_knows, iff_of_true ⟨⟨nofun, nofun, List.not_mem_nil⟩, fun u hu => ?_⟩
      fun p hp => absurd hp List.not_mem_nil⟩
    rw [List.mem_singleton.mp hu]
    nofun
  · rintro h t a t' - ⟨hk, hg⟩ - hs
    refine ⟨step_knows hs hk, ?_⟩
    rw [List.forall_mem_append, List.forall_mem_singleton, ← hg, forall_visited_snoc, and_left_comm, and_right_comm,
      and_comm, and_congr_left_iff]
    intro hq
    exact step_good hs hk (hq t (mem_visited_last h t))

theorem Good.handleSafe {t : ThreadObject} (hk : t.Knows t.parent) (hg : t.Good) (hq : t.Quiet) : HandleSafe t := by
  have hone : t.calls = [] ∨ ∃ c, t.calls = [c] := by
    have hc := hg.2.2
    generalize t.parent = l at hk
    cases l <;> simp only [Knows, Fresh, Started, Released] at hk <;> grind
  refine ⟨fun hp hun => ?_, fun before c after he _ => ?_, hq⟩
  · rw [hp] at hk
    rcases hk with hk | ⟨hk | hk, hrun⟩ | ⟨-, c, -, hk⟩
    · exact absurd hk.1 hun
    · have hset := hk.1.2.resolve_left (by rw [hrun]; decide)
      have hclaimed := (hg.1 hset).2
      rw [claimed, hk.2.1, hp] at hclaimed
      exact absurd hclaimed (by decide)
    · rcases hk.2.2 with ⟨hk, -⟩ | hk <;> rw [hk] <;> rfl
    · exact absurd (by rw [hk]; simp) hg.2.2
  · rcases hone with hn | ⟨c', hn⟩
    · simp [hn] at he
    · rw [hn] at he
      cases before with
      | nil =>
          rw [List.nil_append, List.cons.injEq] at he
          exact he.2.symm
      | cons b before => simp at he

theorem good_of_safe {t : ThreadObject} (hk : t.Knows t.parent) (hp : t.parent = .gone) (hs : HandleSafe t) :
    t.Good := by
  have hreleased := hs.released hp
  rw [hp] at hk
  rcases hk with hk | ⟨hk | hk, hrun⟩ | ⟨-, c, hc, hk⟩
  · refine ⟨fun hset => ?_, by rw [hp]; nofun, by rw [hk.2.2.2]; exact List.not_mem_nil⟩
    rw [hk.1] at hset
    cases hset
  · have hcount := hreleased hk.1.1
    rw [hk.2.2] at hcount
    cases hcount
  · refine ⟨fun _ => ⟨hrun, by rw [claimed, hk.2.1, Bool.true_or]⟩, by rw [hp]; nofun, ?_⟩
    rcases hk.2.2 with ⟨hk, -⟩ | hk <;> rw [hk] <;> simp
  · exact absurd (hs.nothing_after [] c [.cancel] hk hc) (by simp)

theorem safe_of_keeps {h : List (ThreadObject × ThreadAct)} {t : ThreadObject}
    (hr : threadObject.RunWhen keepsHandle h t) : HandleSafe t := by
  obtain ⟨hk, hg⟩ := run_knows hr.run
  obtain ⟨hg, hq⟩ := hg.mpr hr.ok_of_mem
  exact hg.handleSafe hk (hq t (mem_visited_last h t))

end ThreadObject

/-- **The handle is safe** in every run whose steps meet `keepsHandle`; and it is in every state up to the end of the
object only in these. -/
theorem handle_safe {h : List (ThreadObject × ThreadAct)} {t : ThreadObject} (hr : threadObject.Run h t) :
    ((∀ p ∈ h, keepsHandle p.1 p.2) → ∀ u ∈ visited h t, HandleSafe u) ∧
      (t.parent = .gone → ((∀ u ∈ visited h t, HandleSafe u) ↔ ∀ p ∈ h, keepsHandle p.1 p.2)) := by
  obtain ⟨hk, hg⟩ := ThreadObject.run_knows hr
  have hsafe : (∀ p ∈ h, keepsHandle p.1 p.2) → ∀ u ∈ visited h t, HandleSafe u :=
    fun hok => (hr.when hok).forall_visited fun _ _ => ThreadObject.safe_of_keeps
  refine ⟨hsafe, fun hp => ⟨fun hs => hg.mp ⟨?_, fun u hu => (hs u hu).not_executing⟩, hsafe⟩⟩
  exact ThreadObject.good_of_safe hk hp (hs t (mem_visited_last h t))

/-- `run()` returns while the destructor waits for it. -/
theorem handle_safe_joined : ∃ h t, threadObject.Run h t ∧ t.parent = .gone ∧ t.calls = [.join] ∧
    ∀ u ∈ visited h t, HandleSafe u := by
  obtain ⟨h, t, hr, hok, hp, hc⟩ := threadObject.exists_run rfl [.create true, .parent, .isRunning, .delete, .parent,
    .child, .child, .child, .parent, .parent, .parent, .parent]
    (fun h t => (∀ p ∈ h, keepsHandle p.1 p.2) ∧ t.parent = .gone ∧ t.calls = [.join]) (by decide +kernel)
  exact ⟨h, t, hr, hp, hc, (handle_safe hr).1 hok⟩

/-- Three runs that are not safe. In the first the child sets `running` to false before `join` tests it, and the handle
is neither joined nor detached. In the second it sets it before `start` has set it to true; the handle is joined, and
`~Thread` calls `pthread_cancel` on it. In the third the thread is detached, and `~VideoDecoder` leaves it in `run()`. -/
theorem handle_leaked :
    (∃ h t, threadObject.Run h t ∧ t.parent = .gone ∧ t.child = .terminated ∧ t.calls = [] ∧ ¬ HandleSafe t) ∧
      (∃ h t, threadObject.Run h t ∧ t.parent = .gone ∧ t.child = .terminated ∧ t.calls = [.join, .cancel] ∧
        ¬ HandleSafe t) ∧
      ∃ h t, threadObject.Run h t ∧ t.parent = .delTest ∧ t.child = .executing ∧ t.calls = [.detach] ∧
        ¬ HandleSafe t := by
  obtain ⟨h, t, hr, hp, hchild, hc⟩ := threadObject.exists_run rfl [.create true, .parent, .child, .child, .child,
    .delete, .parent, .parent, .parent]
    (fun _ t => t.parent = .gone ∧ t.child = .terminated ∧ t.calls = []) (by decide +kernel)
  obtain ⟨h', t', hr', hp', hchild', hc'⟩ := threadObject.exists_run rfl [.create true, .child, .child, .child, .parent,
    .delete, .parent, .parent, .parent, .parent, .parent, .parent]
    (fun _ t => t.parent = .gone ∧ t.child = .terminated ∧ t.calls = [.join, .cancel]) (by decide +kernel)
  obtain ⟨h₃, t₃, hr₃, hp₃, hchild₃, hc₃⟩ := threadObject.exists_run rfl [.create true, .parent, .detach, .parent,
    .parent, .parent, .delete, .parent]
    (fun _ t => t.parent = .delTest ∧ t.child = .executing ∧ t.calls = [.detach]) (by decide +kernel)
  refine ⟨⟨h, t, hr, hp, hchild, hc, fun hs => ?_⟩, ⟨h', t', hr', hp', hchild', hc', fun hs => ?_⟩,
    ⟨h₃, t₃, hr₃, hp₃, hchild₃, hc₃, fun hs => ?_⟩⟩
  · have hone := hs.released hp (by rw [hchild]; nofun)
    rw [hc] at hone
    cases hone
  · exact absurd (hs.nothing_after [] .join [.cancel] hc' rfl) (by simp)
  · exact hs.not_executing (by rw [hp₃]; rfl) hchild₃

end ArcVideo
