import Mathlib.Data.List.Basic

/-!
# A default mutex with one condition variable

The pthread operations on a mutex of the default type and on a condition variable used with it:

* `lock` waits until the mutex is free; `unlock` frees it whoever calls it;
* `wait` frees the mutex and goes to sleep in one step; `signal` wakes the thread that has slept longest and is lost
  when nobody sleeps; `spurious` is a wake-up without a signal.

A woken thread takes the mutex again with `lock`.
-/

namespace Conc

/-- Who holds the mutex, and who sleeps in `wait` with no wake-up delivered. -/
structure Monitor (θ : Type) where
  holder : Option θ
  asleep : List θ

namespace Monitor

variable {θ : Type}

def free : Monitor θ := ⟨none, []⟩

def lock (m : Monitor θ) (t : θ) : Option (Monitor θ) :=
  match m.holder with
  | none => some { m with holder := some t }
  | some _ => none

def unlock (m : Monitor θ) : Monitor θ := { m with holder := none }

def wait (m : Monitor θ) (t : θ) : Monitor θ := ⟨none, m.asleep ++ [t]⟩

def signal (m : Monitor θ) : Monitor θ := { m with asleep := m.asleep.tail }

def spurious [DecidableEq θ] (m : Monitor θ) (t : θ) : Monitor θ := { m with asleep := m.asleep.erase t }

theorem lock_eq_some {m m' : Monitor θ} {t : θ} (h : m.lock t = some m') :
    m.holder = none ∧ m' = { m with holder := some t } := by
  unfold lock at h
  split at h
  · next hn =>
    cases h
    exact ⟨hn, rfl⟩
  · cases h

theorem lock_free {m : Monitor θ} (h : m.holder = none) (t : θ) : m.lock t = some { m with holder := some t } := by
  rw [lock, h]

@[simp] theorem holder_unlock (m : Monitor θ) : m.unlock.holder = none := rfl
@[simp] theorem asleep_unlock (m : Monitor θ) : m.unlock.asleep = m.asleep := rfl
@[simp] theorem holder_wait (m : Monitor θ) (t : θ) : (m.wait t).holder = none := rfl
@[simp] theorem asleep_wait (m : Monitor θ) (t : θ) : (m.wait t).asleep = m.asleep ++ [t] := rfl
@[simp] theorem holder_signal (m : Monitor θ) : m.signal.holder = m.holder := rfl
@[simp] theorem asleep_signal (m : Monitor θ) : m.signal.asleep = m.asleep.tail := rfl

section
variable [DecidableEq θ]
@[simp] theorem holder_spurious (m : Monitor θ) (t : θ) : (m.spurious t).holder = m.holder := rfl
@[simp] theorem asleep_spurious (m : Monitor θ) (t : θ) : (m.spurious t).asleep = m.asleep.erase t := rfl
end

end Monitor

end Conc
