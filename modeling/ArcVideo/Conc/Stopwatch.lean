import Mathlib.Algebra.Order.Ring.Int
import Mathlib.Tactic.Common

/-!
# A stopwatch

A stopwatch that is started, paused and resumed at clock readings, and counts the time it runs.

* `Stopwatch.runs`, `elapsed` : it was started and is not paused; the time it has run at a reading;
* `start`, `pause`, `resume` : what they do at a reading. A start does nothing to a stopwatch that was started, nor, but
  for the reading, to one that is paused; a resume starts a paused one;
* `anchor` : the reading at which it would have been started had it never been paused. While it runs the time elapsed
  is counted from there (`elapsed_of_runs`), and it only moves forward (`anchor_read`).
-/

namespace Conc

structure Stopwatch where
  started : Bool
  paused : Bool
  /-- The last reading of the clock. -/
  last : Int
  /-- The time it has run up to the last reading. -/
  total : Int
  /-- The time it had run when it was paused, 0 if it had not been started. -/
  atPause : Int
  deriving DecidableEq

namespace Stopwatch

def reset (now : Int) : Stopwatch := ⟨false, false, now, 0, 0⟩

def runs (w : Stopwatch) : Bool := w.started && !w.paused

def elapsed (w : Stopwatch) (now : Int) : Int := w.total + if w.runs then now - w.last else 0

def read (w : Stopwatch) (now : Int) : Stopwatch := { w with last := now, total := w.elapsed now }

def start (w : Stopwatch) (now : Int) : Stopwatch := { w.read now with started := w.started || !w.paused }

def pause (w : Stopwatch) (now : Int) : Stopwatch :=
  if w.paused then w.read now
  else { w.read now with paused := true, atPause := if w.started then w.elapsed now else 0 }

def resume (w : Stopwatch) (now : Int) : Stopwatch :=
  if w.paused then { w.read now with paused := false, started := true } else w.read now

/-- Where the time elapsed is counted from. -/
def anchor (w : Stopwatch) : Int := w.last - w.total

variable {w : Stopwatch} {now : Int}

@[simp] theorem read_started : (w.read now).started = w.started := rfl

@[simp] theorem read_paused : (w.read now).paused = w.paused := rfl

@[simp] theorem read_last : (w.read now).last = now := rfl

@[simp] theorem read_runs : (w.read now).runs = w.runs := rfl

theorem not_runs_of_paused (h : w.paused = true) : w.runs = false := by
  rw [runs, h, Bool.not_true, Bool.and_false]

theorem not_runs_of_not_started (h : w.started = false) : w.runs = false := by
  rw [runs, h, Bool.false_and]

theorem elapsed_of_runs (h : w.runs = true) (now : Int) : w.elapsed now = now - w.anchor := by
  rw [elapsed, if_pos h, anchor]
  omega

theorem elapsed_of_not_runs (h : w.runs = false) (now : Int) : w.elapsed now = w.total := by
  rw [elapsed, if_neg (Bool.eq_false_iff.mp h), Int.add_zero]

/-- The anchor of a stopwatch that runs stays where it is. -/
theorem anchor_read_of_runs (h : w.runs = true) (now : Int) : (w.read now).anchor = w.anchor := by
  show now - w.elapsed now = w.anchor
  rw [elapsed_of_runs h]
  omega

theorem anchor_read (h : w.last ≤ now) : w.anchor ≤ (w.read now).anchor := by
  cases hw : w.runs with
  | true => exact (anchor_read_of_runs hw now).ge
  | false =>
      show w.last - w.total ≤ now - w.elapsed now
      rw [elapsed_of_not_runs hw]
      omega

/-- A stopwatch that does not run has not run any longer. -/
theorem total_read (h : w.runs = false) (now : Int) : (w.read now).total = w.total := elapsed_of_not_runs h now

end Stopwatch

end Conc
