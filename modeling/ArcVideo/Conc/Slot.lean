import Mathlib.Data.List.Nodup
import Mathlib.Data.List.Perm.Basic
import ArcVideo.Conc.System

/-!
# A variable that holds one resource

A program keeps resources of one kind in a variable: acquiring one overwrites the variable, and only the resource it
holds is ever released.

* `ResourceEvent`, `acquired`, `released`, `unreleased` : the resources are numbered;
* `Slot`, `Slot.automaton` : the resource held and those overwritten while held, as an automaton that reads the events;
* `conservation` : what was acquired is what was released, lost or is held;
* `Managed`, `managed_iff` : when the variable is empty at the end, each resource has been released exactly once and
  there was never more than one, exactly when none was lost.
-/

namespace Conc

inductive ResourceEvent
  | acquire (n : Nat)
  | release (n : Nat)
  deriving DecidableEq

namespace ResourceEvent

def acquired (es : List ResourceEvent) : List Nat := es.filterMap fun | .acquire n => some n | .release _ => none

def released (es : List ResourceEvent) : List Nat := es.filterMap fun | .release n => some n | .acquire _ => none

/-- The resources acquired and not released. -/
def unreleased (es : List ResourceEvent) : List Nat := (acquired es).filter (· ∉ released es)

/-- Each resource is released exactly once, and at no moment is there more than one. -/
structure Managed (es : List ResourceEvent) : Prop where
  released_once : ∀ n ∈ acquired es, (released es).count n = 1
  one_at_a_time : ∀ before, before <+: es → (unreleased before).length ≤ 1

theorem acquired_append (es es' : List ResourceEvent) : acquired (es ++ es') = acquired es ++ acquired es' :=
  List.filterMap_append

theorem released_append (es es' : List ResourceEvent) : released (es ++ es') = released es ++ released es' :=
  List.filterMap_append

end ResourceEvent

/-- The resource in the variable, and those that were overwritten. -/
structure Slot where
  held : Option Nat
  lost : List Nat

namespace Slot

open ResourceEvent

def next (s : Slot) : ResourceEvent → Option Slot
  | .acquire n => some ⟨some n, s.lost ++ s.held.toList⟩
  | .release n => if s.held = some n then some ⟨none, s.lost⟩ else none

end Slot

/-- **The variable as an automaton.** -/
def Slot.automaton : Automaton Slot ResourceEvent := ⟨⟨none, []⟩, Slot.next⟩

namespace Slot

open ResourceEvent

theorem feed_release (held : Option Nat) (lost : List Nat) :
    automaton.feed ⟨held, lost⟩ (held.map .release).toList = some ⟨none, lost⟩ := by
  cases held with
  | none => rfl
  | some n => simp [Automaton.feed, automaton, next]

def kept (s : Slot) : List Nat := s.lost ++ s.held.toList

theorem next_conserves {s t : Slot} {e : ResourceEvent} {es : List ResourceEvent}
    (h : (acquired es).Perm (released es ++ s.kept)) (hs : s.next e = some t) :
    (acquired (es ++ [e])).Perm (released (es ++ [e]) ++ t.kept) := by
  rw [acquired_append, released_append]
  cases e with
  | acquire n =>
      cases hs
      have happ := h.append_right [n]
      rw [List.append_assoc] at happ
      show (acquired es ++ [n]).Perm (released es ++ [] ++ (s.kept ++ [n]))
      rwa [List.append_nil]
  | release n =>
      obtain ⟨hheld, hs⟩ := Option.ite_none_right_eq_some.mp hs
      cases hs
      unfold kept at h
      rw [hheld] at h
      show (acquired es ++ []).Perm (released es ++ [n] ++ (s.lost ++ []))
      rw [List.append_nil, List.append_nil, List.append_assoc]
      exact h.trans (List.perm_append_comm.append_left _)

theorem next_lost {s t : Slot} {e : ResourceEvent} (hs : s.next e = some t) : s.lost <+: t.lost := by
  cases e with
  | acquire n =>
      cases hs
      exact List.prefix_append _ _
  | release n =>
      obtain ⟨-, hs⟩ := Option.ite_none_right_eq_some.mp hs
      cases hs
      exact List.prefix_refl _

/-- **Conservation**: what was acquired is what was released, lost or is held; what is lost stays lost. -/
theorem conservation {s t : Slot} (es : List ResourceEvent) {es' : List ResourceEvent}
    (h : (acquired es).Perm (released es ++ s.kept)) (hf : automaton.feed s es' = some t) :
    (acquired (es ++ es')).Perm (released (es ++ es') ++ t.kept) ∧ s.lost <+: t.lost := by
  induction es' generalizing s es with
  | nil =>
      cases hf
      rw [List.append_nil]
      exact ⟨h, List.prefix_refl _⟩
  | cons e es' ih =>
      obtain ⟨u, hu, hf⟩ := Option.bind_eq_some_iff.mp hf
      obtain ⟨hperm, hlost⟩ := ih _ (next_conserves h hu) hf
      rw [List.append_assoc, List.singleton_append] at hperm
      exact ⟨hperm, (next_lost hu).trans hlost⟩

theorem conservation_start {t : Slot} {es : List ResourceEvent} (hf : automaton.feed automaton.start es = some t) :
    (acquired es).Perm (released es ++ t.kept) := (conservation [] (List.Perm.refl _) hf).1

theorem unreleased_perm {t : Slot} {es : List ResourceEvent} (hf : automaton.feed automaton.start es = some t)
    (hn : (acquired es).Nodup) : (unreleased es).Perm t.kept := by
  have hperm := conservation_start hf
  have hdisj := (List.nodup_append.mp (hperm.nodup_iff.mp hn)).2.2
  have hrel : (released es).filter (· ∉ released es) = [] := by
    rw [List.filter_eq_nil_iff]
    intro n hn
    simpa using hn
  have hkept : t.kept.filter (· ∉ released es) = t.kept := by
    rw [List.filter_eq_self]
    intro n hn
    rw [decide_eq_true_eq]
    exact fun hr => hdisj n hr n hn rfl
  have hfilter := hperm.filter fun n => decide (n ∉ released es)
  rwa [List.filter_append, hrel, hkept, List.nil_append] at hfilter

/-- **When the variable is empty at the end**, the resources were managed exactly when none was lost. -/
theorem managed_iff {t : Slot} {es : List ResourceEvent} (hf : automaton.feed automaton.start es = some t)
    (hn : (acquired es).Nodup) (hheld : t.held = none) : Managed es ↔ t.lost = [] := by
  have hperm := conservation_start hf
  have hkept : t.kept = t.lost := by rw [kept, hheld, Option.toList_none, List.append_nil]
  rw [hkept] at hperm
  constructor
  · intro hm
    rw [List.eq_nil_iff_forall_not_mem]
    intro n hlost
    have hmem : n ∈ acquired es := hperm.mem_iff.mpr (List.mem_append_right _ hlost)
    have hdisj := (List.nodup_append.mp (hperm.nodup_iff.mp hn)).2.2
    have hpos : 0 < (released es).count n := by
      rw [hm.released_once n hmem]
      exact Nat.one_pos
    exact hdisj n (List.count_pos_iff.mp hpos) n hlost rfl
  · intro hlost
    rw [hlost, List.append_nil] at hperm
    refine ⟨fun n hmem => ?_, ?_⟩
    · rw [← hperm.count_eq]
      exact List.count_eq_one_of_mem hn hmem
    · rintro before ⟨after, rfl⟩
      rw [Automaton.feed_append] at hf
      obtain ⟨u, hu, hf⟩ := Option.bind_eq_some_iff.mp hf
      have hlost' := (conservation before (conservation_start hu) hf).2
      rw [hlost, List.prefix_nil] at hlost'
      rw [acquired_append] at hn
      rw [(unreleased_perm hu (List.nodup_append.mp hn).1).length_eq, kept, hlost', List.nil_append]
      cases u.held with
      | none => exact Nat.zero_le 1
      | some n => exact Nat.le_refl 1

end Slot

end Conc
