import ArcVideo.Conc.System
import ArcVideo.Load.Native

/-!
# The readers of a decoder

The Java `VideoDecoder` from its construction to `close()`: calls of the JNI function `loadStream`, each of which makes
a global reference to its reader, and the decoding thread, which deletes one in `ffmpegDataCleanup`.

* `Jni`, `jni` : the native decoder, the references made and deleted, and the thread. `close()` joins the thread, so it
  ends after the thread's cleanup;
* `readers_released_iff` : every reference is deleted exactly once if and only if every call of `loadStream` loads and
  starts the thread, of which there can be one;
* `reader_leaked` : the reference of a call that throws is never deleted.
-/

namespace ArcVideo
open Conc

/-! ## The calls -/

inductive DecodingThread
  | none | running | returned
  deriving DecidableEq

/-- A Java decoder with its native one. -/
structure Jni where
  native : Native
  /-- The number of `NewGlobalRef` calls; the references are numbered in this order. -/
  created : Nat
  /-- The references given to `DeleteGlobalRef`. -/
  deleted : List Nat
  thread : DecodingThread
  closed : Bool

namespace Jni

def init : Jni := ⟨.constructed, 0, [], .none, false⟩

/-- The JNI function `loadStream`; `methodFound` is the answer of `GetMethodID`. -/
def loadStream (j : Jni) (methodFound : Bool) (a : Answers) : LoadResult × Jni :=
  let ref := j.created
  let j := { j with created := j.created + 1 }
  if !methodFound then
    (.thrown (.invalidArgument "Supplied method name invalid! Is it having the correct signature?"), j)
  else
    let r := j.native.loadStream true (some ref) true a
    (r.1, { j with
      native := r.2
      thread := if !j.native.started && r.2.started then .running else j.thread })

/-- `ffmpegDataCleanup(customFuncData)` at the end of `run`; `attached` is whether the thread could be attached. -/
def cleanup (j : Jni) (attached : Bool) : Jni :=
  { j with
    deleted := if j.native.cleanupFunc && attached then j.deleted ++ j.native.customFuncData.toList else j.deleted
    thread := .returned }

end Jni

inductive JniAction
  | loadStream (methodFound : Bool) (a : Answers)
  /-- `run` comes to its end. -/
  | runEnds (attached : Bool)
  | close

def jniStep (j : Jni) : JniAction → Option Jni
  | .loadStream methodFound a =>
    if j.closed then none
    else match j.loadStream methodFound a with
      | (.crashed, _) => none
      | (_, j) => some j
  | .runEnds attached => if j.thread = .running then some (j.cleanup attached) else none
  -- the destructor makes `run` end, and `join()` waits for it
  | .close => if j.closed ∨ j.thread = .running then none else some { j with closed := true }

def jni : System Jni JniAction := ⟨(· = Jni.init), jniStep⟩

/-! ## The references -/

/-- The step leaves no reference behind: a call that loads and starts the thread, a cleanup that is attached. -/
def releases (j : Jni) : JniAction → Prop
  | .loadStream methodFound a =>
    methodFound = true ∧ j.native.fileLoaded = false ∧ (a.openInput && a.loads) = true ∧ a.threadCreated = true
  | .runEnds attached => attached = true
  | .close => True

instance (j : Jni) : (a : JniAction) → Decidable (releases j a)
  | .loadStream _ _ => inferInstanceAs (Decidable (_ ∧ _ ∧ _ ∧ _))
  | .runEnds _ => inferInstanceAs (Decidable (_ = true))
  | .close => inferInstanceAs (Decidable True)

/-- All steps so far have left no reference behind. -/
def allReleased (h : List (Jni × JniAction)) : Prop := ∀ p ∈ h, releases p.1 p.2

theorem allReleased_snoc (h : List (Jni × JniAction)) (j : Jni) (a : JniAction) :
    allReleased (h ++ [(j, a)]) ↔ allReleased h ∧ releases j a := by
  rw [allReleased, List.forall_mem_append, List.forall_mem_singleton]
  rfl

def Jni.refs (h : List (Jni × JniAction)) (j : Jni) : DecodingThread → Prop
  | .none => j.deleted = [] ∧ (allReleased h ↔ j.created = 0)
  | .running => j.deleted = [] ∧ j.native.cleanupFunc = true ∧
      ∃ ref < j.created, j.native.customFuncData = some ref ∧ (allReleased h ↔ j.created = 1)
  | .returned => ∃ ref < j.created, (j.deleted = [ref] ∧ (allReleased h ↔ j.created = 1)) ∨
      (j.deleted = [] ∧ ¬ allReleased h)

structure ReaderInv (h : List (Jni × JniAction)) (j : Jni) : Prop where
  refs : j.refs h j.thread
  started : j.native.started = true ↔ j.thread ≠ .none
  loaded : j.native.started = true → j.native.fileLoaded = true
  closed : j.closed = true → j.thread ≠ .running

/-! ## A call of `loadStream` -/

theorem load_cases {j j' : Jni} {methodFound : Bool} {a : Answers}
    (hs : jniStep j (.loadStream methodFound a) = some j') :
    j'.created = j.created + 1 ∧ j'.deleted = j.deleted ∧ j'.closed = j.closed ∧
      ((¬ releases j (.loadStream methodFound a) ∧ j'.native = j.native ∧ j'.thread = j.thread) ∨
        (methodFound = true ∧ j.native.fileLoaded = false ∧
          Native.LoadSpec
            { j.native with fillBufferFunc := true, customFuncData := some j.created, cleanupFunc := true }
            (a.openInput && a.loads) a.threadCreated j'.native ∧
          j'.thread = if !j.native.started && j'.native.started then .running else j.thread)) := by
  rw [jniStep, Jni.loadStream] at hs
  cases methodFound with
  | false =>
      obtain ⟨-, hs⟩ := Option.ite_none_left_eq_some.mp hs
      cases hs
      exact ⟨rfl, rfl, rfl, Or.inl ⟨fun h => Bool.false_ne_true h.1, rfl, rfl⟩⟩
  | true =>
      cases hl : j.native.fileLoaded with
      | true =>
          obtain ⟨-, hs⟩ := Option.ite_none_left_eq_some.mp hs
          rw [if_neg (by decide), Native.loadStream_loaded _ _ _ _ _ hl] at hs
          cases hs
          refine ⟨rfl, rfl, rfl, Or.inl ⟨fun h => ?_, rfl, ?_⟩⟩
          · rw [releases, hl] at h
            exact Bool.false_ne_true h.2.1.symm
          · cases j.native.started <;> rfl
      | false =>
          have hspec := Native.loadStream_spec j.native (some j.created) true a hl
          obtain ⟨-, hs⟩ := Option.ite_none_left_eq_some.mp hs
          rw [if_neg (by decide)] at hs
          dsimp only at hs
          split at hs
          · cases hs
          · next hne heq =>
            cases hs
            cases heq
            exact ⟨rfl, rfl, rfl, Or.inr ⟨rfl, rfl, hspec, rfl⟩⟩

theorem Jni.refs.left_behind {h h' : List (Jni × JniAction)} {j j' : Jni} {t : DecodingThread} (hI : j.refs h t)
    (hh : ¬ allReleased h') (hc : j'.created = j.created + 1) (hd : j'.deleted = j.deleted)
    (hn : j'.native = j.native) : j'.refs h' t := by
  cases t with
  | none => exact ⟨hd.trans hI.1, ⟨fun h => absurd h hh, fun h => by omega⟩⟩
  | running =>
      obtain ⟨hdel, hclean, ref, hlt, hdata, -⟩ := hI
      rw [Jni.refs, hn, hd]
      exact ⟨hdel, hclean, ref, by omega, hdata, ⟨fun h => absurd h hh, fun h => by omega⟩⟩
  | returned =>
      obtain ⟨ref, hlt, hI⟩ := hI
      refine ⟨ref, by omega, ?_⟩
      rcases hI with ⟨hdel, -⟩ | ⟨hdel, -⟩
      · exact Or.inl ⟨hd.trans hdel, ⟨fun h => absurd h hh, fun h => by omega⟩⟩
      · exact Or.inr ⟨hd.trans hdel, hh⟩

theorem not_closed {j j' : Jni} {methodFound : Bool} {a : Answers}
    (hs : jniStep j (.loadStream methodFound a) = some j') : j.closed = false :=
  Bool.eq_false_iff.mpr (Option.ite_none_left_eq_some.mp hs).1

theorem ReaderInv.load {h : List (Jni × JniAction)} {j j' : Jni} {methodFound : Bool} {a : Answers}
    (hI : ReaderInv h j) (hs : jniStep j (.loadStream methodFound a) = some j') :
    ReaderInv (h ++ [(j, .loadStream methodFound a)]) j' := by
  obtain ⟨hc, hd, hcl, hcases⟩ := load_cases hs
  rcases hcases with ⟨hrel, hn, ht⟩ | ⟨rfl, hl, hspec, ht⟩
  · have hno : ¬ allReleased (h ++ [(j, .loadStream methodFound a)]) := fun hall =>
      hrel ((allReleased_snoc _ _ _).mp hall).2
    refine ⟨?_, by rw [hn, ht]; exact hI.started, by rw [hn]; exact hI.loaded, by rw [hcl, ht]; exact hI.closed⟩
    rw [ht]
    exact hI.refs.left_behind hno hc hd hn
  · have hstarted : j.native.started = false := Bool.eq_false_iff.mpr fun hst => by
      rw [hI.loaded hst] at hl
      cases hl
    have hnone : j.thread = .none := by
      by_contra hne
      rw [hI.started.mpr hne] at hstarted
      cases hstarted
    have hrefs := hI.refs
    rw [hnone] at hrefs
    obtain ⟨hdel, hall⟩ := hrefs
    have hst := hspec.started
    rw [hstarted, Bool.not_false, Bool.true_and, hnone] at ht
    by_cases hok : (a.openInput && a.loads) = true ∧ a.threadCreated = true
    · rw [if_pos hok.1, hok.2] at hst
      rw [hst, if_pos rfl] at ht
      refine ⟨?_, by simp [hst, ht], fun _ => ?_, by simp [hcl, ht, not_closed hs]⟩
      · rw [ht]
        refine ⟨hd.trans hdel, hspec.cleanupFunc, j.created, by omega, hspec.customFuncData, ?_⟩
        rw [allReleased_snoc, hall, hc]
        exact ⟨fun h => by rw [h.1], fun h => ⟨by omega, rfl, hl, hok⟩⟩
      · rw [hspec.fileLoaded, hok.1, Bool.or_true]
    · have hst' : j'.native.started = false := by
        rw [hst]
        split_ifs with hld
        · exact Bool.eq_false_iff.mpr fun htc => hok ⟨hld, htc⟩
        · exact hstarted
      rw [hst', if_neg Bool.false_ne_true] at ht
      refine ⟨?_, by simp [hst', ht], by simp [hst'], by simp [ht]⟩
      rw [ht]
      refine ⟨hd.trans hdel, ⟨fun h => ?_, fun h => by omega⟩⟩
      exact absurd ((allReleased_snoc _ _ _).mp h).2.2.2 hok

/-! ## Every run -/

theorem ReaderInv.runEnds {h : List (Jni × JniAction)} {j j' : Jni} {attached : Bool} (hI : ReaderInv h j)
    (hs : jniStep j (.runEnds attached) = some j') : ReaderInv (h ++ [(j, .runEnds attached)]) j' := by
  obtain ⟨hrun, hs⟩ := Option.ite_none_right_eq_some.mp hs
  cases hs
  have hrefs := hI.refs
  rw [hrun] at hrefs
  obtain ⟨hdel, hclean, ref, hlt, hdata, hall⟩ := hrefs
  have hstarted := hI.started.mpr (by rw [hrun]; exact nofun)
  refine ⟨⟨ref, hlt, ?_⟩, ⟨fun _ => nofun, fun _ => hstarted⟩, hI.loaded, fun _ => nofun⟩
  cases attached with
  | true =>
      refine Or.inl ⟨?_, ?_⟩
      · rw [Jni.cleanup, hclean, hdata, hdel]
        rfl
      · rw [allReleased_snoc, hall]
        exact and_iff_left rfl
  | false =>
      refine Or.inr ⟨?_, fun h => Bool.false_ne_true ((allReleased_snoc _ _ _).mp h).2⟩
      rw [Jni.cleanup, Bool.and_false, if_neg Bool.false_ne_true, hdel]

theorem ReaderInv.close {h : List (Jni × JniAction)} {j j' : Jni} (hI : ReaderInv h j)
    (hs : jniStep j .close = some j') : ReaderInv (h ++ [(j, .close)]) j' := by
  obtain ⟨hno, hs⟩ := Option.ite_none_left_eq_some.mp hs
  cases hs
  have hall : allReleased (h ++ [(j, .close)]) ↔ allReleased h := by
    rw [allReleased_snoc]
    exact and_iff_left trivial
  refine ⟨?_, hI.started, hI.loaded, fun _ hrun => hno (Or.inr hrun)⟩
  have hrefs := hI.refs
  revert hrefs
  cases j.thread <;> simp only [Jni.refs, hall] <;> exact id

theorem readerInv {h : List (Jni × JniAction)} {j : Jni} (hr : jni.Run h j) : ReaderInv h j := by
  refine System.RunWhen.induction (P := ReaderInv) ?_ ?_ hr
  · rintro _ rfl
    have hall : allReleased [] := fun p hp => absurd hp List.not_mem_nil
    exact ⟨⟨rfl, ⟨fun _ => rfl, fun _ => hall⟩⟩, ⟨nofun, fun h => absurd rfl h⟩, nofun, nofun⟩
  · rintro h j a j' - hI - hs
    cases a with
    | loadStream methodFound a => exact hI.load hs
    | runEnds attached => exact hI.runEnds hs
    | close => exact hI.close hs

/-- **Each reader is released exactly once** by the end of `close()` if and only if every call of `loadStream` loads and
starts the thread, and the thread's cleanup is attached. -/
theorem readers_released_iff {h : List (Jni × JniAction)} {j : Jni} (hr : jni.Run h j) (hc : j.closed = true) :
    (∀ ref < j.created, j.deleted.count ref = 1) ↔ ∀ p ∈ h, releases p.1 p.2 := by
  have hI := readerInv hr
  have hrefs := hI.refs
  change _ ↔ allReleased h
  cases ht : j.thread with
  | none =>
      rw [ht] at hrefs
      obtain ⟨hdel, hall⟩ := hrefs
      rw [hall, hdel]
      constructor
      · intro hone
        by_contra hne
        exact absurd (hone 0 (Nat.pos_of_ne_zero hne)) (by decide)
      · intro hz ref hlt
        omega
  | running => exact absurd ht (hI.closed hc)
  | returned =>
      rw [ht] at hrefs
      obtain ⟨ref, hlt, ⟨hdel, hall⟩ | ⟨hdel, hno⟩⟩ := hrefs
      · rw [hall, hdel]
        constructor
        · intro hone
          -- the references 0 and 1 cannot both be `ref`
          by_contra hne
          have h0 := List.count_pos_iff.mp (Nat.lt_of_lt_of_eq Nat.zero_lt_one (hone 0 (by omega)).symm)
          have h1 := List.count_pos_iff.mp (Nat.lt_of_lt_of_eq Nat.zero_lt_one (hone 1 (by omega)).symm)
          have := List.mem_singleton.mp h0
          have := List.mem_singleton.mp h1
          omega
        · intro hone r hr
          rw [show r = ref by omega]
          simp
      · refine iff_of_false (fun hone => ?_) hno
        have := hone ref hlt
        rw [hdel] at this
        cases this

/-- One call that loads: the thread ends and its reference is deleted. -/
theorem readers_released_one : ∃ h j, jni.Run h j ∧ j.closed = true ∧ j.created = 1 ∧
    ∀ ref < j.created, j.deleted.count ref = 1 := by
  have he : ∃ r, jni.exec Jni.init [.loadStream true .success, .runEnds true, .close] = some r ∧
      (∀ p ∈ r.1, releases p.1 p.2) ∧ r.2.closed = true ∧ r.2.created = 1 := ⟨_, rfl, by decide, rfl, rfl⟩
  obtain ⟨⟨h, j⟩, he, hok, hclosed, hcreated⟩ := he
  have hr := System.run_of_exec rfl he
  exact ⟨h, j, hr, hclosed, hcreated, (readers_released_iff hr hclosed).mpr hok⟩

/-- The first call throws because the stream does not open, the second loads: only the second reader is released. -/
theorem reader_leaked : ∃ h j, jni.Run h j ∧ j.closed = true ∧ j.created = 2 ∧ j.deleted = [1] ∧
    ¬ ∀ ref < j.created, j.deleted.count ref = 1 := by
  have he : ∃ r, jni.exec Jni.init [.loadStream true { Answers.success with openInput := false },
      .loadStream true .success, .runEnds true, .close] = some r ∧ r.2.closed = true ∧ r.2.created = 2 ∧
      r.2.deleted = [1] := ⟨_, rfl, rfl, rfl, rfl⟩
  obtain ⟨⟨h, j⟩, he, hclosed, hcreated, hdel⟩ := he
  refine ⟨h, j, System.run_of_exec rfl he, hclosed, hcreated, hdel, fun hone => ?_⟩
  have hzero := hone 0 (by rw [hcreated]; decide)
  rw [hdel] at hzero
  exact absurd hzero (by decide)

end ArcVideo
