import ArcVideo.Conc.System

/-!
# Transducers that are asked, and fed when they want input

* `Transducer` : it answers when it is asked and takes an input when it is fed; the answer says what its user does next
  (`Phase`: ask again, feed it, or stop);
* `user` : the automaton of the uses that keep to the answers;
* `drive n` : the first `n` exchanges of the sequential user, who has the list of inputs in hand;
* `eq_drive` : whoever keeps to the answers and feeds the same inputs has the same exchanges, so that two uses are
  prefixes one of the other (`comparable`), and a use that has stopped has everything (`stopped_drive`);
* `map` : a transducer whose answers are seen through a function; `replay` : its exchanges with the answers in full.
-/

namespace Conc

/-- What the user of a transducer does next. -/
inductive Phase
  | asking | feeding | stopped
  deriving DecidableEq

inductive Exchange (ι α : Type*)
  | asked (a : α)
  | fed (i : ι)
  deriving DecidableEq

structure Transducer (σ ι α : Type*) where
  start : σ
  ask : σ → α × σ
  feed : σ → ι → σ

namespace Exchange

variable {ι α : Type*}

def answer : Exchange ι α → Option α
  | .asked a => some a
  | .fed _ => none

def input : Exchange ι α → Option ι
  | .asked _ => none
  | .fed i => some i

def answers (es : List (Exchange ι α)) : List α := es.filterMap answer

def inputs (es : List (Exchange ι α)) : List ι := es.filterMap input

@[simp] theorem inputs_nil : inputs ([] : List (Exchange ι α)) = [] := rfl
@[simp] theorem inputs_asked (a : α) (es : List (Exchange ι α)) : inputs (.asked a :: es) = inputs es := rfl
@[simp] theorem inputs_fed (i : ι) (es : List (Exchange ι α)) : inputs (.fed i :: es) = i :: inputs es := rfl

theorem inputs_append (es es' : List (Exchange ι α)) : inputs (es ++ es') = inputs es ++ inputs es' :=
  List.filterMap_append

theorem answers_append (es es' : List (Exchange ι α)) : answers (es ++ es') = answers es ++ answers es' :=
  List.filterMap_append

theorem inputs_map_fed (o : Option ι) : inputs (o.map (fed (α := α))).toList = o.toList := by
  cases o <;> rfl

end Exchange

/-- The uses that keep to the answers: `next a` is what the user does after the answer `a`, and it asks again after
feeding. -/
def user {ι α : Type*} (next : α → Phase) : Automaton Phase (Exchange ι α) where
  start := .asking
  next
    | .asking, .asked a => some (next a)
    | .feeding, .fed _ => some .asking
    | _, _ => none

theorem user_stopped {ι α : Type*} {next : α → Phase} {es : List (Exchange ι α)} {q : Phase}
    (h : (user next).feed .stopped es = some q) : es = [] ∧ q = .stopped := by
  cases es with
  | nil => exact ⟨rfl, (Option.some.inj h).symm⟩
  | cons e es => cases h

theorem user_told {ι α : Type*} {next : α → Phase} {p : Phase} {es : List (Exchange ι α)}
    (h : (user next).feed p es = some .stopped) (hp : p ≠ .stopped) :
    ∃ a ∈ Exchange.answers es, next a = .stopped := by
  induction es generalizing p with
  | nil => exact absurd (Option.some.inj h) hp
  | cons e es ih =>
      obtain ⟨r, hr, hrest⟩ := Option.bind_eq_some_iff.mp h
      cases e with
      | asked a =>
          cases p with
          | asking =>
              obtain rfl := Option.some.inj hr
              by_cases hstop : next a = .stopped
              · exact ⟨a, List.mem_cons_self, hstop⟩
              · obtain ⟨b, hb, hnext⟩ := ih hrest hstop
                exact ⟨b, List.mem_cons_of_mem _ hb, hnext⟩
          | feeding | stopped => cases hr
      | fed i =>
          cases p with
          | feeding =>
              obtain rfl := Option.some.inj hr
              exact ih hrest nofun
          | asking | stopped => cases hr

namespace Transducer

variable {σ ι α : Type*} (T : Transducer σ ι α) (next : α → Phase)

def after (s : σ) : Exchange ι α → σ
  | .asked _ => (T.ask s).2
  | .fed i => T.feed s i

/-- The answers are the transducer's, from the state `s` on. -/
def Gives : σ → List (Exchange ι α) → Prop
  | _, [] => True
  | s, .asked a :: es => a = (T.ask s).1 ∧ Gives (T.ask s).2 es
  | s, .fed i :: es => Gives (T.feed s i) es

/-- The first `n` exchanges of the sequential user with the inputs `is`, less when it stops or has no input left. -/
def drive : Nat → Phase → σ → List ι → List (Exchange ι α)
  | 0, _, _, _ => []
  | n + 1, .asking, s, is => .asked (T.ask s).1 :: drive n (next (T.ask s).1) (T.ask s).2 is
  | n + 1, .feeding, s, i :: is => .fed i :: drive n .asking (T.feed s i) is
  | _ + 1, .feeding, _, [] => []
  | _ + 1, .stopped, _, _ => []

/-- The exchanges of the sequential user from the start. -/
def sequential (is : List ι) (n : Nat) : List (Exchange ι α) := T.drive next n .asking T.start is

variable {T next}

theorem drive_mono {n m : Nat} (h : n ≤ m) (p : Phase) (s : σ) (is : List ι) :
    T.drive next n p s is <+: T.drive next m p s is := by
  induction n generalizing m p s is with
  | zero => exact List.nil_prefix
  | succ n ih =>
      obtain ⟨m, rfl⟩ : ∃ k, m = k + 1 := ⟨m - 1, by omega⟩
      have hnm : n ≤ m := by omega
      cases p with
      | asking => exact (List.prefix_cons_inj _).mpr (ih hnm _ _ _)
      | feeding =>
          cases is with
          | nil => exact List.prefix_refl _
          | cons i is => exact (List.prefix_cons_inj _).mpr (ih hnm _ _ _)
      | stopped => exact List.prefix_refl _

def afterAll (T : Transducer σ ι α) (s : σ) (es : List (Exchange ι α)) : σ := es.foldl T.after s

/-- A use that keeps to the answers is followed by the sequential user as if it had made the exchanges itself. -/
theorem drive_add {p q : Phase} {s : σ} {es : List (Exchange ι α)} (rest : List ι)
    (hu : (user next).feed p es = some q) (hg : T.Gives s es) (n : Nat) :
    T.drive next (es.length + n) p s (Exchange.inputs es ++ rest) =
      es ++ T.drive next n q (T.afterAll s es) rest := by
  induction es generalizing p s with
  | nil =>
      obtain rfl := Option.some.inj hu
      rw [List.length_nil, Nat.zero_add]
      rfl
  | cons e es ih =>
      obtain ⟨r, hr, hu⟩ := Option.bind_eq_some_iff.mp hu
      rw [List.length_cons, Nat.add_right_comm]
      cases e with
      | asked a =>
          cases p with
          | asking =>
              obtain rfl := Option.some.inj hr
              obtain ⟨rfl, hg⟩ := hg
              exact congrArg _ (ih hu hg)
          | feeding | stopped => cases hr
      | fed i =>
          cases p with
          | feeding =>
              obtain rfl := Option.some.inj hr
              exact congrArg _ (ih hu hg)
          | asking | stopped => cases hr

/-- **Every use is the sequential one** as far as it goes: it keeps to the answers, the answers are the transducer's,
and what it feeds comes from the same inputs in the same order. -/
theorem eq_drive {p q : Phase} {s : σ} {es : List (Exchange ι α)} {is : List ι}
    (hu : (user next).feed p es = some q) (hg : T.Gives s es) (hin : Exchange.inputs es <+: is) :
    es = T.drive next es.length p s is := by
  obtain ⟨rest, rfl⟩ := hin
  have h := drive_add rest hu hg 0
  rw [Nat.add_zero] at h
  rw [h, drive, List.append_nil]

/-- **Two uses on the same inputs differ only in how far they are.** -/
theorem comparable {p q q' : Phase} {s : σ} {es es' : List (Exchange ι α)} {is : List ι}
    (hu : (user next).feed p es = some q) (hg : T.Gives s es) (hin : Exchange.inputs es <+: is)
    (hu' : (user next).feed p es' = some q') (hg' : T.Gives s es') (hin' : Exchange.inputs es' <+: is) :
    es <+: es' ∨ es' <+: es := by
  rw [eq_drive hu hg hin, eq_drive hu' hg' hin']
  rcases Nat.le_total es.length es'.length with h | h
  · exact Or.inl (drive_mono h p s is)
  · exact Or.inr (drive_mono h p s is)

theorem stopped_drive {p : Phase} {s : σ} {es : List (Exchange ι α)} {is : List ι}
    (hu : (user next).feed p es = some .stopped) (hg : T.Gives s es) (hin : Exchange.inputs es <+: is) {n : Nat}
    (hn : es.length ≤ n) : T.drive next n p s is = es := by
  obtain ⟨rest, rfl⟩ := hin
  obtain ⟨m, rfl⟩ := Nat.exists_eq_add_of_le hn
  rw [drive_add rest hu hg m]
  cases m <;> exact List.append_nil es

/-! ## Answers seen through a function -/

/-- The transducer with its answers seen through `f`. -/
def map {β : Type*} (T : Transducer σ ι α) (f : α → β) : Transducer σ ι β where
  start := T.start
  ask s := (f (T.ask s).1, (T.ask s).2)
  feed := T.feed

/-- The exchanges, with the answers in full. -/
def replay {β : Type*} (T : Transducer σ ι α) : σ → List (Exchange ι β) → List (Exchange ι α)
  | _, [] => []
  | s, .asked _ :: es => .asked (T.ask s).1 :: replay T (T.ask s).2 es
  | s, .fed i :: es => .fed i :: replay T (T.feed s i) es

section
variable {β : Type*} {f : α → β} {s : σ} {es : List (Exchange ι β)}

theorem gives_replay (T : Transducer σ ι α) (s : σ) (es : List (Exchange ι β)) : T.Gives s (T.replay s es) := by
  induction es generalizing s with
  | nil => trivial
  | cons e es ih =>
      cases e with
      | asked => exact ⟨rfl, ih _⟩
      | fed => exact ih _

@[simp] theorem length_replay (T : Transducer σ ι α) (s : σ) (es : List (Exchange ι β)) :
    (T.replay s es).length = es.length := by
  induction es generalizing s with
  | nil => rfl
  | cons e es ih => cases e <;> simp [replay, ih]

@[simp] theorem inputs_replay (T : Transducer σ ι α) (s : σ) (es : List (Exchange ι β)) :
    Exchange.inputs (T.replay s es) = Exchange.inputs es := by
  induction es generalizing s with
  | nil => rfl
  | cons e es ih => cases e <;> simp [replay, ih]

theorem replay_append (T : Transducer σ ι α) (f : α → β) (s : σ) (es es' : List (Exchange ι β)) :
    T.replay s (es ++ es') = T.replay s es ++ T.replay ((T.map f).afterAll s es) es' := by
  induction es generalizing s with
  | nil => rfl
  | cons e es ih =>
      cases e with
      | asked => exact congrArg _ (ih _)
      | fed => exact congrArg _ (ih _)

theorem gives_append (T : Transducer σ ι α) (s : σ) (es es' : List (Exchange ι α)) :
    T.Gives s (es ++ es') ↔ T.Gives s es ∧ T.Gives (T.afterAll s es) es' := by
  induction es generalizing s with
  | nil => exact (and_iff_right trivial).symm
  | cons e es ih =>
      cases e with
      | asked a => exact (and_congr_right fun _ => ih _).trans and_assoc.symm
      | fed i => exact ih _

/-- A use of what is seen is a use of the transducer, when what is seen says what the user does next. -/
theorem user_replay {next' : β → Phase} (hnext : ∀ a, next' (f a) = next a) {p q : Phase}
    (hu : (user next').feed p es = some q) (hg : (T.map f).Gives s es) :
    (user next).feed p (T.replay s es) = some q := by
  induction es generalizing p s with
  | nil => exact hu
  | cons e es ih =>
      obtain ⟨r, hr, hrest⟩ := Option.bind_eq_some_iff.mp hu
      cases e with
      | asked b =>
          obtain ⟨rfl, hg⟩ := hg
          refine Option.bind_eq_some_iff.mpr ⟨r, ?_, ih hrest hg⟩
          cases p with
          | asking =>
              obtain rfl := Option.some.inj hr
              exact congrArg some (hnext _).symm
          | feeding | stopped => cases hr
      | fed i =>
          refine Option.bind_eq_some_iff.mpr ⟨r, ?_, ih hrest hg⟩
          cases p with
          | feeding => exact hr
          | asking | stopped => cases hr

end

end Transducer

end Conc
