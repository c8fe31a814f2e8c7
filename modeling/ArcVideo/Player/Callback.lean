import ArcVideo.Decoder.Handle
import ArcVideo.Player.Order

/-!
# Whose file a decoder reads

The thread of a decoder calls `readFileContents`, which reads the channel that `fileChannel` holds at that time.

* `ThreadObject.Joining` : past `join` in `~VideoDecoder`, `run()` has returned;
* `World`, `world` : the player makes the calls of its operations one by one, between the steps of all threads;
* `World.Sound` : only the decoder there can have a thread that runs, and `fileChannel` is its channel;
* `reads_own_file` : at most one decoder can call back, and the channel it finds is its own and open.
-/

namespace ArcVideo
open Conc ResourceEvent

variable {φ : Type}

/-! ## The thread of a decoder -/

namespace ThreadObject

/-- `run()` has returned, or there is no thread. -/
def Quit (t : ThreadObject) : Prop := t.child = .unborn ∨ t.child.hasStored = true

/-- What holds at each place of a parent that never detaches: after `join` in `~VideoDecoder` the thread has quit. -/
def Joining (t : ThreadObject) : Prop :=
  match t.parent with
  | .create => t.child = .unborn ∧ t.detached = false
  | .setRunning => t.detached = false
  | .idle | .joinTest true => (t.running = true ∨ t.Quit) ∧ t.detached = false
  | .joinWait true => True
  | .joinSet true | .delTest | .delDetach | .delTestAgain | .delCancel | .gone => t.Quit
  | .joinTest false | .joinWait false | .joinSet false | .detachTest | .detachCall | .detachSet => False

theorem joining_init : Joining .init := ⟨rfl, rfl⟩

/-- `~VideoDecoder`, of an object whose thread may never have been started. -/
def delete (t : ThreadObject) : Option ThreadObject :=
  if t.parent = .create ∨ t.parent = .idle then some { t with parent := .joinTest true } else none

theorem create_joining {t : ThreadObject} (h : t.Joining) (hp : t.parent = .create) (created : Bool) :
    (t.create created).Joining := by
  unfold Joining at h
  rw [hp] at h
  cases created with
  | true => exact h.2
  | false => exact ⟨Or.inr (Or.inl h.1), h.2⟩

theorem delete_joining {t t' : ThreadObject} (h : t.Joining) (ht : t.delete = some t') : t'.Joining := by
  obtain ⟨hp, ht⟩ := Option.ite_none_right_eq_some.mp ht
  cases ht
  unfold Joining at h
  rcases hp with hp | hp
  · rw [hp] at h
    exact ⟨Or.inr (Or.inl h.1), h.2⟩
  · rw [hp] at h
    exact h

theorem parentStep_joining {t t' : ThreadObject} (h : t.Joining) (ht : t.parentStep = some t') : t'.Joining := by
  unfold Joining at h
  cases parentStep_move ht with
  | setRunning hp =>
      rw [hp] at h
      exact ⟨Or.inl rfl, h⟩
  | joinFound last hp =>
      rw [hp] at h
      cases last with
      | false => exact absurd h id
      | true => trivial
  | joinPassed last hp hr =>
      rw [hp] at h
      cases last with
      | false => exact absurd h id
      | true =>
          -- the test is false only when the thread has quit
          rw [h.2, Bool.not_false, Bool.and_true] at hr
          exact h.1.resolve_left (by rw [hr]; decide)
  | joinWait last hp hterm =>
      rw [hp] at h
      cases last with
      | false => exact absurd h id
      | true =>
          have hstored : t.child.hasStored = true := by rw [hterm]; rfl
          exact Or.inr hstored
  | joinSet last hp =>
      rw [hp] at h
      cases last with
      | false => exact absurd h id
      | true => exact h
  | detachFound hp | detachPassed hp | detachCall hp | detachSet hp =>
      rw [hp] at h
      exact absurd h id
  | delFound hp | delPassed hp | delDetach hp | delAgainFound hp | delAgainPassed hp | delCancel hp =>
      rw [hp] at h
      exact h

theorem childStep_joining {t t' : ThreadObject} (h : t.Joining) (ht : t.childStep = some t') : t'.Joining := by
  obtain ⟨hp, hd, -, hchild⟩ := childStep_eq ht
  have hborn : t.child ≠ .unborn := by
    rcases hchild with ⟨h1, -⟩ | ⟨h1, -⟩ | ⟨h1, -⟩ <;> rw [h1] <;> nofun
  have hquit : t.Quit → t'.Quit := by
    rintro (hq | hq)
    · exact absurd hq hborn
    · rcases hchild with ⟨h1, -⟩ | ⟨h1, -⟩ | ⟨-, h2, -⟩
      · rw [h1] at hq
        cases hq
      · rw [h1] at hq
        cases hq
      · exact Or.inr (by rw [h2]; rfl)
  have hruns : t.running = true ∨ t.Quit → t'.running = true ∨ t'.Quit := by
    rintro (hr | hq)
    · rcases hchild with ⟨-, -, h3⟩ | ⟨-, h2, -⟩ | ⟨-, -, h3⟩
      · exact Or.inl (h3.trans hr)
      · exact Or.inr (Or.inr (by rw [h2]; rfl))
      · exact Or.inl (h3.trans hr)
    · exact Or.inr (hquit hq)
  unfold Joining at h ⊢
  rw [hp]
  split at h
  · exact absurd h.1 hborn
  · exact hd.trans h
  · exact ⟨hruns h.1, hd.trans h.2⟩
  · exact ⟨hruns h.1, hd.trans h.2⟩
  · trivial
  all_goals first | exact hquit h | exact absurd h id

/-- Once the object is gone, `run()` does not execute. -/
theorem Joining.not_executing {t : ThreadObject} (h : t.Joining) (hp : t.parent = .gone) : t.child ≠ .executing := by
  unfold Joining at h
  rw [hp] at h
  intro hc
  rcases h with h | h
  · exact absurd (hc.symm.trans h) nofun
  · rw [hc] at h
    cases h

end ThreadObject

/-! ## The player and the threads -/

/-- The player, with the calls of its operations that are still to be made, those made, and the native threads. -/
structure World (φ : Type) where
  /-- As it is after the operation. -/
  player : Player
  todo : List (Event φ)
  made : List (Event φ)
  /-- As `readFileContents` finds it. -/
  fileChannel : Option Nat
  threads : Nat → Option ThreadObject

inductive WorldAct (φ : Type)
  | op (op : Op φ)
  /-- The next call, or the return from the native part of `loadStream` or `dispose`. -/
  | call
  /-- `loadStream` comes to `start`, and `pthread_create` answers. -/
  | create (created : Bool)
  /-- `dispose` calls `~VideoDecoder`. -/
  | delete
  /-- The next step of `start` or `~VideoDecoder`. -/
  | parent
  | child (decoder : Nat)
  /-- A call of `readFileContents`. -/
  | callBack (decoder : Nat)

namespace World

def loading (w : World φ) : Option Nat :=
  match w.todo with
  | .loadStream d _ :: _ => some d
  | _ => none

def disposing (w : World φ) : Option Nat :=
  match w.todo with
  | .disposeDecoder d :: _ => some d
  | _ => none

def callsBack (w : World φ) (d : Nat) : Bool :=
  w.loading = some d || (w.threads d).any fun t => t.child = .executing

def setThread (w : World φ) (d : Nat) (t : ThreadObject) : World φ :=
  { w with threads := Function.update w.threads d (some t) }

def onThread (w : World φ) (d : Nat) (f : ThreadObject → Option ThreadObject) : Option (World φ) :=
  ((w.threads d).bind f).map (w.setThread d)

/-- A call. A new stream or decoder is none that was there before; `loadStream` returns from native code when `start`
has returned or was not called, `dispose` at the end of `~Thread`. -/
def make (w : World φ) : Event φ → Option (World φ)
  | .openStream n => if .acquire n ∈ streams w.made then none else some w
  | .newChannel n => some { w with fileChannel := some n }
  | .newDecoder d => if (w.threads d).isNone then some (w.setThread d .init) else none
  | .loadStream d _ => w.onThread d fun t => if t.parent = .create ∨ t.parent = .idle then some t else none
  | .disposeDecoder d => w.onThread d fun t => if t.parent = .gone then some t else none
  | _ => some w

def call (w : World φ) : Option (World φ) :=
  match w.todo with
  | [] => none
  | e :: es => (w.make e).map fun u => { u with todo := es, made := w.made ++ [e] }

def step (w : World φ) : WorldAct φ → Option (World φ)
  | .op op =>
    if w.todo.isEmpty then some { w with player := (w.player.apply op).player, todo := (w.player.apply op).events }
    else none
  | .call => w.call
  | .create created => w.loading.bind fun d =>
      w.onThread d fun t => if t.parent = .create then some (t.create created) else none
  | .delete => w.disposing.bind fun d => w.onThread d ThreadObject.delete
  | .parent => (w.loading.or w.disposing).bind fun d => w.onThread d ThreadObject.parentStep
  | .child d => w.onThread d ThreadObject.childStep
  | .callBack d => if w.callsBack d then some w else none

end World

/-- **The operations on a player between the steps of the native threads.** -/
def world (φ : Type) : System (World φ) (WorldAct φ) where
  init w := (∃ looping size completion, w.player = Player.new looping size completion) ∧ w.todo = [] ∧ w.made = [] ∧
    w.fileChannel = none ∧ ∀ d, w.threads d = none
  step := World.step

namespace World

/-- The thread objects: each knows what its place says, and one that is not gone is that of the decoder in `o`. -/
structure Threads (w : World φ) (o : Order) : Prop where
  joining : ∀ d t, w.threads d = some t → t.Joining
  current : ∀ d t, w.threads d = some t → t.parent = .gone ∨ o.decoder = some d

/-- **The invariant**: the calls made led to `o`, those to be made keep the order; while there is a decoder, or a
channel to make one for, `fileChannel` is its channel. -/
structure Sound (w : World φ) (o : Order) : Prop where
  history : o.History w.made
  ahead : ∃ o', (order φ).feed o w.todo = some o' ∧ w.player.At o'
  channel : ∀ n, (o = .channel n ∨ ∃ d, o = .reading n d) → w.fileChannel = some n
  threads : w.Threads o

theorem threads_setThread {w : World φ} {o o' : Order} (h : w.Threads o) {d : Nat} {t : ThreadObject}
    (ht : t.Joining) (hd : t.parent = .gone ∨ o'.decoder = some d)
    (ho : ∀ e, e ≠ d → o.decoder = some e → o'.decoder = some e) : (w.setThread d t).Threads o' := by
  refine ⟨fun e u hu => ?_, fun e u hu => ?_⟩
  · by_cases he : e = d
    · subst he
      rw [show (w.setThread e t).threads e = some t from Function.update_self _ _ _] at hu
      cases hu
      exact ht
    · rw [show (w.setThread d t).threads e = w.threads e from Function.update_of_ne he _ _] at hu
      exact h.joining e u hu
  · by_cases he : e = d
    · subst he
      rw [show (w.setThread e t).threads e = some t from Function.update_self _ _ _] at hu
      cases hu
      exact hd
    · rw [show (w.setThread d t).threads e = w.threads e from Function.update_of_ne he _ _] at hu
      exact (h.current e u hu).imp_right (ho e he)

theorem onThread_eq {w w' : World φ} {d : Nat} {f : ThreadObject → Option ThreadObject}
    (h : w.onThread d f = some w') : ∃ t t', w.threads d = some t ∧ f t = some t' ∧ w' = w.setThread d t' := by
  obtain ⟨t', ht, rfl⟩ := Option.map_eq_some_iff.mp h
  obtain ⟨t, ht, hf⟩ := Option.bind_eq_some_iff.mp ht
  exact ⟨t, t', ht, hf, rfl⟩

theorem sound_onThread {w w' : World φ} {o : Order} (h : w.Sound o) {d : Nat} {f : ThreadObject → Option ThreadObject}
    (hw : w.onThread d f = some w') (hf : ∀ t t', t.Joining → f t = some t' → t'.Joining)
    (hd : o.decoder = some d ∨ ∀ t t', f t = some t' → t'.parent = t.parent) : w'.Sound o := by
  obtain ⟨t, t', ht, hft, rfl⟩ := onThread_eq hw
  refine ⟨h.history, h.ahead, h.channel, threads_setThread h.threads (hf t t' (h.threads.joining d t ht) hft) ?_ ?_⟩
  · rcases hd with hd | hd
    · exact Or.inr hd
    · rw [hd t t' hft]
      exact h.threads.current d t ht
  · exact fun e _ he => he

theorem next_of_todo {w : World φ} {o : Order} (h : w.Sound o) {e : Event φ} {es : List (Event φ)}
    (hw : w.todo = e :: es) :
    ∃ o', o.next e = some o' ∧ ∃ o'', (order φ).feed o' es = some o'' ∧ w.player.At o'' := by
  obtain ⟨o'', hfeed, hat⟩ := h.ahead
  rw [hw] at hfeed
  obtain ⟨o', hnext, hfeed⟩ := Option.bind_eq_some_iff.mp hfeed
  exact ⟨o', hnext, o'', hfeed, hat⟩

theorem loading_decoder {w : World φ} {o : Order} (h : w.Sound o) {d : Nat} (hd : w.loading = some d) :
    o.decoder = some d := by
  unfold loading at hd
  split at hd
  next outcome es htodo =>
    cases hd
    obtain ⟨o', hnext, -⟩ := next_of_todo h htodo
    exact (Option.ite_none_right_eq_some.mp hnext).1
  next => cases hd

theorem disposing_decoder {w : World φ} {o : Order} (h : w.Sound o) {d : Nat} (hd : w.disposing = some d) :
    o.decoder = some d := by
  unfold disposing at hd
  split at hd
  next es htodo =>
    cases hd
    obtain ⟨o', hnext, -⟩ := next_of_todo h htodo
    exact (Option.ite_none_right_eq_some.mp hnext).1
  next => cases hd

theorem Threads.free {w : World φ} {o o' : Order} (h : w.Threads o) (hd : o.decoder = none) : w.Threads o' := by
  refine ⟨h.joining, fun d t ht => Or.inl ((h.current d t ht).resolve_right ?_)⟩
  rw [hd]
  nofun

theorem decoder_of_free {o : Order} (h : o.free = true) : o.decoder = none := by
  cases o <;> first | rfl | cases h

/-- A call `e` of the player: it opens no stream twice, and what it does to the channel and the threads fits `o'`. -/
structure Makes (w : World φ) (e : Event φ) (u : World φ) (o' : Order) : Prop where
  player : u.player = w.player
  fresh : ∀ n, e = .openStream n → .acquire n ∉ streams w.made
  channel : ∀ n, (o' = .channel n ∨ ∃ d, o' = .reading n d) → u.fileChannel = some n
  threads : u.Threads o'

theorem makes_quiet {w : World φ} {o o' : Order} (h : w.Sound o) {e : Event φ} (hnext : o.next e = some o')
    (he : e.quiet = true) : w.Makes e w o' := by
  rw [Order.next_quiet he] at hnext
  refine ⟨rfl, ?_, ?_, ?_⟩
  · rintro n rfl
    cases he
  · cases o with
    | opened n => cases hnext
    | reading n d =>
        cases hnext
        exact h.channel
    | _ =>
        cases hnext
        rintro n (hn | ⟨d, hn⟩) <;> cases hn
  · cases o with
    | opened n => cases hnext
    | channel n => exact h.threads.free rfl
    | _ =>
        cases hnext
        exact h.threads

theorem sound_make {w u : World φ} {o o' : Order} (h : w.Sound o) {e : Event φ} (hnext : o.next e = some o')
    (hu : w.make e = some u) : w.Makes e u o' := by
  cases e with
  | openStream n =>
      obtain ⟨hfree, hnext⟩ := Option.ite_none_right_eq_some.mp hnext
      cases hnext
      obtain ⟨hnew, hu⟩ := Option.ite_none_left_eq_some.mp hu
      cases hu
      refine ⟨rfl, fun m hm => ?_, ?_, h.threads.free (decoder_of_free hfree)⟩
      · cases hm
        exact hnew
      · rintro m (hm | ⟨d, hm⟩) <;> cases hm
  | closeStream n =>
      obtain ⟨⟨hfree, -⟩, hnext⟩ := Option.ite_none_right_eq_some.mp hnext
      cases hnext
      cases hu
      refine ⟨rfl, nofun, ?_, h.threads.free (decoder_of_free hfree)⟩
      rintro m (hm | ⟨d, hm⟩) <;> cases hm
  | newChannel n =>
      obtain ⟨ho, hnext⟩ := Option.ite_none_right_eq_some.mp hnext
      cases hnext
      cases hu
      refine ⟨rfl, nofun, ?_, ?_⟩
      · rintro m (hm | ⟨d, hm⟩) <;> cases hm
        rfl
      · have hfree : w.Threads (.channel n) := h.threads.free (by rw [ho]; rfl)
        exact ⟨hfree.joining, hfree.current⟩
  | newDecoder d =>
      cases o with
      | channel n =>
          cases hnext
          obtain ⟨-, hu⟩ := Option.ite_none_right_eq_some.mp hu
          cases hu
          refine ⟨rfl, nofun, ?_, threads_setThread h.threads ThreadObject.joining_init (Or.inr rfl) nofun⟩
          rintro m (hm | ⟨d', hm⟩) <;> cases hm
          exact h.channel n (Or.inl rfl)
      | _ => cases hnext
  | loadStream d outcome =>
      obtain ⟨hd, hnext⟩ := Option.ite_none_right_eq_some.mp hnext
      cases hnext
      have hsound := sound_onThread h hu (fun t t' ht hf => ?_) (Or.inl hd)
      · obtain ⟨t, t', -, -, rfl⟩ := onThread_eq hu
        exact ⟨rfl, nofun, hsound.channel, hsound.threads⟩
      · obtain ⟨-, hf⟩ := Option.ite_none_right_eq_some.mp hf
        cases hf
        exact ht
  | disposeDecoder d =>
      obtain ⟨hd, hnext⟩ := Option.ite_none_right_eq_some.mp hnext
      cases hnext
      obtain ⟨t, t', ht, hf, rfl⟩ := onThread_eq hu
      obtain ⟨hgone, hf⟩ := Option.ite_none_right_eq_some.mp hf
      cases hf
      refine ⟨rfl, nofun, ?_, threads_setThread h.threads (h.threads.joining d t ht) (Or.inl hgone) ?_⟩
      · rintro m (hm | ⟨d', hm⟩) <;> cases hm
      · intro e hne he
        rw [hd] at he
        cases he
        exact absurd rfl hne
  | _ =>
      cases hu
      exact makes_quiet h hnext rfl

/-- **The invariant is kept.** -/
theorem sound_step {w w' : World φ} {o : Order} (h : w.Sound o) {a : WorldAct φ} (hs : w.step a = some w') :
    ∃ o', w'.Sound o' := by
  cases a with
  | op op =>
      obtain ⟨hempty, hs⟩ := Option.ite_none_right_eq_some.mp hs
      cases hs
      obtain ⟨o', hfeed, hat⟩ := h.ahead
      rw [List.isEmpty_iff.mp hempty] at hfeed
      cases hfeed
      obtain ⟨o'', hfeed, hat⟩ := w.player.leads_order op o hat
      exact ⟨o, h.history, ⟨o'', hfeed, hat⟩, h.channel, ⟨h.threads.joining, h.threads.current⟩⟩
  | call =>
      change w.call = some w' at hs
      unfold World.call at hs
      split at hs
      · cases hs
      next e es htodo =>
        obtain ⟨u, hu, rfl⟩ := Option.map_eq_some_iff.mp hs
        obtain ⟨o', hnext, o'', hfeed, hat⟩ := next_of_todo h htodo
        have hmakes := sound_make h hnext hu
        rw [← hmakes.player] at hat
        exact ⟨o', Order.history_next h.history hnext hmakes.fresh, ⟨o'', hfeed, hat⟩, hmakes.channel,
          ⟨hmakes.threads.joining, hmakes.threads.current⟩⟩
  | create created =>
      obtain ⟨d, hd, hs⟩ := Option.bind_eq_some_iff.mp hs
      refine ⟨o, sound_onThread h hs (fun t t' ht hf => ?_) (Or.inl (loading_decoder h hd))⟩
      obtain ⟨hp, hf⟩ := Option.ite_none_right_eq_some.mp hf
      cases hf
      exact ThreadObject.create_joining ht hp created
  | delete =>
      obtain ⟨d, hd, hs⟩ := Option.bind_eq_some_iff.mp hs
      exact ⟨o, sound_onThread h hs (fun _ _ => ThreadObject.delete_joining) (Or.inl (disposing_decoder h hd))⟩
  | parent =>
      obtain ⟨d, hd, hs⟩ := Option.bind_eq_some_iff.mp hs
      refine ⟨o, sound_onThread h hs (fun _ _ => ThreadObject.parentStep_joining) (Or.inl ?_)⟩
      rcases Option.or_eq_some_iff.mp hd with hd | ⟨-, hd⟩
      · exact loading_decoder h hd
      · exact disposing_decoder h hd
  | child d =>
      exact ⟨o, sound_onThread h hs (fun _ _ => ThreadObject.childStep_joining)
        (Or.inr fun t t' ht => (ThreadObject.childStep_eq ht).1)⟩
  | callBack d =>
      obtain ⟨-, hs⟩ := Option.ite_none_right_eq_some.mp hs
      cases hs
      exact ⟨o, h⟩

theorem run_sound {h : List (World φ × WorldAct φ)} {w : World φ} (hr : (world φ).Run h w) : ∃ o, w.Sound o := by
  refine System.RunWhen.induction (P := fun _ w => ∃ o, w.Sound o) ?_ ?_ hr
  · rintro ⟨p, todo, made, fileChannel, threads⟩ ⟨⟨_, _, _, rfl⟩, rfl, rfl, rfl, hthreads⟩
    refine ⟨.idle none, Order.history_start, ⟨.idle none, rfl, rfl, rfl, nofun⟩, ?_, ?_, ?_⟩
    · rintro n (hn | ⟨d, hn⟩) <;> cases hn
    · exact fun d t ht => nomatch (hthreads d).symm.trans ht
    · exact fun d t ht => nomatch (hthreads d).symm.trans ht
  · rintro - s a t - ⟨o, ho⟩ - hs
    exact sound_step ho hs

theorem Sound.callsBack {w : World φ} {o : Order} (h : w.Sound o) {d : Nat} (hd : w.callsBack d = true) :
    o.decoder = some d := by
  unfold World.callsBack at hd
  rw [Bool.or_eq_true, decide_eq_true_eq] at hd
  rcases hd with hd | hd
  · exact loading_decoder h hd
  · cases ht : w.threads d with
    | none => simp [ht] at hd
    | some t =>
        refine (h.threads.current d t ht).resolve_left fun hgone => ?_
        exact (h.threads.joining d t ht).not_executing hgone (by simpa [ht] using hd)

end World

/-- **A decoder reads only its own file**: in every state of every run at most one decoder can call back, and then
`fileChannel` is the channel made for the stream that was opened for this decoder, which has not been closed. -/
theorem reads_own_file {h : List (World φ × WorldAct φ)} {w : World φ} (hr : (world φ).Run h w) :
    (∀ d e, w.callsBack d = true → w.callsBack e = true → d = e) ∧
      ∀ d, w.callsBack d = true → ∃ n, [.openStream n, .newChannel n, .newDecoder d] <:+: w.made ∧
        w.fileChannel = some n ∧ .release n ∉ streams w.made := by
  obtain ⟨o, ho⟩ := World.run_sound hr
  refine ⟨fun d e hd he => ?_, fun d hd => ?_⟩
  · exact Option.some.inj ((ho.callsBack hd).symm.trans (ho.callsBack he))
  · have hdec := ho.callsBack hd
    cases o with
    | reading n e =>
        cases hdec
        exact ⟨n, ho.history.reading n d rfl, ho.channel n (Or.inr ⟨d, rfl⟩), (ho.history.current n rfl).2⟩
    | _ => cases hdec

/-- A video that plays, and its thread calling back. -/
theorem reads_own_file_playing : ∃ h w, (world Unit).Run h w ∧ w.callsBack 7 = true ∧
    ∃ n, [.openStream n, .newChannel n, .newDecoder 7] <:+: w.made ∧ w.fileChannel = some n ∧
      .release n ∉ streams w.made := by
  have hinit : (world Unit).init ⟨Player.new false false false, [], [], none, fun _ => none⟩ :=
    ⟨⟨false, false, false, rfl⟩, rfl, rfl, rfl, fun _ => rfl⟩
  have he : ∃ r, (world Unit).exec ⟨Player.new false false false, [], [], none, fun _ => none⟩
      [.op (playing 3 (some 7)), .call, .call, .call, .callBack 7, .create true, .parent, .call, .callBack 7] = some r ∧
      r.2.callsBack 7 = true := ⟨_, rfl, rfl⟩
  obtain ⟨⟨h, w⟩, he, hc⟩ := he
  have hr := System.run_of_exec hinit he
  exact ⟨h, w, hr, hc, (reads_own_file hr).2 7 hc⟩

end ArcVideo
