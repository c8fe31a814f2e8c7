import ArcVideo.Conc.Slot
import ArcVideo.Player.Calls

/-!
# The streams and decoders of the player

`inputStream` and `decoder` are variables that hold one resource each.

* `Event.stream`, `Event.decoder` : the calls that acquire and release them;
* `Feeds` : what the calls of a method do to the two variables;
* `Session`, `session` : the operations on a player, each new object with a number of its own;
* `keepsStream` : the operation does not open a stream while the player, without a decoder, holds another;
* `owned_iff` : after a last `dispose()`, every stream and decoder has been closed exactly once and there was never more
  than one of each, exactly when every operation met `keepsStream`.
-/

namespace ArcVideo
open Conc ResourceEvent

variable {φ : Type}

/-! ## The calls -/

def Event.stream : Event φ → Option ResourceEvent
  | .openStream n => some (.acquire n)
  | .closeStream n => some (.release n)
  | _ => none

def Event.decoder : Event φ → Option ResourceEvent
  | .newDecoder n => some (.acquire n)
  | .disposeDecoder n => some (.release n)
  | _ => none

def streams (es : List (Event φ)) : List ResourceEvent := es.filterMap Event.stream

def decoders (es : List (Event φ)) : List ResourceEvent := es.filterMap Event.decoder

/-- Every stream and every decoder is closed exactly once, and at no moment are there two streams or two decoders. -/
structure Owned (es : List (Event φ)) : Prop where
  streams : Managed (streams es)
  decoders : Managed (decoders es)

/-! ## The methods -/

namespace Player

/-- The calls `es` lead the two variables from `p` to `q`, and the lost streams from `l` to `m`. -/
structure Feeds (p : Player) (l : List Nat) (es : List (Event φ)) (q : Player) (m : List Nat) : Prop where
  streams : Slot.automaton.feed ⟨p.inputStream, l⟩ (streams es) = some ⟨q.inputStream, m⟩
  decoders : Slot.automaton.feed ⟨p.decoder, []⟩ (decoders es) = some ⟨q.decoder, []⟩

theorem Feeds.append {p q r : Player} {l m n : List Nat} {es es' : List (Event φ)} (h : Feeds p l es q m)
    (h' : Feeds q m es' r n) : Feeds p l (es ++ es') r n := by
  refine ⟨?_, ?_⟩
  · rw [ArcVideo.streams, List.filterMap_append, Slot.automaton.feed_append]
    rw [show List.filterMap Event.stream es = ArcVideo.streams es from rfl, h.streams]
    exact h'.streams
  · rw [ArcVideo.decoders, List.filterMap_append, Slot.automaton.feed_append]
    rw [show List.filterMap Event.decoder es = ArcVideo.decoders es from rfl, h.decoders]
    exact h'.decoders

theorem Feeds.quiet {p q : Player} {l : List Nat} {es : List (Event φ)} (h : Quiet p es q) : Feeds p l es q l := by
  have hnone : ∀ e ∈ es, e.stream = none ∧ e.decoder = none := fun e he => by
    have hq := h.calls e he
    cases e <;> first | exact ⟨rfl, rfl⟩ | cases hq
  have hs : ArcVideo.streams es = [] := List.filterMap_eq_nil_iff.mpr fun e h => (hnone e h).1
  have hd : ArcVideo.decoders es = [] := List.filterMap_eq_nil_iff.mpr fun e h => (hnone e h).2
  refine ⟨?_, ?_⟩
  · rw [hs, h.held.inputStream]
    rfl
  · rw [hd, h.held.decoder]
    rfl

theorem feeds_stop (p : Player) (l : List Nat) : Feeds p l (p.stop (φ := φ)).2 (p.stop (φ := φ)).1 l := by
  have haudio : Feeds (φ := φ) p l (p.audio.map .disposeAudio).toList p l :=
    .quiet (.option ⟨rfl, rfl, rfl⟩ _ _ fun _ => rfl)
  have hdecoder : Feeds (φ := φ) p l (p.decoder.map .disposeDecoder).toList { p with decoder := none } l := by
    refine ⟨?_, ?_⟩
    · rw [show ArcVideo.streams (φ := φ) (p.decoder.map .disposeDecoder).toList = [] by cases p.decoder <;> rfl]
      rfl
    · rw [show ArcVideo.decoders (φ := φ) (p.decoder.map .disposeDecoder).toList = (p.decoder.map .release).toList by
        cases p.decoder <;> rfl]
      exact Slot.feed_release _ _
  have hstream : Feeds (φ := φ) { p with decoder := none } l (p.inputStream.map .closeStream).toList
      (p.stop (φ := φ)).1 l := by
    refine ⟨?_, ?_⟩
    · rw [show ArcVideo.streams (φ := φ) (p.inputStream.map .closeStream).toList =
        (p.inputStream.map .release).toList by cases p.inputStream <;> rfl]
      exact Slot.feed_release _ _
    · rw [show ArcVideo.decoders (φ := φ) (p.inputStream.map .closeStream).toList = [] by cases p.inputStream <;> rfl]
      rfl
  exact (haudio.append hdecoder).append hstream

theorem feeds_clean (p : Player) (l : List Nat) : Feeds p l (p.clean (φ := φ)).2 (p.clean (φ := φ)).1 l := by
  unfold clean
  split
  · exact feeds_stop p l
  · exact .quiet (.nil ⟨rfl, rfl, rfl⟩)

/-- The stream that `play` overwrites: it stops what it finds only by the decoder. -/
def overwritten (p : Player) (file : Option Fi) (e : PlayEnv) : List Nat :=
  if opens file e && p.decoder.isNone then p.inputStream.toList else []

theorem clean_inputStream (p : Player) :
    (p.clean (φ := φ)).1.inputStream = if p.decoder.isNone then p.inputStream else none := by
  unfold clean
  cases p.decoder <;> rfl

theorem feeds_opening (p : Player) (l : List Nat) (file : Fi) (stream : Nat) :
    Feeds (φ := φ) p l [.openStream stream, .newChannel stream] (p.opening file stream)
      (l ++ p.inputStream.toList) := ⟨rfl, rfl⟩

theorem feeds_making {p : Player} (hd : p.decoder = none) (l : List Nat) (file : Fi) (stream d : Nat)
    (outcome : LoadOutcome) :
    Feeds (φ := φ) p l [.openStream stream, .newChannel stream, .newDecoder d, .loadStream d outcome]
      (p.making file stream d) (l ++ p.inputStream.toList) := by
  refine ⟨rfl, ?_⟩
  rw [hd]
  rfl

theorem overwritten_of_opens {file : Option Fi} {e : PlayEnv} (h : opens file e = true) (p : Player) :
    p.overwritten file e = (p.clean (φ := φ)).1.inputStream.toList := by
  rw [overwritten, h, Bool.true_and, clean_inputStream]
  split <;> rfl

/-- **What `play` does to the two variables.** -/
theorem feeds_play (p : Player) (l : List Nat) (file : Option Fi) (e : PlayEnv) :
    Feeds p l (p.play (φ := φ) file e).events (p.play (φ := φ) file e).player (l ++ p.overwritten file e) := by
  have hcalls : PlayCalls p file e _ _ := p.play_calls (φ := φ) file e
  generalize (p.play (φ := φ) file e).player = q at hcalls ⊢
  generalize (p.play (φ := φ) file e).events = es at hcalls ⊢
  have hclean := feeds_clean (φ := φ) p l
  have hnone := clean_decoder (φ := φ) p
  have hkeep : opens file e = false → l ++ p.overwritten file e = l := fun ho => by
    rw [overwritten, ho, Bool.false_and, if_neg Bool.false_ne_true, List.append_nil]
  cases hcalls with
  | refused ho =>
      rw [hkeep ho]
      exact .quiet (.nil ⟨rfl, rfl, rfl⟩)
  | notRead f ho =>
      rw [hkeep ho]
      exact ⟨hclean.streams, hclean.decoders⟩
  | notMade f stream ho =>
      rw [overwritten_of_opens (φ := φ) ho]
      exact hclean.append (feeds_opening _ l f stream)
  | notLoaded f stream d outcome ho =>
      rw [overwritten_of_opens (φ := φ) ho]
      exact hclean.append (feeds_making hnone l f stream d outcome)
  | loaded f stream d b a v ho ha hv =>
      rw [overwritten_of_opens (φ := φ) ho]
      subst ha hv
      have hload := hclean.append (feeds_making hnone l f stream d (.buffers b))
      have haudio := hload.append (.quiet (quiet_openAudio _ b e.music))
      have hvideo := haudio.append (.quiet (quiet_openVideo _ b))
      exact hvideo.append (.quiet (quiet_onVideoSize _))

theorem overwritten_of_decoder {p : Player} {d : Nat} (hd : p.decoder = some d) (file : Option Fi) (e : PlayEnv) :
    p.overwritten file e = [] := by simp [overwritten, hd]

/-- The stream an operation overwrites. -/
def leaked (p : Player) : Op φ → List Nat
  | .play file e => p.overwritten file e
  | _ => []

theorem leaked_of_ne {p : Player} {op : Op φ} (h : ∀ file e, op ≠ .play file e) : p.leaked op = [] := by
  cases op with
  | play file e => exact absurd rfl (h file e)
  | _ => rfl

/-- **What every operation does to the two variables**: only a play can overwrite a stream, as an update restarts the
video only when there is a decoder. -/
theorem feeds_apply (p : Player) (l : List Nat) (op : Op φ) :
    Feeds p l (p.apply op).events (p.apply op).player (l ++ p.leaked op) := by
  have hcalls := p.applies_apply op
  generalize (p.apply op).player = q at hcalls ⊢
  generalize (p.apply op).events = es at hcalls ⊢
  cases hcalls with
  | play file e => exact feeds_play p l file e
  | update e h =>
      rw [show p.leaked (.update e) = [] from rfl, List.append_nil]
      cases h with
      | quiet h => exact .quiet h
      | restart d hd hb ha =>
          rename_i r before after
          have hplay := feeds_play (φ := φ) r l r.currentFile e.play
          rw [overwritten_of_decoder (hb.held.decoder.trans hd), List.append_nil] at hplay
          exact ((Feeds.quiet hb).append hplay).append (.quiet ha)
  | stop hne h =>
      rw [leaked_of_ne hne, List.append_nil]
      exact (feeds_stop p l).append (.quiet h)
  | quiet hne h =>
      rw [leaked_of_ne hne, List.append_nil]
      exact .quiet h

end Player

/-! ## Every sequence of operations -/

/-- The player, and the calls made so far. -/
structure Session (φ : Type) where
  player : Player
  events : List (Event φ)

/-- No two streams and no two decoders have one number. -/
def Fresh (es : List (Event φ)) : Prop := (acquired (streams es)).Nodup ∧ (acquired (decoders es)).Nodup

instance (es : List (Event φ)) : Decidable (Fresh es) := inferInstanceAs (Decidable (_ ∧ _))

/-- **The operations on a player**, whatever the calls they make answer; each new object has a number of its own. -/
def session (φ : Type) : System (Session φ) (Op φ) where
  init s := (∃ looping size completion, s.player = Player.new looping size completion) ∧ s.events = []
  step s op :=
    let r := s.player.apply op
    if Fresh (s.events ++ r.events) then some ⟨r.player, s.events ++ r.events⟩ else none

/-- The operation does not open a stream while the player holds one and has no decoder. -/
def keepsStream (s : Session φ) : Op φ → Prop
  | .play file e => Player.opens file e = true → s.player.decoder = none → s.player.inputStream = none
  | _ => True

theorem keepsStream_iff (s : Session φ) (op : Op φ) : keepsStream s op ↔ s.player.leaked op = [] := by
  cases op with
  | play file e =>
      unfold keepsStream Player.leaked Player.overwritten
      cases Player.opens file e <;> cases s.player.decoder <;> cases s.player.inputStream <;> simp
  | _ => exact iff_of_true trivial rfl

/-- The streams overwritten in the steps `h`. -/
def lost (h : List (Session φ × Op φ)) : List Nat := h.flatMap fun p => p.1.player.leaked p.2

theorem step_session {s t : Session φ} {op : Op φ} (hs : (session φ).step s op = some t) :
    Fresh t.events ∧ t = ⟨(s.player.apply op).player, s.events ++ (s.player.apply op).events⟩ := by
  obtain ⟨hfresh, hs⟩ := Option.ite_none_right_eq_some.mp hs
  cases hs
  exact ⟨hfresh, rfl⟩

/-- **The two variables in every run**: what they hold, and the streams that were lost. -/
theorem run_feeds {h : List (Session φ × Op φ)} {t : Session φ} (hr : (session φ).Run h t) :
    Fresh t.events ∧ Slot.automaton.feed Slot.automaton.start (streams t.events) = some ⟨t.player.inputStream, lost h⟩ ∧
      Slot.automaton.feed Slot.automaton.start (decoders t.events) = some ⟨t.player.decoder, []⟩ := by
  refine System.RunWhen.induction (P := fun h t => Fresh t.events ∧
    Slot.automaton.feed Slot.automaton.start (streams t.events) = some ⟨t.player.inputStream, lost h⟩ ∧
    Slot.automaton.feed Slot.automaton.start (decoders t.events) = some ⟨t.player.decoder, []⟩) ?_ ?_ hr
  · rintro ⟨p, es⟩ ⟨⟨_, _, _, rfl⟩, rfl⟩
    exact ⟨⟨List.nodup_nil, List.nodup_nil⟩, rfl, rfl⟩
  · rintro h s op t - ⟨-, hstreams, hdecoders⟩ - hs
    obtain ⟨hfresh, rfl⟩ := step_session hs
    have hfeeds := Player.feeds_apply s.player (lost h) op
    refine ⟨hfresh, ?_, ?_⟩
    · rw [streams, List.filterMap_append, Slot.automaton.feed_append, ← streams, hstreams]
      unfold lost at hfeeds ⊢
      rw [List.flatMap_append, List.flatMap_singleton]
      exact hfeeds.streams
    · rw [decoders, List.filterMap_append, Slot.automaton.feed_append, ← decoders, hdecoders]
      exact hfeeds.decoders

theorem lost_eq_nil_iff (h : List (Session φ × Op φ)) : lost h = [] ↔ ∀ p ∈ h, keepsStream p.1 p.2 := by
  unfold lost
  rw [List.flatMap_eq_nil_iff]
  exact forall₂_congr fun p _ => (keepsStream_iff p.1 p.2).symm

/-- **The player owns its streams and decoders**: when its last operation is `dispose()`, each has been closed exactly
once and there was never more than one of each, exactly when every operation met `keepsStream`. -/
theorem owned_iff {h : List (Session φ × Op φ)} {s t : Session φ} (hr : (session φ).Run (h ++ [(s, .dispose)]) t) :
    Owned t.events ↔ ∀ p ∈ h, keepsStream p.1 p.2 := by
  obtain ⟨hfresh, hstreams, hdecoders⟩ := run_feeds hr
  have hheld : t.player.inputStream = none ∧ t.player.decoder = none := by
    obtain ⟨-, rfl⟩ := step_session hr.unsnoc.2.2
    exact ⟨rfl, rfl⟩
  have hlost : lost (h ++ [(s, .dispose)]) = lost h := by
    unfold lost
    rw [List.flatMap_append, List.flatMap_singleton]
    exact List.append_nil _
  rw [hlost] at hstreams
  rw [← lost_eq_nil_iff]
  have hstream := Slot.managed_iff hstreams hfresh.1 hheld.1
  have hdecoder := Slot.managed_iff hdecoders hfresh.2 hheld.2
  exact ⟨fun ho => hstream.mp ho.streams, fun hl => ⟨hstream.mpr hl, hdecoder.mpr rfl⟩⟩

def playing (stream : Nat) (decoder : Option Nat) : Op Unit :=
  .play (some ⟨"video.webm"⟩) ⟨true, true, some stream, decoder, .buffers ⟨false, 640, 640, 480⟩, none⟩

def idle : Session Unit := ⟨Player.new false false false, []⟩

theorem init_idle : (session Unit).init idle := ⟨⟨false, false, false, rfl⟩, rfl⟩

/-- Two videos, one after the other. -/
theorem owned_iff_two : ∃ h t, (session Unit).Run h t ∧ Owned t.events ∧
    streams t.events = [.acquire 1, .release 1, .acquire 2, .release 2] := by
  have he : ∃ r t, (session Unit).exec idle [playing 1 (some 1), playing 2 (some 2)] = some r ∧
      (session Unit).step r.2 .dispose = some t ∧ (∀ p ∈ r.1, p.1.player.leaked p.2 = []) ∧
      streams t.events = [.acquire 1, .release 1, .acquire 2, .release 2] := ⟨_, _, rfl, rfl, by decide, rfl⟩
  obtain ⟨⟨h, s⟩, t, he, hs, hkeep, hstreams⟩ := he
  have hr := (System.run_of_exec init_idle he).snoc trivial hs
  refine ⟨_, t, hr, (owned_iff hr).mpr fun p hp => ?_, hstreams⟩
  exact (keepsStream_iff p.1 p.2).mpr (hkeep p hp)

/-- The constructor of the first decoder throws; its stream is never closed. -/
theorem stream_never_closed : ∃ h s t, (session Unit).Run (h ++ [(s, .dispose)]) t ∧
    streams t.events = [.acquire 1, .acquire 2, .release 2] ∧ ¬Owned t.events := by
  have he : ∃ r t, (session Unit).exec idle [playing 1 none, playing 2 (some 1)] = some r ∧
      (session Unit).step r.2 .dispose = some t ∧ streams t.events = [.acquire 1, .acquire 2, .release 2] :=
    ⟨_, _, rfl, rfl, rfl⟩
  obtain ⟨⟨h, s⟩, t, he, hs, hstreams⟩ := he
  refine ⟨h, s, t, (System.run_of_exec init_idle he).snoc trivial hs, hstreams, fun ho => ?_⟩
  have hone := ho.streams.released_once 1 (by rw [hstreams]; decide)
  rw [hstreams] at hone
  exact absurd hone (by decide)

end ArcVideo
