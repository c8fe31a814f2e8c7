import ArcVideo.Player.Resources

/-!
# The order of the calls on streams, channels and decoders

* `Order`, `order` : the allowed orders, as an automaton: a decoder is made for the channel just opened, and neither the
  stream nor the channel changes while it is there;
* `Player.leads_order` : every operation keeps the order;
* `Order.History` : what the order tells about the calls made.
-/

namespace ArcVideo
open Conc ResourceEvent

variable {φ : Type}

/-! ## The order of the calls -/

inductive Order
  /-- There is no decoder; a stream may have been left. -/
  | idle (stream : Option Nat)
  | opened (stream : Nat)
  | channel (stream : Nat)
  /-- The decoder made for the channel of this stream is there. -/
  | reading (stream decoder : Nat)
  deriving DecidableEq

namespace Order

def free : Order → Bool
  | .idle _ | .channel _ => true
  | .opened _ | .reading _ _ => false

def stream : Order → Option Nat
  | .idle s => s
  | .opened n | .channel n | .reading n _ => some n

def decoder : Order → Option Nat
  | .reading _ d => some d
  | _ => none

def rest : Order → Option Order
  | .opened _ => none
  | .channel n => some (.idle (some n))
  | o => some o

def next (o : Order) : Event φ → Option Order
  | .openStream n => if o.free then some (.opened n) else none
  | .closeStream n => if o.free ∧ o.stream = some n then some (.idle none) else none
  | .newChannel n => if o = .opened n then some (.channel n) else none
  | .newDecoder d =>
    match o with
    | .channel n => some (.reading n d)
    | _ => none
  | .loadStream d _ => if o.decoder = some d then some o else none
  | .disposeDecoder d => if o.decoder = some d then some (.idle o.stream) else none
  | _ => o.rest

theorem next_quiet {e : Event φ} (he : e.quiet = true) (o : Order) : o.next e = o.rest := by
  cases e <;> first | rfl | cases he

end Order

/-- **The automaton of the allowed orders.** -/
def order (φ : Type) : Automaton Order (Event φ) := ⟨.idle none, Order.next⟩

namespace Player

def At (p : Player) (o : Order) : Prop :=
  p.inputStream = o.stream ∧ p.decoder = o.decoder ∧ ∀ n, o ≠ .opened n

theorem order_quiet {p q : Player} {es : List (Event φ)} (h : Quiet p es q) : (order φ).Leads p.At es q.At := by
  have hstay : (order φ).Leads p.At es p.At := by
    obtain ⟨-, hes⟩ := h
    induction es with
    | nil => exact .nil fun _ => id
    | cons e es ih =>
        refine .cons (.one fun o ho => ?_) (ih fun e' he => hes e' (List.mem_cons_of_mem _ he))
        rw [show (order φ).next o e = o.rest from Order.next_quiet (hes e List.mem_cons_self) o]
        obtain ⟨hs, hd, hne⟩ := ho
        cases o with
        | idle s => exact ⟨_, rfl, hs, hd, nofun⟩
        | opened n => exact absurd rfl (hne n)
        | channel n => exact ⟨_, rfl, hs, hd, nofun⟩
        | reading n d => exact ⟨_, rfl, hs, hd, nofun⟩
  refine hstay.mono (fun _ => id) fun o ⟨hs, hd, hne⟩ => ⟨?_, ?_, hne⟩
  · rw [h.held.inputStream, hs]
  · rw [h.held.decoder, hd]

theorem At.free {p : Player} {o : Order} (h : p.At o) (hd : p.decoder = none) : o.free = true := by
  obtain ⟨-, hd', hne⟩ := h
  rw [hd] at hd'
  cases o with
  | opened n => exact absurd rfl (hne n)
  | reading n d => cases hd'
  | _ => rfl

theorem order_stop (p : Player) : (order φ).Leads p.At p.stop.2 (p.stop (φ := φ)).1.At := by
  have haudio : (order φ).Leads p.At (p.audio.map .disposeAudio).toList p.At :=
    order_quiet (.option ⟨rfl, rfl, rfl⟩ _ _ fun _ => rfl)
  have hdecoder : (order φ).Leads p.At (p.decoder.map .disposeDecoder).toList { p with decoder := none }.At := by
    cases hd : p.decoder with
    | none => exact .nil fun o h => ⟨h.1, hd.symm.trans h.2.1, h.2.2⟩
    | some d =>
        refine .one fun o h => ⟨.idle o.stream, ?_, h.1, rfl, nofun⟩
        have ho : o.decoder = some d := h.2.1.symm.trans hd
        simp [order, Order.next, ho]
  have hstream : (order φ).Leads { p with decoder := none }.At (p.inputStream.map .closeStream).toList
      (p.stop (φ := φ)).1.At := by
    cases hs : p.inputStream with
    | none => exact .nil fun o h => ⟨h.1, h.2.1, h.2.2⟩
    | some n =>
        refine .one fun o h => ⟨.idle none, ?_, rfl, rfl, nofun⟩
        have hstr : o.stream = some n := h.1.symm
        simp [order, Order.next, hstr, At.free h rfl]
  exact (haudio.append hdecoder).append hstream

theorem order_clean (p : Player) : (order φ).Leads p.At p.clean.2 (p.clean (φ := φ)).1.At := by
  unfold clean
  split
  · exact order_stop p
  · exact .nil fun _ => id

theorem order_opening {p : Player} (hd : p.decoder = none) (file : Fi) (stream : Nat) :
    (order φ).Leads p.At [.openStream stream, .newChannel stream] fun o =>
      (p.opening file stream).At o ∧ o = .channel stream := by
  refine .cons (.one (Q := (· = .opened stream)) fun o h => ⟨_, ?_, rfl⟩) (.one fun o h => ⟨.channel stream, ?_, ?_⟩)
  · simp [order, Order.next, At.free h hd]
  · simp [order, Order.next, h]
  · exact ⟨⟨rfl, hd, nofun⟩, rfl⟩

theorem order_making {p : Player} (hd : p.decoder = none) (file : Fi) (stream d : Nat) (outcome : LoadOutcome) :
    (order φ).Leads p.At [.openStream stream, .newChannel stream, .newDecoder d, .loadStream d outcome]
      (p.making file stream d).At := by
  refine (order_opening hd file stream).append (.cons (.one (Q := (· = .reading stream d)) fun o h => ?_)
    (.one fun o h => ⟨o, ?_, ?_⟩))
  · exact ⟨.reading stream d, by simp [order, Order.next, h.2], rfl⟩
  · simp [order, Order.next, h, Order.decoder]
  · rw [h]
    exact ⟨rfl, rfl, nofun⟩

/-- **The order of the calls of `play`.** -/
theorem order_play (p : Player) (file : Option Fi) (e : PlayEnv) :
    (order φ).Leads p.At (p.play file e).events (p.play (φ := φ) file e).player.At := by
  have hcalls : PlayCalls p file e _ _ := p.play_calls (φ := φ) file e
  generalize (p.play (φ := φ) file e).player = q at hcalls ⊢
  generalize (p.play (φ := φ) file e).events = es at hcalls ⊢
  have hclean := order_clean (φ := φ) p
  have hnone := clean_decoder (φ := φ) p
  cases hcalls with
  | refused => exact .nil fun _ => id
  | notRead f => exact hclean
  | notMade f stream =>
      exact hclean.append ((order_opening hnone f stream).mono (fun _ => id) fun _ h => h.1)
  | notLoaded f stream d outcome => exact hclean.append (order_making hnone f stream d outcome)
  | loaded f stream d b a v _ ha hv =>
      subst ha hv
      have hload := hclean.append (order_making hnone f stream d (.buffers b))
      have haudio := hload.append (order_quiet (quiet_openAudio _ b e.music))
      have hvideo := haudio.append (order_quiet (quiet_openVideo _ b))
      exact hvideo.append (order_quiet (quiet_onVideoSize _))

/-- **The order of the calls of every operation.** -/
theorem leads_order (p : Player) (op : Op φ) : (order φ).Leads p.At (p.apply op).events (p.apply op).player.At := by
  have hcalls := p.applies_apply op
  generalize (p.apply op).player = q at hcalls ⊢
  generalize (p.apply op).events = es at hcalls ⊢
  cases hcalls with
  | play file e => exact order_play p file e
  | update e h =>
      cases h with
      | quiet h => exact order_quiet h
      | restart d _ hb ha => exact ((order_quiet hb).append (order_play _ _ e.play)).append (order_quiet ha)
  | stop _ h => exact (order_stop p).append (order_quiet h)
  | quiet _ h => exact order_quiet h

end Player

/-! ## What the order tells about the calls made -/

namespace Order

theorem streams_append (es es' : List (Event φ)) : streams (es ++ es') = streams es ++ streams es' :=
  List.filterMap_append

theorem streams_quiet {e : Event φ} (he : e.quiet = true) : streams [e] = [] := by
  cases e <;> first | rfl | cases he

/-- Only streams that were opened have been closed; the stream of the state is open; and the last calls are those that
lead to the state. -/
structure History (es : List (Event φ)) (o : Order) : Prop where
  closed : ∀ n, .release n ∈ streams es → .acquire n ∈ streams es
  current : ∀ n, o.stream = some n → .acquire n ∈ streams es ∧ .release n ∉ streams es
  opened : ∀ n, o = .opened n → [.openStream n] <:+ es
  channel : ∀ n, o = .channel n → [.openStream n, .newChannel n] <:+ es
  reading : ∀ n d, o = .reading n d → [.openStream n, .newChannel n, .newDecoder d] <:+: es

theorem history_start : History ([] : List (Event φ)) (.idle none) := ⟨nofun, nofun, nofun, nofun, nofun⟩

theorem History.same {es : List (Event φ)} {o o' : Order} {e : Event φ} (h : History es o) (he : streams [e] = [])
    (hs : o'.stream = o.stream) (hopened : ∀ n, o' ≠ .opened n)
    (hchannel : ∀ n, o' = .channel n → [.openStream n, .newChannel n] <:+ es ++ [e])
    (hreading : ∀ n d, o' = .reading n d → [.openStream n, .newChannel n, .newDecoder d] <:+: es ++ [e]) :
    History (es ++ [e]) o' := by
  have hes : streams (es ++ [e]) = streams es := by rw [streams_append, he, List.append_nil]
  refine ⟨?_, ?_, fun n hn => absurd hn (hopened n), hchannel, hreading⟩
  · rw [hes]
    exact h.closed
  · rw [hes, hs]
    exact h.current

theorem History.quiet {es : List (Event φ)} {o o' : Order} {e : Event φ} (h : History es o) (hn : o.next e = some o')
    (he : e.quiet = true) : History (es ++ [e]) o' := by
  rw [next_quiet he] at hn
  cases o with
  | idle s =>
      cases hn
      exact h.same (streams_quiet he) rfl nofun nofun nofun
  | opened n => cases hn
  | channel n =>
      cases hn
      exact h.same (streams_quiet he) rfl nofun nofun nofun
  | reading n d =>
      cases hn
      refine h.same (streams_quiet he) rfl nofun nofun fun m d' hm => ?_
      exact (h.reading m d' hm).trans (List.prefix_append _ _).isInfix

/-- The stream that is opened has not been opened before, so it has not been closed. -/
theorem History.openStream {es : List (Event φ)} {o : Order} {n : Nat} (h : History es o)
    (hfresh : .acquire n ∉ streams es) : History (es ++ [.openStream n]) (.opened n) := by
  have hnew : .release n ∉ streams es := fun hr => hfresh (h.closed n hr)
  have hes : streams (es ++ [.openStream n]) = streams es ++ [.acquire n] := streams_append _ _
  refine ⟨fun m hm => ?_, fun m hm => ?_, fun m hm => ?_, nofun, nofun⟩
  · rw [hes] at hm ⊢
    have hm : .release m ∈ streams es := by simpa using hm
    exact List.mem_append_left _ (h.closed m hm)
  · cases hm
    rw [hes]
    simpa using hnew
  · cases hm
    exact List.suffix_append _ _

theorem history_next {es : List (Event φ)} {o o' : Order} {e : Event φ} (h : History es o) (hn : o.next e = some o')
    (hfresh : ∀ n, e = .openStream n → .acquire n ∉ streams es) : History (es ++ [e]) o' := by
  cases e with
  | openStream n =>
      obtain ⟨-, hn⟩ := Option.ite_none_right_eq_some.mp hn
      cases hn
      exact h.openStream (hfresh n rfl)
  | closeStream n =>
      obtain ⟨⟨-, hstr⟩, hn⟩ := Option.ite_none_right_eq_some.mp hn
      cases hn
      have hes : streams (es ++ [.closeStream n]) = streams es ++ [.release n] := streams_append _ _
      refine ⟨fun m hm => ?_, nofun, nofun, nofun, nofun⟩
      rw [hes, List.mem_append, List.mem_singleton] at hm ⊢
      rcases hm with hm | hm
      · exact Or.inl (h.closed m hm)
      · cases hm
        exact Or.inl (h.current n hstr).1
  | newChannel n =>
      obtain ⟨ho, hn⟩ := Option.ite_none_right_eq_some.mp hn
      cases hn
      refine h.same rfl (by rw [ho]; rfl) nofun (fun m hm => ?_) nofun
      cases hm
      obtain ⟨before, rfl⟩ := h.opened n ho
      exact ⟨before, by simp⟩
  | newDecoder d =>
      cases o with
      | channel n =>
          cases hn
          refine h.same rfl rfl nofun nofun fun m d' hm => ?_
          cases hm
          obtain ⟨before, rfl⟩ := h.channel n rfl
          exact ⟨before, [], by simp⟩
      | _ => cases hn
  | loadStream d outcome =>
      obtain ⟨hd, hn⟩ := Option.ite_none_right_eq_some.mp hn
      cases hn
      refine h.same rfl rfl (fun n ho => ?_) (fun n ho => ?_) fun n d' ho => ?_
      · rw [ho] at hd
        cases hd
      · rw [ho] at hd
        cases hd
      · exact (h.reading n d' ho).trans (List.prefix_append _ _).isInfix
  | disposeDecoder d =>
      obtain ⟨-, hn⟩ := Option.ite_none_right_eq_some.mp hn
      cases hn
      exact h.same rfl rfl nofun nofun nofun
  | _ => exact h.quiet hn rfl

end Order

end ArcVideo
