import ArcVideo.Load.Account

/-!
# What the destructor frees

`VideoDecoder::~VideoDecoder` after any calls of a decoder.

* `Native.destroy` : the destructor from the return of `join()` on, undefined where it reads a member never assigned;
* `overwritesNothing` : the attempt stores over no member that holds an object; `keeps_attempt` : these are the attempts
  that lose none;
* `released_iff` : the destructor frees exactly what was acquired if and only if a stream has been opened and no attempt
  stored over an object.
-/

namespace ArcVideo
open Conc

namespace Native

/-! ## The destructor -/

def freeing (d : Native) (ids : List Nat) : Native := { d with freed := d.freed ++ ids }

/-- Free what a member points to; one that was never assigned cannot be read. -/
def release (d : Native) (m : Member) : Option Native :=
  match d.ptr m with
  | .unassigned => none
  | p => some (d.freeing p.id?.toList)

/-- `~VideoDecoder`, lines 75 to 102 -/
def destroy (d : Native) : Option Native := Member.order.foldlM release d

/-- **The destructor releases what the decoder acquired**: it reads no member that was never assigned, and frees every
object exactly once and nothing else. -/
def Released (d : Native) : Prop :=
  ∃ d', d.destroy = some d' ∧ ∀ id, d'.freed.count id = if id < d.acquired.length then 1 else 0

@[simp] theorem ptr_freeing (d : Native) (ids : List Nat) (m : Member) : (d.freeing ids).ptr m = d.ptr m := by
  cases m <;> rfl

theorem freeing_freeing (d : Native) (ids ids' : List Nat) :
    (d.freeing ids).freeing ids' = d.freeing (ids ++ ids') := by
  rw [freeing, freeing, freeing, List.append_assoc]

theorem release_eq {d : Native} {m : Member} (h : d.ptr m ≠ .unassigned) :
    d.release m = some (d.freeing (d.ptr m).id?.toList) := by
  rw [release]
  split
  · next hp => exact absurd hp h
  · rfl

theorem releases_eq {ms : List Member} {d : Native} (h : ∀ m ∈ ms, d.ptr m ≠ .unassigned) :
    ms.foldlM release d = some (d.freeing (ms.flatMap fun m => (d.ptr m).id?.toList)) := by
  induction ms generalizing d with
  | nil => rw [List.flatMap_nil, freeing, List.append_nil, List.foldlM_nil, Option.pure_def]
  | cons m ms ih =>
      rw [List.forall_mem_cons] at h
      rw [List.foldlM_cons, release_eq h.1, Option.bind_eq_bind, Option.bind_some, ih (by simpa using h.2),
        freeing_freeing, List.flatMap_cons]
      simp only [ptr_freeing]

theorem releases_none {ms : List Member} {m : Member} (hm : m ∈ ms) {d : Native} (h : d.ptr m = .unassigned) :
    ms.foldlM release d = none := by
  induction ms generalizing d with
  | nil => exact absurd hm List.not_mem_nil
  | cons n ms ih =>
      rw [List.foldlM_cons]
      by_cases hn : d.ptr n = .unassigned
      · simp [release, hn]
      · have hmem : m ∈ ms := (List.mem_cons.mp hm).resolve_left fun he => hn (he ▸ h)
        rw [release_eq hn, Option.bind_eq_bind, Option.bind_some]
        exact ih hmem (by rwa [ptr_freeing])

theorem released_iff_complete {d : Native} (ha : d.Assigned) (hs : d.ledger.Sound) :
    d.Released ↔ d.avioContext ≠ .unassigned ∧ d.ledger.Complete := by
  by_cases havio : d.avioContext = .unassigned
  · refine iff_of_false ?_ fun h => h.1 havio
    rintro ⟨d', hd, -⟩
    rw [destroy, releases_none (Member.mem_order .avioContext) havio] at hd
    cases hd
  · have hall : ∀ m ∈ Member.order, d.ptr m ≠ .unassigned := by
      intro m _ hm
      obtain rfl := ha.others m hm
      exact havio hm
    have hfreed := d.ledger.freed_freeAll Member.order_nodup
    rw [← Ledger.freeAll_exact hs Member.mem_order, hfreed, Released, destroy, releases_eq hall]
    refine ⟨fun h => ?_, fun h => ?_⟩
    · obtain ⟨d', hd, hcount⟩ := h
      cases hd
      exact ⟨havio, hcount⟩
    · exact ⟨_, rfl, h.2⟩

/-! ## What an attempt loses -/

/-- `avformat_open_input` is reached without a pointer being overwritten: `loadFile` finds no context with an I/O
context of FFmpeg's own, `loadStream` finds no context at all. -/
def entersFree (d : Native) : Attempt → Prop
  | .loadFile _ _ => (d.ptr .ioContext).id? = none
  | .loadStream _ _ _ _ => d.avioContext.id? = none ∧ d.formatContext.id? = none

/-- The attempt reaches `avcodec_alloc_context3` for the video stream. -/
def allocatesCodec (a : Answers) : Prop := a.openInput = true ∧ a.findStreamInfo = true ∧ 0 ≤ a.videoStreamIndex

/-- The attempt stores over no member that holds an object. -/
def overwritesNothing (d : Native) (t : Attempt) : Prop :=
  d.tries t → d.entersFree t ∧ (allocatesCodec t.answers → d.videoCodecContext.id? = none)

theorem keeps_container {l : Account} (h : Unloaded l) (opened : List Source) (a : Answers) :
    l.Keeps (containerOps opened a) ↔
      (a.findStreamInfo = true ∧ 0 ≤ a.videoStreamIndex → l.slot .videoCodecContext = none) := by
  have hnodup : ((containerOps opened a).map LedgerOp.target).Nodup := (targets_containerOps opened a).nodup (by decide)
  constructor
  · rintro hk ⟨hf, hv⟩
    rw [containerOps, if_neg (by simp [hf]), if_neg (by omega)] at hk
    exact hk.1
  · intro hcodec
    rw [Ledger.keeps_iff_of_nodup hnodup]
    intro o ho
    refine Ledger.lost_eq_none ?_
    have hmem := (targets_containerOps opened a).subset (List.mem_map_of_mem ho)
    have hvideo : l.slot .videoCodecContext = none := by
      refine hcodec ?_
      by_contra hn
      rw [containerOps] at ho
      split_ifs at ho with hf hv
      · cases ho
      · cases ho
      all_goals exact hn ⟨by simpa using hf, by omega⟩
    revert hmem
    generalize o.target = m
    intro hmem
    simp only [List.mem_append, List.mem_cons, List.not_mem_nil, or_false, List.mem_map, List.mem_finRange, true_and]
      at hmem
    rcases hmem with (rfl | rfl | rfl | rfl) | ⟨i, rfl⟩
    · exact hvideo
    · exact h.audio hvideo
    · exact h.swr
    · exact h.sws
    · exact h.rgb i

theorem keeps_allocOps (d : Native) (filename : String) (a : Answers) :
    d.ledger.Keeps (d.allocOps filename a) ↔ (d.ptr .ioContext).id? = none := by
  cases hf : d.formatContext.id? with
  | some id =>
      have hobject : d.allocOps filename a = [.forget .ioContext] := by
        rw [allocOps]
        cases hp : d.formatContext with
        | object id => rfl
        | null => rw [hp] at hf; cases hf
        | unassigned => rw [hp] at hf; cases hf
      rw [hobject]
      exact and_iff_left trivial
  | none =>
      have hio : (d.ptr .ioContext).id? = none := congrArg Ptr.id? (ptr_ioContext hf)
      refine iff_of_true ?_ hio
      rw [allocOps_new hf]
      refine ⟨hf, ?_⟩
      split_ifs
      · exact ⟨hio, trivial⟩
      · trivial

theorem keeps_closing (opened : Bool) (ms : List Member) (l : Account) :
    l.Keeps (if opened then [] else ms.map .free) := by
  split_ifs
  · trivial
  · exact Ledger.keeps_free ms

theorem keeps_entry {d : Native} (h : d.avioBuffer.id? = none ↔ d.avioContext.id? = none) (t : Attempt) :
    d.ledger.Keeps (d.entryOps t) ↔ d.entersFree t := by
  cases t with
  | loadFile filename a =>
      rw [entryOps, openOps, Ledger.keeps_append, keeps_allocOps]
      exact and_iff_left (keeps_closing a.openInput [.ioContext, .formatContext] _)
  | loadStream fillFunc funcData cleanFunc a =>
      have hfree : ∀ l : Account, l.Keeps (if a.openInput then [] else [.free .formatContext]) :=
        keeps_closing a.openInput [.formatContext]
      rw [entryOps, streamOps, Ledger.keeps_append, Ledger.keeps_iff_of_nodup (by decide), and_iff_left (hfree _)]
      simp only [List.forall_mem_cons, List.not_mem_nil, false_imp_iff, implies_true, and_true]
      change d.avioBuffer.id? = none ∧ d.avioContext.id? = none ∧ (d.ptr .ioContext).id? = none ∧
        d.formatContext.id? = none ↔ d.avioContext.id? = none ∧ d.formatContext.id? = none
      rw [h]
      exact ⟨fun hk => ⟨hk.1, hk.2.2.2⟩, fun hk => ⟨hk.1, hk.1, congrArg Ptr.id? (ptr_ioContext hk.2), hk.2⟩⟩

theorem keeps_attempt {d : Native} (hb : d.avioBuffer.id? = none ↔ d.avioContext.id? = none)
    (hu : Unloaded d.ledger) (t : Attempt) :
    d.ledger.Keeps (d.attemptOps t) ↔
      d.entersFree t ∧ (allocatesCodec t.answers → d.videoCodecContext.id? = none) := by
  rw [attemptOps, Ledger.keeps_append, keeps_entry hb]
  refine and_congr_right fun _ => ?_
  have hu' : Unloaded (d.ledger.run (d.entryOps t)) := hu.entry t
  cases ho : t.answers.openInput with
  | false => exact iff_of_true trivial fun hall => absurd hall.1 (by rw [ho]; exact Bool.false_ne_true)
  | true =>
      rw [if_pos rfl, keeps_container hu', slot_entryOps (by decide), allocatesCodec, ho]
      exact ⟨fun hk hall => hk hall.2, fun hk hall => hk ⟨rfl, hall⟩⟩

/-! ## Every run -/

def opensStream (d : Native) : Call → Prop
  | .load (.loadStream fillFunc funcData cleanFunc a) => d.tries (.loadStream fillFunc funcData cleanFunc a)
  | _ => False

def keepsObjects (d : Native) : Call → Prop
  | .load t => d.overwritesNothing t
  | .updateAudioBuffer => True

structure AccountInv (h : List (Native × Call)) (d : Native) : Prop where
  assigned : d.Assigned
  avioBuffer : d.avioBuffer.id? = none ↔ d.avioContext.id? = none
  opened : d.avioContext.id? ≠ none ↔ ∃ p ∈ h, opensStream p.1 p.2
  unloaded : d.fileLoaded = false → Unloaded d.ledger
  sound : d.ledger.Sound
  complete : d.ledger.Complete ↔ ∀ p ∈ h, keepsObjects p.1 p.2

theorem complete_constructed : constructed.ledger.Complete := by
  rw [constructed_ledger, Ledger.complete_run Ledger.sound_empty, Ledger.keeps_iff_of_nodup (by decide)]
  exact ⟨Ledger.complete_empty, fun o _ => Ledger.lost_eq_none rfl⟩

theorem accountInv_constructed : AccountInv [] constructed where
  assigned := assigned_constructed
  avioBuffer := iff_of_true rfl rfl
  opened := by
    refine iff_of_false (fun h => h rfl) ?_
    rintro ⟨p, hp, -⟩
    exact List.not_mem_nil hp
  unloaded := fun _ => unloaded_constructed
  sound := by
    rw [constructed_ledger]
    exact Ledger.sound_empty.run _
  complete := iff_of_true complete_constructed fun p hp => absurd hp List.not_mem_nil

theorem keeps_snoc (h : List (Native × Call)) (d : Native) (c : Call) :
    (∀ p ∈ h ++ [(d, c)], keepsObjects p.1 p.2) ↔ (∀ p ∈ h, keepsObjects p.1 p.2) ∧ keepsObjects d c := by
  rw [List.forall_mem_append, List.forall_mem_singleton]

theorem opened_snoc (h : List (Native × Call)) (d : Native) (c : Call) :
    (∃ p ∈ h ++ [(d, c)], opensStream p.1 p.2) ↔ (∃ p ∈ h, opensStream p.1 p.2) ∨ opensStream d c := by
  simp [or_and_right, exists_or]

theorem AccountInv.unchanged {h : List (Native × Call)} {d : Native} {c : Call} (hI : AccountInv h d)
    (hk : keepsObjects d c) (ho : ¬ opensStream d c) : AccountInv (h ++ [(d, c)]) d := by
  refine ⟨hI.assigned, hI.avioBuffer, ?_, hI.unloaded, hI.sound, ?_⟩
  · rw [opened_snoc, or_iff_left ho]
    exact hI.opened
  · rw [keeps_snoc, and_iff_left hk]
    exact hI.complete

theorem AccountInv.load {h : List (Native × Call)} {d d' : Native} {t : Attempt} (hI : AccountInv h d)
    (hs : d.call (.load t) = some d') : AccountInv (h ++ [(d, .load t)]) d' := by
  obtain ⟨rfl, hcrash⟩ := call_load hs
  by_cases ht : d.tries t
  · have hu := hI.unloaded (fileLoaded_of_tries ht)
    have hdoes := attempt_does hu.swr ht
    have hslot : ∀ m, ((d.attempt t).2.ptr m).id? = (d.ledger.run (d.attemptOps t)).slot m := fun m =>
      congrFun (congrArg Ledger.slot hdoes.ledger) m
    have havio : ((d.attempt t).2.avioContext.id? ≠ none ↔ d.avioContext.id? ≠ none ∨ opensStream d (.load t)) ∧
        ((d.attempt t).2.avioBuffer.id? = none ↔ (d.attempt t).2.avioContext.id? = none) := by
      have hbuf := slot_avio d t (Or.inl rfl)
      have hctx := slot_avio d t (Or.inr rfl)
      have hbuf' := hslot .avioBuffer
      have hctx' := hslot .avioContext
      change (d.attempt t).2.avioBuffer.id? = _ at hbuf'
      change (d.attempt t).2.avioContext.id? = _ at hctx'
      rw [hbuf', hctx']
      cases t with
      | loadFile filename a =>
          rw [hbuf, hctx]
          exact ⟨(or_iff_left id).symm, hI.avioBuffer⟩
      | loadStream fillFunc funcData cleanFunc a =>
          exact ⟨iff_of_true hctx (Or.inr ht), iff_of_false hbuf hctx⟩
    refine ⟨hdoes.assigns.assigned hI.assigned, havio.2, ?_, fun hl => ?_, ?_, ?_⟩
    · rw [havio.1, hI.opened, opened_snoc]
    · rw [hdoes.ledger]
      rcases attempt_result ht with ⟨hstop, -, -⟩ | ⟨-, -, -, hloads⟩ | ⟨-, -, hc⟩
      · exact hu.attempt hstop
      · rw [hloads] at hl
        cases hl
      · exact absurd hc hcrash
    · rw [hdoes.ledger]
      exact hI.sound.run _
    · rw [hdoes.ledger, Ledger.complete_run hI.sound, keeps_attempt hI.avioBuffer hu, hI.complete, keeps_snoc]
      exact and_congr_right fun _ => ⟨fun hk _ => hk, fun hk => hk ht⟩
  · rw [attempt_refused ht]
    refine hI.unchanged (fun hn => absurd hn ht) ?_
    cases t with
    | loadFile filename a => exact id
    | loadStream fillFunc funcData cleanFunc a => exact ht

theorem AccountInv.update {h : List (Native × Call)} {d d' : Native} (hI : AccountInv h d)
    (hs : d.call .updateAudioBuffer = some d') : AccountInv (h ++ [(d, .updateAudioBuffer)]) d' := by
  obtain ⟨hloaded, hs⟩ := Option.ite_none_right_eq_some.mp hs
  cases hs
  have hdoes := d.allocDecodingBuffer_does
  have hkeeps : d.ledger.Keeps
      (if d.audioDecodingBuffer.id?.isSome then [] else [.store .audioDecodingBuffer .decodingBuffer]) := by
    split_ifs with hp
    · trivial
    · exact ⟨Option.not_isSome_iff_eq_none.mp hp, trivial⟩
  have hstream : ¬ opensStream d .updateAudioBuffer := fun hn => hn
  have hkept : keepsObjects d .updateAudioBuffer := trivial
  have hsame : d.allocDecodingBuffer.avioBuffer = d.avioBuffer ∧ d.allocDecodingBuffer.avioContext = d.avioContext ∧
      d.allocDecodingBuffer.fileLoaded = true := by
    rw [allocDecodingBuffer]
    split <;> exact ⟨rfl, rfl, hloaded⟩
  obtain ⟨hbuf, hctx, hloaded'⟩ := hsame
  refine ⟨hdoes.assigns.assigned hI.assigned, ?_, ?_, fun hl => ?_, ?_, ?_⟩
  · rw [hbuf, hctx]
    exact hI.avioBuffer
  · rw [hctx, opened_snoc, or_iff_left hstream]
    exact hI.opened
  · rw [hloaded'] at hl
    cases hl
  · rw [hdoes.ledger]
    exact hI.sound.run _
  · rw [hdoes.ledger, Ledger.complete_run hI.sound, and_iff_left hkeeps, keeps_snoc, and_iff_left hkept]
    exact hI.complete

theorem accountInv {h : List (Native × Call)} {d : Native} (hr : lifetime.Run h d) : AccountInv h d := by
  refine System.RunWhen.induction (P := AccountInv) ?_ ?_ hr
  · rintro _ rfl
    exact accountInv_constructed
  · rintro h d c d' - hI - hs
    cases c with
    | load t => exact hI.load hs
    | updateAudioBuffer => exact hI.update hs

/-- **The destructor releases exactly what the decoder acquired** if and only if some call of `loadStream` got past the
tests of its arguments, and no attempt stored over a member that held an object. -/
theorem released_iff {h : List (Native × Call)} {d : Native} (hr : lifetime.Run h d) :
    d.Released ↔ (∃ p ∈ h, opensStream p.1 p.2) ∧ ∀ p ∈ h, keepsObjects p.1 p.2 := by
  have hI := accountInv hr
  have hassigned : d.avioContext ≠ .unassigned ↔ d.avioContext.id? ≠ none := by
    have hnull := hI.assigned.avio
    cases hp : d.avioContext with
    | unassigned => exact iff_of_false (fun h => h rfl) fun h => h rfl
    | null => exact absurd hp hnull
    | object id => exact iff_of_true nofun nofun
  rw [released_iff_complete hI.assigned hI.sound, hassigned, hI.opened, hI.complete]

/-- A stream that loads, and a call that asks for audio. -/
theorem released_stream : ∃ h d, lifetime.Run h d ∧ d.fileLoaded = true ∧ d.Released := by
  have he : ∃ r, lifetime.exec .constructed [.load (.loadStream true (some 0) true .success), .updateAudioBuffer] =
      some r ∧ r.2.fileLoaded = true ∧ (∃ p ∈ r.1, opensStream p.1 p.2) ∧ ∀ p ∈ r.1, keepsObjects p.1 p.2 := by
    refine ⟨_, rfl, rfl, ⟨_, List.mem_cons_self, rfl, rfl⟩, List.forall_mem_cons.mpr ⟨?_, ?_⟩⟩
    · exact fun _ => ⟨⟨rfl, rfl⟩, fun _ => rfl⟩
    · exact List.forall_mem_cons.mpr ⟨trivial, fun p hp => absurd hp List.not_mem_nil⟩
  obtain ⟨⟨h, d⟩, he, hloaded, hok⟩ := he
  have hr := System.run_of_exec rfl he
  exact ⟨h, d, hr, hloaded, (released_iff hr).mpr hok⟩

/-- After a file that loads, the destructor reads `avioContext`, which was never assigned; after a stream that does not
open and one that loads, it never frees the I/O context of the first. -/
theorem not_released :
    (∃ h d, lifetime.Run h d ∧ d.fileLoaded = true ∧ d.destroy = none) ∧
      ∃ h d d', lifetime.Run h d ∧ d.fileLoaded = true ∧ d.destroy = some d' ∧
        d.acquired[7]? = some .avioContext ∧ d'.freed.count 7 = 0 := by
  have hfile : ∃ r, lifetime.exec .constructed [.load (.loadFile "video.mp4" .success)] = some r ∧
      r.2.fileLoaded = true ∧ r.2.destroy = none := ⟨_, rfl, rfl, rfl⟩
  have hstream : ∃ r d', lifetime.exec .constructed
      [.load (.loadStream true (some 0) true { Answers.success with openInput := false }),
        .load (.loadStream true (some 1) true .success)] = some r ∧ r.2.fileLoaded = true ∧
      r.2.destroy = some d' ∧ r.2.acquired[7]? = some .avioContext ∧ d'.freed.count 7 = 0 :=
    ⟨_, _, rfl, rfl, rfl, rfl, rfl⟩
  obtain ⟨⟨h, d⟩, he, hloaded, hnone⟩ := hfile
  obtain ⟨⟨h', d'⟩, e, he', hloaded', hsome, hkind, hcount⟩ := hstream
  exact ⟨⟨h, d, System.run_of_exec rfl he, hloaded, hnone⟩,
    h', d', e, System.run_of_exec rfl he', hloaded', hsome, hkind, hcount⟩

end Native

end ArcVideo
