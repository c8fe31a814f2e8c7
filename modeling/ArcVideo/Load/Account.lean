import ArcVideo.Conc.Ledger
import ArcVideo.Load.Native

/-!
# The objects of a decoder

The members of `VideoDecoder` that own an object, as a `Ledger`.

* `Member`, `Native.ptr` : the members; the I/O context that FFmpeg opened itself counts as one of them;
* `Native.ledger` : the decoder as an account of its objects;
* `Does` : a list of operations on the account leads from one state to another; `attempt_does` : an attempt to load is
  such a list (`attemptOps`);
* `Unloaded` : what a decoder has not acquired before it has loaded; `Unloaded.attempt` : an attempt that an answer
  stops keeps it so.
-/

namespace ArcVideo
open Conc

/-! ## The members -/

/-- The members that own an object. -/
inductive Member
  | swrContext | swsContext | audioCodecContext | videoCodecContext | audioFrame
  /-- The buffer of `rgbFrames[i]`. -/
  | rgbBuffer (i : Fin VIDEOPLAYER_VIDEO_NUM_BUFFERED_FRAMES)
  | rgbFrame (i : Fin VIDEOPLAYER_VIDEO_NUM_BUFFERED_FRAMES)
  | frame
  /-- `formatContext->pb`, unless it is custom. -/
  | ioContext
  | formatContext | audioDecodingBuffer
  /-- `avioContext->buffer` -/
  | avioBuffer
  | avioContext
  deriving DecidableEq

/-- The members in the order in which the destructor frees them. -/
def Member.order : List Member :=
  [.swrContext, .swsContext, .audioCodecContext, .videoCodecContext, .audioFrame] ++
    (List.finRange VIDEOPLAYER_VIDEO_NUM_BUFFERED_FRAMES).flatMap (fun i => [.rgbBuffer i, .rgbFrame i]) ++
    [.frame, .ioContext, .formatContext, .audioDecodingBuffer, .avioBuffer, .avioContext]

theorem Member.mem_order (m : Member) : m ∈ Member.order := by
  cases m <;> simp [Member.order]

theorem Member.order_nodup : Member.order.Nodup := by decide

instance : Fintype Member where
  elems := Member.order.toFinset
  complete m := List.mem_toFinset.mpr m.mem_order

def Ptr.ofOption : Option Nat → Ptr
  | some id => .object id
  | none => .null

@[simp] theorem Ptr.id?_ofOption (o : Option Nat) : (Ptr.ofOption o).id? = o := by
  cases o <;> rfl

theorem Ptr.id?_eq_some {p : Ptr} {id : Nat} : p.id? = some id ↔ p = .object id := by
  cases p <;> simp [Ptr.id?]

namespace Native

def ptr (d : Native) : Member → Ptr
  | .swrContext => d.swrContext
  | .swsContext => d.swsContext
  | .audioCodecContext => d.audioCodecContext
  | .videoCodecContext => d.videoCodecContext
  | .audioFrame => d.audioFrame
  | .rgbBuffer i => d.rgbBuffers i
  | .rgbFrame i => d.rgbFrames i
  | .frame => d.frame
  | .ioContext => if d.formatContext.id?.isSome then .ofOption d.ownContext else .null
  | .formatContext => d.formatContext
  | .audioDecodingBuffer => d.audioDecodingBuffer
  | .avioBuffer => d.avioBuffer
  | .avioContext => d.avioContext

/-! ## The account -/

abbrev Account := Ledger Member ObjectKind

abbrev AccountOp := LedgerOp Member ObjectKind

/-- The decoder as an account of its objects. -/
def ledger (d : Native) : Account := ⟨fun m => (d.ptr m).id?, d.acquired, d.freed⟩

/-- The constructor assigns every member but `avioContext`, to which nothing but an object is ever assigned. -/
structure Assigned (d : Native) : Prop where
  others : ∀ m, d.ptr m = .unassigned → m = .avioContext
  avio : d.avioContext ≠ .null

/-! ### The operations of an attempt -/

def allocOps (d : Native) (filename : String) (a : Answers) : List AccountOp :=
  match d.formatContext with
  | .object _ => [.forget .ioContext]
  | _ => .store .formatContext .formatContext :: if a.openFile then [.store .ioContext (.ioContext filename)] else []

/-- `avformat_open_input` in `loadFile`. -/
def openOps (d : Native) (filename : String) (a : Answers) : List AccountOp :=
  d.allocOps filename a ++ if a.openInput then [] else [.free .ioContext, .free .formatContext]

/-- The objects of `loadStream`, and `avformat_open_input` on its format context. -/
def streamOps (a : Answers) : List AccountOp :=
  [.store .avioBuffer .avioBuffer, .store .avioContext .avioContext, .forget .ioContext,
    .store .formatContext .formatContext] ++ if a.openInput then [] else [.free .formatContext]

/-- `loadAudio`, where there is no resampler yet; `opened` is what the container is read from. -/
def audioOps (opened : List Source) (a : Answers) : List AccountOp :=
  if a.audioStreamIndex < 0 then []
  else .store .audioCodecContext (.codecContext opened a.audioStreamIndex) ::
    if !a.openAudio then [] else if !a.allocSwr then [] else [.store .swrContext (.swrContext a.initSwr)]

def bufferOp (a : Answers) (i : Fin VIDEOPLAYER_VIDEO_NUM_BUFFERED_FRAMES) : AccountOp :=
  if a.getBuffer i then .store (.rgbBuffer i) .frameBuffer else .forget (.rgbBuffer i)

def videoOps (a : Answers) : List AccountOp :=
  (if a.getSws then .store .swsContext .swsContext else .forget .swsContext) ::
    (List.finRange VIDEOPLAYER_VIDEO_NUM_BUFFERED_FRAMES).map (bufferOp a)

def containerOps (opened : List Source) (a : Answers) : List AccountOp :=
  if !a.findStreamInfo then []
  else if a.videoStreamIndex < 0 then []
  else .store .videoCodecContext (.codecContext opened a.videoStreamIndex) ::
    if !a.openVideo then []
    else audioOps opened a ++
      if decide (a.audioStreamIndex < 0) || (a.openAudio && a.allocSwr) then videoOps a else []

/-- A member keeps its pointer, or is assigned an object or, other than `avioContext`, NULL. -/
def Assigns (d d' : Native) : Prop := ∀ m, d'.ptr m = d.ptr m ∨ (∃ id, d'.ptr m = .object id) ∨
  (d'.ptr m = .null ∧ m ≠ .avioContext)

theorem Assigns.assigned {d d' : Native} (h : Assigns d d') (ha : d.Assigned) : d'.Assigned := by
  constructor
  · intro m hm
    rcases h m with he | ⟨id, he⟩ | ⟨he, -⟩
    · exact ha.others m (he ▸ hm)
    · rw [he] at hm
      cases hm
    · rw [he] at hm
      cases hm
  · intro hnull
    change d'.ptr .avioContext = .null at hnull
    rcases h .avioContext with he | ⟨id, he⟩ | ⟨-, hne⟩
    · exact ha.avio (he.symm.trans hnull)
    · rw [he] at hnull
      cases hnull
    · exact hne rfl

structure Does (d : Native) (ops : List AccountOp) (d' : Native) : Prop where
  ledger : d'.ledger = d.ledger.run ops
  assigns : Assigns d d'

theorem Does.trans {d d' d'' : Native} {ops ops' : List AccountOp} (h : Does d ops d') (h' : Does d' ops' d'') :
    Does d (ops ++ ops') d'' := by
  refine ⟨by rw [h'.ledger, h.ledger, Ledger.run_append], fun m => ?_⟩
  rcases h'.assigns m with he | hset
  · rw [he]
    exact h.assigns m
  · exact Or.inr hset

theorem Does.same {d d' : Native} (hp : ∀ m, d'.ptr m = d.ptr m) (ha : d'.acquired = d.acquired)
    (hf : d'.freed = d.freed) : Does d [] d' :=
  ⟨Ledger.ext (fun m => congrArg Ptr.id? (hp m)) ha hf, fun m => Or.inl (hp m)⟩

theorem Does.then_same {d d' d'' : Native} {ops : List AccountOp} (h : Does d ops d')
    (hp : ∀ m, d''.ptr m = d'.ptr m) (ha : d''.acquired = d'.acquired) (hf : d''.freed = d'.freed) :
    Does d ops d'' := by
  have hboth := h.trans (.same hp ha hf)
  rwa [List.append_nil] at hboth

theorem Does.refl (d : Native) : Does d [] d := .same (fun _ => rfl) rfl rfl

theorem Does.store {d d' : Native} (n : Member) {k : ObjectKind} (hn : d'.ptr n = d.next)
    (hp : ∀ m, m ≠ n → d'.ptr m = d.ptr m) (ha : d'.acquired = d.acquired ++ [k]) (hf : d'.freed = d.freed) :
    Does d [.store n k] d' := by
  refine ⟨Ledger.ext (fun m => ?_) ha hf, fun m => ?_⟩
  · by_cases hm : m = n
    · rw [hm]
      exact (congrArg Ptr.id? hn).trans (Function.update_self n (some d.acquired.length) d.ledger.slot).symm
    · exact (congrArg Ptr.id? (hp m hm)).trans (d.ledger.slot_apply_of_ne (o := .store n k) hm).symm
  · by_cases hm : m = n
    · rw [hm]
      exact Or.inr (Or.inl ⟨_, hn⟩)
    · exact Or.inl (hp m hm)

theorem Does.forget {d d' : Native} (n : Member) (hn : d'.ptr n = .null) (hne : n ≠ .avioContext)
    (hp : ∀ m, m ≠ n → d'.ptr m = d.ptr m) (ha : d'.acquired = d.acquired) (hf : d'.freed = d.freed) :
    Does d [.forget n] d' := by
  refine ⟨Ledger.ext (fun m => ?_) ha hf, fun m => ?_⟩
  · by_cases hm : m = n
    · rw [hm]
      exact (congrArg Ptr.id? hn).trans (Function.update_self n none d.ledger.slot).symm
    · exact (congrArg Ptr.id? (hp m hm)).trans (d.ledger.slot_apply_of_ne (o := .forget n) hm).symm
  · by_cases hm : m = n
    · rw [hm]
      exact Or.inr (Or.inr ⟨hn, hne⟩)
    · exact Or.inl (hp m hm)

/-! ### Opening the input -/

theorem allocOps_new {d : Native} (h : d.formatContext.id? = none) (filename : String) (a : Answers) :
    d.allocOps filename a =
      .store .formatContext .formatContext :: if a.openFile then [.store .ioContext (.ioContext filename)] else [] := by
  rw [allocOps]
  split
  · next hp => rw [hp] at h; cases h
  · rfl

theorem ptr_ioContext {d : Native} (h : d.formatContext.id? = none) : d.ptr .ioContext = .null := by
  rw [ptr, h]
  rfl

theorem reopenInput_does (d : Native) (filename : String) : Does d [.forget .ioContext] (d.reopenInput filename) := by
  have hown : (d.reopenInput filename).ownContext = none := by
    rw [ownContext, reopenInput]
    cases d.format.custom <;> cases hp : d.format.pb <;> simp [Ptr.id?]
  refine .forget .ioContext ?_ (by decide) (fun m hm => ?_) rfl rfl
  · rw [ptr, hown]
    split_ifs <;> rfl
  · cases m with
    | ioContext => exact absurd rfl hm
    | _ => rfl

theorem newInput_does {d : Native} (h : d.formatContext.id? = none) (filename : String) (a : Answers) :
    Does d (.store .formatContext .formatContext ::
      if a.openFile then [.store .ioContext (.ioContext filename)] else []) (d.newInput filename a) := by
  have hctx : Does d [.store .formatContext .formatContext]
      { d.acquire .formatContext with formatContext := d.next, format := ⟨.null, false, [.file filename]⟩ } := by
    refine .store .formatContext rfl (fun m hm => ?_) rfl rfl
    cases m with
    | formatContext => exact absurd rfl hm
    | ioContext => exact (ptr_ioContext h).symm
    | _ => rfl
  rw [newInput]
  split_ifs
  · refine hctx.trans (.store .ioContext rfl (fun m hm => ?_) rfl rfl)
    cases m with
    | ioContext => exact absurd rfl hm
    | _ => rfl
  · exact hctx

theorem closeInput_does {d : Native} (h : d.formatContext.id?.isSome) :
    Does d [.free .ioContext, .free .formatContext] d.closeInput := by
  obtain ⟨id, hid⟩ := Option.isSome_iff_exists.mp h
  have hobj := Ptr.id?_eq_some.mp hid
  have hio : (d.ptr .ioContext).id? = d.ownContext := by rw [ptr, if_pos h, Ptr.id?_ofOption]
  rw [closeInput, hobj]
  refine ⟨Ledger.ext (fun m => ?_) rfl ?_, fun m => ?_⟩
  · cases m <;> rfl
  · change d.freed ++ (d.ownContext.toList ++ [id]) =
      d.freed ++ (d.ptr .ioContext).id?.toList ++ (d.ptr .formatContext).id?.toList
    rw [hio, List.append_assoc]
    exact congrArg (fun o => d.freed ++ (d.ownContext.toList ++ o.toList)) hid.symm
  · cases m with
    | ioContext => exact Or.inr (Or.inr ⟨rfl, by decide⟩)
    | formatContext => exact Or.inr (Or.inr ⟨rfl, by decide⟩)
    | _ => exact Or.inl rfl

theorem allocInput_does (d : Native) (filename : String) (a : Answers) :
    Does d (d.allocOps filename a) (d.allocInput filename a) ∧ (d.allocInput filename a).formatContext.id?.isSome := by
  rw [allocInput, allocOps]
  cases hf : d.formatContext with
  | object id => exact ⟨d.reopenInput_does filename, by rw [reopenInput, hf]; rfl⟩
  | null =>
      refine ⟨newInput_does (by rw [hf]; rfl) filename a, ?_⟩
      rw [newInput]
      split_ifs <;> rfl
  | unassigned =>
      refine ⟨newInput_does (by rw [hf]; rfl) filename a, ?_⟩
      rw [newInput]
      split_ifs <;> rfl

theorem openInput_does (d : Native) (filename : String) (a : Answers) :
    Does d (d.openOps filename a) (d.openInput filename a) := by
  obtain ⟨halloc, hsome⟩ := d.allocInput_does filename a
  rw [openInput, openOps]
  split_ifs
  · rwa [List.append_nil]
  · exact halloc.trans (closeInput_does hsome)

/-- The format context of `loadStream` is opened on its own I/O context, so only the former is freed where this
fails. -/
theorem openStream_does (d : Native) (fillFunc : Bool) (funcData : Option Nat) (cleanFunc : Bool) (a : Answers) :
    Does d (streamOps a) ((d.allocStream fillFunc funcData cleanFunc).openInput "<stream>" a) := by
  have halloc : Does d [.store .avioBuffer .avioBuffer, .store .avioContext .avioContext, .forget .ioContext,
      .store .formatContext .formatContext] ((d.allocStream fillFunc funcData cleanFunc).reopenInput "<stream>") := by
    refine ⟨Ledger.ext (fun m => ?_) rfl rfl, fun m => ?_⟩
    · cases m <;> rfl
    · cases m with
      | avioBuffer => exact Or.inr (Or.inl ⟨_, rfl⟩)
      | avioContext => exact Or.inr (Or.inl ⟨_, rfl⟩)
      | ioContext => exact Or.inr (Or.inr ⟨rfl, by decide⟩)
      | formatContext => exact Or.inr (Or.inl ⟨_, rfl⟩)
      | _ => exact Or.inl rfl
  rw [openInput, streamOps]
  split_ifs
  · rwa [List.append_nil]
  · refine halloc.trans ⟨Ledger.ext (fun m => ?_) rfl rfl, fun m => ?_⟩
    · cases m <;> rfl
    · cases m with
      | ioContext => exact Or.inr (Or.inr ⟨rfl, by decide⟩)
      | formatContext => exact Or.inr (Or.inr ⟨rfl, by decide⟩)
      | _ => exact Or.inl rfl

/-! ### `loadContainer` -/

theorem allocSwr_does {d : Native} (h : d.ledger.slot .swrContext = none) (a : Answers) :
    Does d [.store .swrContext (.swrContext a.initSwr)] (d.allocSwr a) := by
  change d.swrContext.id? = none at h
  rw [allocSwr]
  split
  · next hp => rw [hp] at h; cases h
  · refine .store .swrContext rfl (fun m hm => ?_) rfl rfl
    cases m with
    | swrContext => exact absurd rfl hm
    | _ => rfl

theorem loadAudio_does {d : Native} (h : d.ledger.slot .swrContext = none) (a : Answers) :
    Does d (audioOps d.format.opened a) (d.loadAudio a).2 := by
  have hctx : Does d [.store .audioCodecContext (.codecContext d.format.opened a.audioStreamIndex)]
      (d.allocAudioContext a) := by
    refine .store .audioCodecContext rfl (fun m hm => ?_) rfl rfl
    cases m with
    | audioCodecContext => exact absurd rfl hm
    | _ => rfl
  rw [loadAudio, audioOps]
  split_ifs
  · exact .refl d
  · exact hctx
  · exact hctx
  · exact hctx.trans (allocSwr_does (d := d.allocAudioContext a) h a)

theorem getBuffer_does (a : Answers) (d : Native) (i : Fin VIDEOPLAYER_VIDEO_NUM_BUFFERED_FRAMES) :
    Does d [bufferOp a i] (getBuffer a d i) := by
  have hrest : ∀ (p : Ptr) (m : Member), m ≠ .rgbBuffer i →
      ({ d with rgbBuffers := Function.update d.rgbBuffers i p } : Native).ptr m = d.ptr m := by
    intro p m hm
    cases m with
    | rgbBuffer j => exact Function.update_of_ne (fun he => hm (congrArg Member.rgbBuffer he)) _ _
    | _ => rfl
  rw [getBuffer, bufferOp]
  split_ifs
  · exact .store (.rgbBuffer i) (Function.update_self ..) (hrest _) rfl rfl
  · exact .forget (.rgbBuffer i) (Function.update_self ..) (by simp) (hrest _) rfl rfl

theorem getBuffers_does (a : Answers) (is : List (Fin VIDEOPLAYER_VIDEO_NUM_BUFFERED_FRAMES)) (d : Native) :
    Does d (is.map (bufferOp a)) (is.foldl (getBuffer a) d) := by
  induction is generalizing d with
  | nil => exact .refl d
  | cons i is ih => exact (getBuffer_does a d i).trans (ih _)

theorem loadVideo_does (d : Native) (a : Answers) : Does d (videoOps a) (d.loadVideo a).2 := by
  have hsws : Does d [if a.getSws then .store .swsContext .swsContext else .forget .swsContext] (d.getSws a) := by
    have hrest : ∀ (p : Ptr) (m : Member), m ≠ .swsContext → ({ d with swsContext := p } : Native).ptr m = d.ptr m := by
      intro p m hm
      cases m with
      | swsContext => exact absurd rfl hm
      | _ => rfl
    rw [getSws]
    split_ifs
    · exact .store .swsContext rfl (hrest _) rfl rfl
    · exact .forget .swsContext rfl (by decide) (hrest _) rfl rfl
  have hall := hsws.trans (getBuffers_does a (List.finRange VIDEOPLAYER_VIDEO_NUM_BUFFERED_FRAMES) (d.getSws a))
  rw [videoOps, loadVideo]
  cases a.getBuffer 0 with
  | false => exact hall
  | true => exact hall.then_same (fun m => by cases m <;> rfl) rfl rfl

theorem prepared_does (d : Native) (a : Answers) :
    Does d [.store .videoCodecContext (.codecContext d.format.opened a.videoStreamIndex)] (d.prepared a) := by
  refine .store .videoCodecContext rfl (fun m hm => ?_) rfl rfl
  cases m with
  | videoCodecContext => exact absurd rfl hm
  | _ => rfl

theorem containerOps_opened {a : Answers} (hf : a.findStreamInfo = true) (hv : 0 ≤ a.videoStreamIndex)
    (ho : a.openVideo = true) (opened : List Source) : containerOps opened a =
      .store .videoCodecContext (.codecContext opened a.videoStreamIndex) :: (audioOps opened a ++
        if decide (a.audioStreamIndex < 0) || (a.openAudio && a.allocSwr) then videoOps a else []) := by
  rw [containerOps, if_neg (by simp [hf]), if_neg (by omega), if_neg (by simp [ho])]

theorem loadContainer_does {d : Native} (h : d.ledger.slot .swrContext = none) (a : Answers) :
    Does d (containerOps d.format.opened a) (d.loadContainer a).2 := by
  have hprep := d.prepared_does a
  have haudio := loadAudio_does (d := d.prepared a) (by rw [hprep.ledger]; exact h) a
  have hiff := loadAudio_ok (d.prepared a) a
  have hmove := d.loadContainer_move a
  generalize (d.loadContainer a).1 = r, (d.loadContainer a).2 = d' at hmove ⊢
  cases hmove with
  | noInfo hf =>
      rw [containerOps, if_pos (by simp [hf])]
      exact .same (fun m => by cases m <;> rfl) rfl rfl
  | noVideo hf hv =>
      rw [containerOps, if_neg (by simp [hf]), if_pos hv]
      exact .same (fun m => by cases m <;> rfl) rfl rfl
  | notOpened hf hv ho =>
      rw [containerOps, if_neg (by simp [hf]), if_neg (by omega), if_pos (by simp [ho])]
      exact hprep
  | stopped hf hv ho hr =>
      rw [hr] at haudio hiff
      have hstop : ¬ (decide (a.audioStreamIndex < 0) || (a.openAudio && a.allocSwr)) = true := fun hok => by
        cases hiff.mpr hok
      rw [containerOps_opened hf hv ho, if_neg hstop, List.append_nil]
      exact hprep.trans haudio
  | @video d' hf hv ho hr =>
      rw [hr] at haudio hiff
      rw [containerOps_opened hf hv ho, if_pos (hiff.mp rfl)]
      exact hprep.trans (haudio.trans (loadVideo_does d' a))

/-! ## The attempts -/

/-- The part of an attempt before `loadContainer`. -/
def entryOps (d : Native) : Attempt → List AccountOp
  | .loadFile filename a => d.openOps filename a
  | .loadStream _ _ _ a => streamOps a

def attemptOps (d : Native) (t : Attempt) : List AccountOp :=
  d.entryOps t ++ if t.answers.openInput then containerOps (d.entered t).format.opened t.answers else []

theorem target_openOps {d : Native} {filename : String} {a : Answers} {o : AccountOp}
    (h : o ∈ d.openOps filename a) :
    o.target ∈ [Member.ioContext, .formatContext] := by
  revert o
  rw [openOps, allocOps]
  cases d.formatContext <;> cases a.openFile <;> cases a.openInput <;> simp [LedgerOp.target]

theorem target_entryOps {d : Native} {t : Attempt} {o : AccountOp} (h : o ∈ d.entryOps t) :
    o.target ∈ [Member.avioBuffer, .avioContext, .ioContext, .formatContext] := by
  cases t with
  | loadFile filename a => exact List.mem_cons_of_mem _ (List.mem_cons_of_mem _ (target_openOps h))
  | loadStream fillFunc funcData cleanFunc a =>
      revert o
      rw [entryOps, streamOps]
      cases a.openInput <;> simp [LedgerOp.target]

theorem slot_entryOps {d : Native} {t : Attempt} {m : Member}
    (h : m ∉ [Member.avioBuffer, .avioContext, .ioContext, .formatContext]) :
    (d.ledger.run (d.entryOps t)).slot m = d.ledger.slot m := by
  refine Ledger.slot_run_of_notMem (fun hm => ?_) _
  obtain ⟨o, ho, rfl⟩ := List.mem_map.mp hm
  exact h (target_entryOps ho)

theorem entered_does (d : Native) (t : Attempt) : Does d (d.entryOps t) (d.entered t) := by
  cases t with
  | loadFile filename a => exact d.openInput_does filename a
  | loadStream fillFunc funcData cleanFunc a => exact d.openStream_does fillFunc funcData cleanFunc a

/-- **An attempt is a list of operations on the account**. -/
theorem attempt_does {d : Native} (h : d.ledger.slot .swrContext = none) {t : Attempt} (ht : d.tries t) :
    Does d (d.attemptOps t) (d.attempt t).2 := by
  rw [attempt_tries ht, attemptOps]
  refine (entered_does d t).trans ?_
  split_ifs
  · refine loadContainer_does ?_ _
    rw [(entered_does d t).ledger, slot_entryOps (by decide), h]
  · exact .refl _

theorem allocDecodingBuffer_does (d : Native) :
    Does d (if d.audioDecodingBuffer.id?.isSome then [] else [.store .audioDecodingBuffer .decodingBuffer])
      d.allocDecodingBuffer := by
  have hnew : Does d [.store .audioDecodingBuffer .decodingBuffer]
      { d.acquire .decodingBuffer with audioDecodingBuffer := d.next } := by
    refine .store .audioDecodingBuffer rfl (fun m hm => ?_) rfl rfl
    cases m with
    | audioDecodingBuffer => exact absurd rfl hm
    | _ => rfl
  rw [allocDecodingBuffer]
  cases d.audioDecodingBuffer with
  | object id => exact .refl d
  | null => exact hnew
  | unassigned => exact hnew

/-! ## What an attempt leaves -/

/-- The members that a decoder without a loaded file has not set yet. -/
structure Unloaded (l : Account) : Prop where
  swr : l.slot .swrContext = none
  sws : l.slot .swsContext = none
  rgb : ∀ i, l.slot (.rgbBuffer i) = none
  audio : l.slot .videoCodecContext = none → l.slot .audioCodecContext = none

theorem Unloaded.entry {d : Native} (h : Unloaded d.ledger) (t : Attempt) :
    Unloaded (d.ledger.run (d.entryOps t)) := by
  refine ⟨?_, ?_, fun i => ?_, ?_⟩
  · rw [slot_entryOps (by decide)]
    exact h.swr
  · rw [slot_entryOps (by decide)]
    exact h.sws
  · rw [slot_entryOps (by simp)]
    exact h.rgb i
  · rw [slot_entryOps (by decide), slot_entryOps (by decide)]
    exact h.audio

theorem targets_videoOps (a : Answers) : (videoOps a).map LedgerOp.target =
    .swsContext :: (List.finRange VIDEOPLAYER_VIDEO_NUM_BUFFERED_FRAMES).map .rgbBuffer := by
  have hbuf : ∀ i, (bufferOp a i).target = .rgbBuffer i := by
    intro i
    rw [bufferOp]
    split_ifs <;> rfl
  rw [videoOps, List.map_cons, List.map_map]
  congr 1
  · split_ifs <;> rfl
  · exact List.map_congr_left fun i _ => hbuf i

theorem targets_containerOps (opened : List Source) (a : Answers) :
    ((containerOps opened a).map LedgerOp.target).Sublist
      ([.videoCodecContext, .audioCodecContext, .swrContext, .swsContext] ++
        (List.finRange VIDEOPLAYER_VIDEO_NUM_BUFFERED_FRAMES).map .rgbBuffer) := by
  have haudio : ((audioOps opened a).map LedgerOp.target).Sublist [.audioCodecContext, .swrContext] := by
    rw [audioOps]
    split_ifs
    · exact List.nil_sublist _
    · exact (List.nil_sublist _).cons_cons _
    · exact (List.nil_sublist _).cons_cons _
    · exact List.Sublist.refl _
  rw [containerOps]
  split_ifs
  · exact List.nil_sublist _
  · exact List.nil_sublist _
  · exact (List.nil_sublist _).cons_cons _
  · rw [List.map_cons, List.map_append, targets_videoOps]
    exact (haudio.append (List.Sublist.refl _)).cons_cons _
  · rw [List.map_cons, List.map_append]
    exact (haudio.append (List.nil_sublist _)).cons_cons _

/-- An attempt that an answer stops has allocated the codec contexts at most, the one for the video stream first. -/
theorem containerOps_stopped (opened : List Source) {a : Answers} (h : a.tested = false) :
    containerOps opened a = [] ∨
      containerOps opened a = [.store .videoCodecContext (.codecContext opened a.videoStreamIndex)] ∨
      containerOps opened a = [.store .videoCodecContext (.codecContext opened a.videoStreamIndex),
        .store .audioCodecContext (.codecContext opened a.audioStreamIndex)] := by
  rw [containerOps]
  split_ifs with hf hv ho hok
  · exact Or.inl rfl
  · exact Or.inl rfl
  · exact Or.inr (Or.inl rfl)
  · have : a.tested = true := by simp_all [Answers.tested]
    rw [h] at this
    cases this
  · rw [audioOps]
    split_ifs with hs hb hw
    · simp_all
    · exact Or.inr (Or.inr rfl)
    · simp_all [Answers.tested]
    · simp_all

theorem Unloaded.attempt {d : Native} {t : Attempt} (h : Unloaded d.ledger)
    (ht : (t.answers.openInput && t.answers.tested) = false) : Unloaded (d.ledger.run (d.attemptOps t)) := by
  have hentry := h.entry t
  rw [attemptOps, Ledger.run_append]
  cases ho : t.answers.openInput with
  | false => exact hentry
  | true =>
      rw [ho, Bool.true_and] at ht
      rw [if_pos rfl]
      rcases containerOps_stopped (d.entered t).format.opened ht with hops | hops | hops <;> rw [hops]
      · exact hentry
      · exact ⟨hentry.swr, hentry.sws, hentry.rgb, nofun⟩
      · exact ⟨hentry.swr, hentry.sws, hentry.rgb, nofun⟩

theorem slot_avio (d : Native) (t : Attempt) {m : Member} (hm : m = .avioBuffer ∨ m = .avioContext) :
    match t with
    | .loadFile _ _ => (d.ledger.run (d.attemptOps t)).slot m = d.ledger.slot m
    | .loadStream _ _ _ _ => (d.ledger.run (d.attemptOps t)).slot m ≠ none := by
  have hcontainer : ∀ (l : Account) (opened : List Source) (a : Answers),
      (l.run (if a.openInput then containerOps opened a else [])).slot m = l.slot m := by
    intro l opened a
    refine Ledger.slot_run_of_notMem (fun hmem => ?_) l
    split_ifs at hmem
    · have := (targets_containerOps opened a).subset hmem
      rcases hm with rfl | rfl <;> simp at this
    · cases hmem
  cases t with
  | loadFile filename a =>
      dsimp only
      rw [attemptOps, Ledger.run_append]
      refine (hcontainer _ _ a).trans (Ledger.slot_run_of_notMem (fun hmem => ?_) _)
      obtain ⟨o, ho, rfl⟩ := List.mem_map.mp hmem
      have := target_openOps ho
      rcases hm with hm | hm <;> rw [hm] at this <;> simp at this
  | loadStream fillFunc funcData cleanFunc a =>
      dsimp only
      rw [attemptOps, Ledger.run_append]
      rw [Attempt.answers, hcontainer, entryOps, streamOps]
      rcases hm with rfl | rfl <;> cases a.openInput <;> exact Option.some_ne_none _

/-! ## The constructor -/

def constructOps : List AccountOp :=
  .store .frame .frame ::
    (List.finRange VIDEOPLAYER_VIDEO_NUM_BUFFERED_FRAMES).map (fun i => .store (.rgbFrame i) .frame) ++
    [.store .audioFrame .frame]

theorem constructed_ledger : constructed.ledger = Ledger.empty.run constructOps := by
  refine Ledger.ext (fun m => ?_) rfl rfl
  cases m with
  | rgbFrame i =>
      revert i
      decide
  | _ => rfl

theorem assigned_constructed : constructed.Assigned := by
  refine ⟨fun m hm => ?_, nofun⟩
  cases m with
  | avioContext => rfl
  | _ => cases hm

theorem unloaded_constructed : Unloaded constructed.ledger := ⟨rfl, rfl, fun _ => rfl, fun _ => rfl⟩

end Native

end ArcVideo
