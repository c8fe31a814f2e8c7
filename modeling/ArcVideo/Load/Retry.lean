import ArcVideo.Load.Release

/-!
# Loading again after a failed attempt

An attempt to load on a decoder whose earlier attempts have thrown, beside the same attempt on a new decoder.

* `Native.contents` : the members, with what their pointers lead to in place of the pointers;
* `Native.Plays` : the runs of the decoding thread and its callers on what the decoder has opened;
* `Traceless` : an attempt that returns leaves what it leaves in a new decoder;
* `Honest` : an attempt returns only where all it asked for was granted, and throws otherwise;
* `leaves_no_trace_iff` : both hold exactly when the answers that are not tested are as wanted, and nothing is left that
  the attempt does not set.
-/

namespace ArcVideo
open Conc

namespace Native

/-! ## The state of a decoder -/

/-- The members that are no pointers, and what is in the format context. -/
structure Settings where
  fileLoaded : Bool
  fillBufferFunc : Bool
  customFuncData : Option Nat
  cleanupFunc : Bool
  custom : Bool
  opened : List Source
  currentFrameDisplayed : Nat
  totalFramesBuffered : Nat
  videoStreamIndex : Option Int
  audioStreamIndex : Option Int
  videoFrameSize : Option Nat
  started : Bool

def settings (d : Native) : Settings where
  fileLoaded := d.fileLoaded
  fillBufferFunc := d.fillBufferFunc
  customFuncData := d.customFuncData
  cleanupFunc := d.cleanupFunc
  custom := d.format.custom
  opened := d.format.opened
  currentFrameDisplayed := d.currentFrameDisplayed
  totalFramesBuffered := d.totalFramesBuffered
  videoStreamIndex := d.videoStreamIndex
  audioStreamIndex := d.audioStreamIndex
  videoFrameSize := d.videoFrameSize
  started := d.started

structure Contents where
  settings : Settings
  held : Member → Option ObjectKind

/-- The decoder, whichever objects its pointers name. -/
def contents (d : Native) : Contents := ⟨d.settings, d.ledger.held⟩

/-- The steps `h` are a run of the decoder that has loaded; `demux` says which streams and packets are in what a format
context was opened on. Without its thread nothing is decoded. -/
def Plays {φ π : Type} (d : Native) (demux : List Source → List AVMediaType × List (Demuxed π))
    (h : List (State φ π × Action φ)) : Prop :=
  ∃ (c : Container) (s : State φ π), c.streams = (demux d.format.opened).1 ∧
    d.videoStreamIndex = some c.videoStreamIndex ∧ d.audioStreamIndex = some c.audioStreamIndex ∧
    c.isStream = d.fillBufferFunc ∧ (d.started = false → ∀ p ∈ h, p.2.1 ≠ .run) ∧
    (decoder φ c (demux d.format.opened).2).Run h s

theorem plays_congr {φ π : Type} {d e : Native} (h : d.contents = e.contents)
    (demux : List Source → List AVMediaType × List (Demuxed π)) (r : List (State φ π × Action φ)) :
    d.Plays demux r ↔ e.Plays demux r := by
  have hs : d.settings = e.settings := congrArg Contents.settings h
  have hopened : d.format.opened = e.format.opened := congrArg Settings.opened hs
  have hvideo : d.videoStreamIndex = e.videoStreamIndex := congrArg Settings.videoStreamIndex hs
  have haudio : d.audioStreamIndex = e.audioStreamIndex := congrArg Settings.audioStreamIndex hs
  have hfill : d.fillBufferFunc = e.fillBufferFunc := congrArg Settings.fillBufferFunc hs
  have hstarted : d.started = e.started := congrArg Settings.started hs
  rw [Plays, Plays, hopened, hvideo, haudio, hfill, hstarted]

/-! ## The two laws -/

end Native

/-- The set-up answers that no test looks at: the resampler, the scaler, the buffers of the ring, the thread. -/
def Answers.untested (a : Answers) : Bool :=
  (decide (a.audioStreamIndex < 0) || (a.allocSwr && a.initSwr)) && a.getSws &&
    (List.range VIDEOPLAYER_VIDEO_NUM_BUFFERED_FRAMES).all a.getBuffer && a.threadCreated

/-- Every set-up call succeeds, the creation of the thread included. -/
def Answers.setUp (a : Answers) : Bool := a.openInput && a.tested && a.untested

theorem Answers.loads_of_untested {a : Answers} (ht : a.tested = true) (hu : a.untested = true) : a.loads = true := by
  have hbuf : a.getBuffer 0 = true := by
    rw [Answers.untested, Bool.and_eq_true, Bool.and_eq_true, List.all_eq_true] at hu
    exact hu.1.2 0 (by decide)
  simp only [Answers.tested, Answers.untested, Bool.and_eq_true, Bool.or_eq_true] at ht hu
  simp only [Answers.loads, Bool.and_eq_true, Bool.or_eq_true]
  exact ⟨⟨ht.1, hu.1.1.1.elim Or.inl fun hswr => ht.2.imp id fun haudio => ⟨haudio, hswr.1⟩⟩, hbuf⟩

namespace Native

/-- Every set-up call that the attempt makes succeeds; one that is stopped by the tests of its arguments makes none. -/
def Granted (d : Native) (t : Attempt) : Prop := d.tries t → t.answers.setUp = true

/-- **An attempt returns with a file loaded only if every set-up call it made succeeded** and the decoding thread runs;
otherwise it throws, and no file is loaded. -/
structure Honest (d : Native) (t : Attempt) : Prop where
  returns : ∀ b, (d.attempt t).1 = .returned b → (d.attempt t).2.fileLoaded = true →
    d.Granted t ∧ (d.attempt t).2.started = true
  throws : ¬ d.Granted t → (∃ e, (d.attempt t).1 = .thrown e) ∧ (d.attempt t).2.fileLoaded = false

/-- **An attempt that returns leaves a decoder as it leaves a new one**, which then plays the same. -/
def Traceless (d : Native) (t : Attempt) : Prop :=
  ∀ b, (d.attempt t).1 = .returned b → (∃ b', (constructed.attempt t).1 = .returned b') ∧
    (d.attempt t).2.contents = (constructed.attempt t).2.contents ∧
    ∀ (φ π : Type) (demux : List Source → List AVMediaType × List (Demuxed π)) (h : List (State φ π × Action φ)),
      (d.attempt t).2.Plays demux h ↔ (constructed.attempt t).2.Plays demux h

def throws (d : Native) : Call → Prop
  | .load t => ∃ e, (d.attempt t).1 = .thrown e
  | .updateAudioBuffer => False

/-- `loadFile` finds no format context and no callbacks; `loadStream` sets its own. -/
def entersClean (d : Native) : Attempt → Prop
  | .loadFile _ _ => d.formatContext.id? = none ∧ d.fillBufferFunc = false
  | .loadStream _ _ _ _ => True

/-- Nothing is left in a member that the attempt does not set. -/
def nothingLeft (d : Native) (t : Attempt) : Prop :=
  d.entersClean t ∧ (t.answers.audioStreamIndex < 0 → d.audioCodecContext.id? = none)

/-- When an attempt is as wanted: a loaded file has its thread, and an attempt whose tested answers succeed has the
others succeed, too, and finds nothing left. -/
structure Clean (d : Native) (t : Attempt) : Prop where
  started : d.fileLoaded = true → d.started = true
  granted : d.tries t → (t.answers.openInput && t.answers.tested) = true →
    t.answers.untested = true ∧ d.nothingLeft t

/-! ## What an attempt that loads leaves -/

theorem loadAudio_settings (d : Native) (a : Answers) : (d.loadAudio a).2.settings = d.settings := by
  have hswr : (allocSwr (d.allocAudioContext a) a).settings = d.settings := by
    rw [allocSwr]
    split <;> rfl
  rw [loadAudio]
  split_ifs
  · rfl
  · rfl
  · rfl
  · exact hswr

theorem getBuffers_settings (a : Answers) (is : List (Fin VIDEOPLAYER_VIDEO_NUM_BUFFERED_FRAMES)) (d : Native) :
    (is.foldl (getBuffer a) d).settings = d.settings := by
  induction is generalizing d with
  | nil => rfl
  | cons i is ih =>
      rw [List.foldl_cons, ih, getBuffer]
      split_ifs <;> rfl

theorem getSws_settings (d : Native) (a : Answers) : (d.getSws a).settings = d.settings := by
  rw [getSws]
  split_ifs <;> rfl

theorem loadVideo_settings {a : Answers} (h : a.getBuffer 0 = true) (d : Native) : (d.loadVideo a).2.settings =
    { d.settings with videoFrameSize := some a.bufferSize, fileLoaded := true, started := a.threadCreated } := by
  have hbuf := getBuffers_settings a (List.finRange VIDEOPLAYER_VIDEO_NUM_BUFFERED_FRAMES) (d.getSws a)
  rw [getSws_settings] at hbuf
  rw [loadVideo, ← hbuf, h]
  rfl

def Settings.loaded (s : Settings) (a : Answers) : Settings :=
  { s with
    fileLoaded := true
    currentFrameDisplayed := 0
    totalFramesBuffered := 0
    videoStreamIndex := some a.videoStreamIndex
    audioStreamIndex := some a.audioStreamIndex
    videoFrameSize := some a.bufferSize
    started := a.threadCreated }

theorem prepared_settings (d : Native) (a : Answers) : (d.prepared a).settings = { d.settings with
    currentFrameDisplayed := 0
    totalFramesBuffered := 0
    videoStreamIndex := some a.videoStreamIndex
    audioStreamIndex := some a.audioStreamIndex } := rfl

theorem loadContainer_settings {a : Answers} (h : a.loads = true) (d : Native) :
    (d.loadContainer a).2.settings = d.settings.loaded a := by
  have haudio := (loadAudio_settings (d.prepared a) a).trans (d.prepared_settings a)
  have hok := loadAudio_ok (d.prepared a) a
  have hmove := d.loadContainer_move a
  generalize (d.loadContainer a).1 = r, (d.loadContainer a).2 = d' at hmove ⊢
  cases hmove with
  | noInfo hf =>
      have hstop : a.loads = false := by simp [Answers.loads, hf]
      exact absurd (h.symm.trans hstop) (by decide)
  | noVideo hf hv =>
      have hstop : a.loads = false := by simp [Answers.loads, hv]
      exact absurd (h.symm.trans hstop) (by decide)
  | notOpened hf hv ho =>
      have hstop : a.loads = false := by simp [Answers.loads, ho]
      exact absurd (h.symm.trans hstop) (by decide)
  | stopped hf hv ho hr =>
      rw [Answers.loads_eq hf hv ho, Bool.and_eq_true, ← hok, hr] at h
      cases h.1
  | video hf hv ho hr =>
      rw [Answers.loads_eq hf hv ho, Bool.and_eq_true] at h
      rw [hr] at haudio
      rw [loadVideo_settings h.2, haudio]
      rfl

def Settings.entered (s : Settings) : Attempt → Settings
  | .loadFile filename _ => { s with custom := false, opened := [.file filename] }
  | .loadStream fillFunc funcData cleanFunc _ => { s with
      fillBufferFunc := fillFunc
      customFuncData := funcData
      cleanupFunc := cleanFunc
      custom := true
      opened := [.reader funcData] }

theorem allocInput_new {d : Native} (h : d.formatContext.id? = none) (filename : String) (a : Answers) :
    d.allocInput filename a = d.newInput filename a := by
  rw [allocInput]
  split
  · next hp => rw [hp] at h; cases h
  · rfl

theorem source_allocStream (d : Native) (fillFunc : Bool) (funcData : Option Nat) (cleanFunc : Bool) :
    (d.allocStream fillFunc funcData cleanFunc).source "<stream>" = .reader funcData := by
  have hkind : (d.allocStream fillFunc funcData cleanFunc).acquired[d.acquired.length + 1]? = some .avioContext := by
    simp [allocStream, acquire]
  have hid : (d.allocStream fillFunc funcData cleanFunc).format.pb = .object (d.acquired.length + 1) := by
    simp [allocStream, next, acquire, FormatContext.empty]
  rw [source, hid]
  dsimp only
  rw [hkind]
  rfl

theorem entered_settings {d : Native} {t : Attempt} (ho : t.answers.openInput = true) (hn : d.entersClean t) :
    (d.entered t).settings = d.settings.entered t := by
  cases t with
  | loadFile filename a =>
      change a.openInput = true at ho
      rw [entered, openInput, if_pos ho, allocInput_new hn.1, newInput]
      split_ifs <;> rfl
  | loadStream fillFunc funcData cleanFunc a =>
      change a.openInput = true at ho
      rw [entered, openInput, if_pos ho]
      change (reopenInput _ _).settings = _
      rw [reopenInput, source_allocStream]
      rfl

/-- The inputs opened before stay where `loadFile` finds a format context. -/
theorem entered_reopened {d : Native} {filename : String} {a : Answers} (ho : a.openInput = true)
    (hn : d.formatContext.id? ≠ none) :
    (d.entered (.loadFile filename a)).format.opened = d.format.opened ++ [d.source filename] := by
  have hreopen : d.allocInput filename a = d.reopenInput filename := by
    rw [allocInput]
    split
    · rfl
    · next hp =>
      refine absurd ?_ hn
      cases hf : d.formatContext with
      | object id => exact absurd hf (hp id)
      | null => rfl
      | unassigned => rfl
  rw [entered, openInput, if_pos ho, hreopen]
  rfl

/-! ## What a failed attempt leaves -/

/-- The members that no attempt sets. -/
def untouched : List Member :=
  [.audioFrame, .frame, .audioDecodingBuffer] ++
    (List.finRange VIDEOPLAYER_VIDEO_NUM_BUFFERED_FRAMES).map .rgbFrame

theorem target_attemptOps {d : Native} {t : Attempt} {m : Member} (hm : m ∈ untouched) :
    m ∉ (d.attemptOps t).map LedgerOp.target := by
  intro hmem
  rw [attemptOps, List.map_append, List.mem_append] at hmem
  rcases hmem with hmem | hmem
  · obtain ⟨o, ho, rfl⟩ := List.mem_map.mp hmem
    have hnot : ∀ m ∈ untouched, m ∉ [Member.avioBuffer, .avioContext, .ioContext, .formatContext] := by decide
    exact hnot _ hm (target_entryOps ho)
  · split_ifs at hmem
    · have hnot : ∀ m ∈ untouched, m ∉ [Member.videoCodecContext, .audioCodecContext, .swrContext, .swsContext] ++
          (List.finRange VIDEOPLAYER_VIDEO_NUM_BUFFERED_FRAMES).map .rgbBuffer := by decide
      exact hnot _ hm ((targets_containerOps _ _).subset hmem)
    · cases hmem

theorem loadVideo_opened (d : Native) (a : Answers) : (d.loadVideo a).2.format.opened = d.format.opened := by
  have hbuf := getBuffers_settings a (List.finRange VIDEOPLAYER_VIDEO_NUM_BUFFERED_FRAMES) (d.getSws a)
  rw [getSws_settings] at hbuf
  rw [loadVideo]
  cases a.getBuffer 0 <;> exact congrArg Settings.opened hbuf

theorem loadContainer_opened (d : Native) (a : Answers) : (d.loadContainer a).2.format.opened = d.format.opened := by
  have haudio : ((d.prepared a).loadAudio a).2.format.opened = d.format.opened :=
    congrArg Settings.opened ((loadAudio_settings (d.prepared a) a).trans (d.prepared_settings a))
  have hmove := d.loadContainer_move a
  generalize (d.loadContainer a).1 = r, (d.loadContainer a).2 = d' at hmove ⊢
  cases hmove with
  | noInfo => rfl
  | noVideo => rfl
  | notOpened => rfl
  | stopped hf hv ho hr =>
      rw [hr] at haudio
      exact haudio
  | @video d' hf hv ho hr =>
      rw [hr] at haudio
      exact (loadVideo_opened d' a).trans haudio

theorem allocInput_opened (d : Native) (filename : String) (a : Answers) :
    (d.allocInput filename a).format.opened ≠ [] := by
  rw [allocInput]
  split
  · exact List.append_ne_nil_of_right_ne_nil _ (List.cons_ne_nil _ _)
  · rw [newInput]
    split_ifs <;> exact List.cons_ne_nil _ _

theorem openInput_closed {a : Answers} (ho : a.openInput = false) (d : Native) (filename : String) :
    (d.openInput filename a).formatContext.id? = none := by
  obtain ⟨id, hid⟩ := Option.isSome_iff_exists.mp (d.allocInput_does filename a).2
  rw [openInput, if_neg (by rw [ho]; exact Bool.false_ne_true), closeInput, Ptr.id?_eq_some.mp hid]
  rfl

theorem attempt_opened {d : Native} {t : Attempt} (h : d.tries t)
    (hf : (d.attempt t).2.formatContext.id? ≠ none) : (d.attempt t).2.format.opened ≠ [] := by
  rw [attempt_tries h] at hf ⊢
  cases ho : t.answers.openInput with
  | true =>
      rw [if_pos rfl, loadContainer_opened]
      cases t with
      | loadFile filename a =>
          change a.openInput = true at ho
          rw [entered, openInput, if_pos ho]
          exact d.allocInput_opened filename a
      | loadStream fillFunc funcData cleanFunc a =>
          change a.openInput = true at ho
          rw [entered, openInput, if_pos ho]
          exact allocInput_opened _ "<stream>" a
  | false =>
      rw [ho, if_neg Bool.false_ne_true] at hf
      refine absurd ?_ hf
      cases t with
      | loadFile filename a => exact openInput_closed ho d filename
      | loadStream fillFunc funcData cleanFunc a => exact openInput_closed ho _ "<stream>"

theorem attempt_callbacks {d : Native} {t : Attempt} (h : d.tries t) :
    (d.attempt t).2.fillBufferFunc = (d.entered t).fillBufferFunc ∧
      (d.attempt t).2.customFuncData = (d.entered t).customFuncData ∧
      (d.attempt t).2.cleanupFunc = (d.entered t).cleanupFunc := by
  have hspec := loadContainer_spec (d.entered t) t.answers
  rw [attempt_tries h]
  split_ifs
  · exact ⟨hspec.fillBufferFunc, hspec.customFuncData, hspec.cleanupFunc⟩
  · exact ⟨rfl, rfl, rfl⟩

/-- What a decoder without a loaded file keeps of a new one. -/
structure LeftInv (d : Native) : Prop where
  untouched : ∀ m ∈ untouched, d.ledger.held m = constructed.ledger.held m
  callbacks : d.fillBufferFunc = false → d.customFuncData = none ∧ d.cleanupFunc = false ∧ d.avioContext.id? = none
  opened : d.formatContext.id? ≠ none → d.format.opened ≠ []

theorem leftInv_constructed : LeftInv constructed :=
  ⟨fun _ _ => rfl, fun _ => ⟨rfl, rfl, rfl⟩, fun h => absurd rfl h⟩

theorem LeftInv.attempt {d : Native} {t : Attempt} (hI : LeftInv d) (hs : d.ledger.Sound) (hu : Unloaded d.ledger)
    (h : d.tries t) : LeftInv (d.attempt t).2 := by
  have hdoes := attempt_does hu.swr h
  refine ⟨fun m hm => ?_, fun hfill => ?_, attempt_opened h⟩
  · rw [hdoes.ledger, Ledger.held_run hs, Ledger.effect_eq_none.mpr (target_attemptOps hm)]
    exact hI.untouched m hm
  · obtain ⟨hfun, hdata, hclean⟩ := attempt_callbacks h
    rw [hfun] at hfill
    rw [hdata, hclean]
    cases t with
    | loadFile filename a =>
        have hkeeps := d.openInput_keeps filename a
        change (d.openInput filename a).fillBufferFunc = false at hfill
        rw [hkeeps.fillBufferFunc] at hfill
        obtain ⟨hdata', hclean', havio⟩ := hI.callbacks hfill
        refine ⟨hkeeps.customFuncData.trans hdata', hkeeps.cleanupFunc.trans hclean', ?_⟩
        have hslot := congrFun (congrArg Ledger.slot hdoes.ledger) .avioContext
        exact hslot.trans ((slot_avio d (.loadFile filename a) (Or.inr rfl)).trans havio)
    | loadStream fillFunc funcData cleanFunc a =>
        have hkeeps := openInput_keeps (d.allocStream fillFunc funcData cleanFunc) "<stream>" a
        change (openInput _ "<stream>" a).fillBufferFunc = false at hfill
        rw [hkeeps.fillBufferFunc] at hfill
        change fillFunc = false at hfill
        rw [h.2] at hfill
        cases hfill

/-! ## Every run -/

theorem attempt_loaded {d : Native} (h : d.fileLoaded = true) (t : Attempt) : d.attempt t = (.returned .zero, d) := by
  cases t with
  | loadFile filename a => rw [attempt, loadFile, if_pos h]
  | loadStream fillFunc funcData cleanFunc a => exact loadStream_loaded d fillFunc funcData cleanFunc a h

theorem attempt_invalid {d : Native} {t : Attempt} (h : d.fileLoaded = false) (ht : ¬ d.tries t) :
    ∃ e, (d.attempt t).1 = .thrown e := by
  cases t with
  | loadFile filename a =>
      have hname : filename = "" := by
        by_contra hn
        exact ht ⟨h, hn⟩
      rw [attempt, loadFile, if_neg (by rw [h]; exact Bool.false_ne_true), if_pos hname]
      exact ⟨_, rfl⟩
  | loadStream fillFunc funcData cleanFunc a =>
      have hfill : fillFunc = false := by
        by_contra hn
        exact ht ⟨h, by simpa using hn⟩
      rw [attempt, loadStream, if_neg (by rw [h]; exact Bool.false_ne_true), if_pos (by rw [hfill]; rfl)]
      exact ⟨_, rfl⟩

/-- A call that does not crash throws exactly where it leaves the decoder without a file. -/
theorem throws_iff {d : Native} {t : Attempt} (hc : (d.attempt t).1 ≠ .crashed) :
    throws d (.load t) ↔ (d.attempt t).2.fileLoaded = false := by
  have hreturned : ∀ {b}, (d.attempt t).1 = .returned b → ¬ throws d (.load t) := by
    rintro b hb ⟨e, he⟩
    rw [hb] at he
    cases he
  by_cases ht : d.tries t
  · rcases attempt_result ht with ⟨-, hthrown, hl⟩ | ⟨-, -, ⟨b, hb⟩, hl⟩ | ⟨-, -, hcrash⟩
    · exact iff_of_true hthrown hl
    · exact iff_of_false (hreturned hb) (by simp [hl])
    · exact absurd hcrash hc
  · cases hl : d.fileLoaded with
    | false => exact iff_of_true (attempt_invalid hl ht) (by rw [attempt_refused ht, hl])
    | true => exact iff_of_false (hreturned (congrArg Prod.fst (attempt_loaded hl t))) (by simp [attempt_loaded hl, hl])

theorem throws_snoc (h : List (Native × Call)) (d : Native) (c : Call) :
    (∀ p ∈ h ++ [(d, c)], throws p.1 p.2) ↔ (∀ p ∈ h, throws p.1 p.2) ∧ throws d c := by
  rw [List.forall_mem_append, List.forall_mem_singleton]

structure RetryInv (h : List (Native × Call)) (d : Native) : Prop where
  account : AccountInv h d
  threw : (∀ p ∈ h, throws p.1 p.2) ↔ d.fileLoaded = false
  left : d.fileLoaded = false → LeftInv d

theorem RetryInv.load {h : List (Native × Call)} {d d' : Native} {t : Attempt} (hI : RetryInv h d)
    (hs : d.call (.load t) = some d') : RetryInv (h ++ [(d, .load t)]) d' := by
  have haccount := hI.account.load hs
  obtain ⟨rfl, hcrash⟩ := call_load hs
  by_cases ht : d.tries t
  · have hl := fileLoaded_of_tries ht
    refine ⟨haccount, ?_, fun _ => (hI.left hl).attempt hI.account.sound (hI.account.unloaded hl) ht⟩
    rw [throws_snoc, hI.threw, throws_iff hcrash]
    exact and_iff_right hl
  · have hthrows := throws_iff hcrash
    rw [attempt_refused ht] at haccount hthrows ⊢
    refine ⟨haccount, ?_, hI.left⟩
    rw [throws_snoc, hI.threw, hthrows, and_self]

theorem RetryInv.update {h : List (Native × Call)} {d d' : Native} (hI : RetryInv h d)
    (hs : d.call .updateAudioBuffer = some d') : RetryInv (h ++ [(d, .updateAudioBuffer)]) d' := by
  have haccount := hI.account.update hs
  obtain ⟨hloaded, hs⟩ := Option.ite_none_right_eq_some.mp hs
  cases hs
  have hloaded' : d.allocDecodingBuffer.fileLoaded = true := by
    rw [allocDecodingBuffer]
    split <;> exact hloaded
  refine ⟨haccount, ?_, fun hl => ?_⟩
  · rw [throws_snoc, hloaded']
    exact iff_of_false (fun hn => hn.2) (by decide)
  · rw [hloaded'] at hl
    cases hl

theorem retryInv {h : List (Native × Call)} {d : Native} (hr : lifetime.Run h d) : RetryInv h d := by
  refine System.RunWhen.induction (P := RetryInv) ?_ ?_ hr
  · rintro _ rfl
    exact ⟨accountInv_constructed, iff_of_true (fun p hp => absurd hp List.not_mem_nil) rfl,
      fun _ => leftInv_constructed⟩
  · rintro h d c d' - hI - hs
    cases c with
    | load t => exact hI.load hs
    | updateAudioBuffer => exact hI.update hs

/-! ## The attempt that returns -/

theorem attempt_thrown {d : Native} {t : Attempt} (h : d.tries t) {e : LoadError} (he : (d.attempt t).1 = .thrown e) :
    (t.answers.openInput && t.answers.tested) = false := by
  rcases attempt_result h with ⟨hstop, -⟩ | ⟨-, -, ⟨b, hb⟩, -⟩ | ⟨-, -, hcrash⟩
  · exact hstop
  · rw [he] at hb
    cases hb
  · rw [he] at hcrash
    cases hcrash

theorem attempt_returned {d : Native} {t : Attempt} (h : d.tries t) {b : VideoBufferInfo}
    (hb : (d.attempt t).1 = .returned b) :
    (t.answers.openInput && t.answers.tested) = true ∧ t.answers.loads = true := by
  rcases attempt_result h with ⟨-, ⟨e, he⟩, -⟩ | ⟨htested, hloads, -⟩ | ⟨-, -, hcrash⟩
  · rw [hb] at he
    cases he
  · exact ⟨htested, hloads⟩
  · rw [hb] at hcrash
    cases hcrash

theorem attempt_loads {d : Native} {t : Attempt} (h : d.tries t)
    (htested : (t.answers.openInput && t.answers.tested) = true) (hloads : t.answers.loads = true) :
    ∃ b, (d.attempt t).1 = .returned b := by
  rcases attempt_result h with ⟨hstop, -⟩ | ⟨-, -, hreturned, -⟩ | ⟨-, hstop, -⟩
  · rw [htested] at hstop
    cases hstop
  · exact hreturned
  · rw [hloads] at hstop
    cases hstop

theorem attempt_started {d : Native} {t : Attempt} (h : d.tries t) (ho : t.answers.openInput = true)
    (hl : t.answers.loads = true) : (d.attempt t).2.started = t.answers.threadCreated := by
  rw [attempt_tries h, if_pos ho, (loadContainer_spec (d.entered t) t.answers).started, if_pos hl]

theorem attempt_settings {d : Native} {t : Attempt} (h : d.tries t) (ho : t.answers.openInput = true)
    (hl : t.answers.loads = true) (hn : d.entersClean t) :
    (d.attempt t).2.settings = (d.settings.entered t).loaded t.answers := by
  rw [attempt_tries h, if_pos ho, loadContainer_settings hl, entered_settings ho hn]

theorem entered_format {d : Native} {t : Attempt} (ho : t.answers.openInput = true) (hn : d.entersClean t) :
    (d.entered t).format.opened = (d.settings.entered t).opened :=
  congrArg Settings.opened (entered_settings ho hn)

theorem attemptOps_eq {d e : Native} {t : Attempt} (ho : t.answers.openInput = true) (hd : d.entersClean t)
    (he : e.entersClean t) : d.attemptOps t = e.attemptOps t := by
  have hentry : d.entryOps t = e.entryOps t := by
    cases t with
    | loadFile filename a => rw [entryOps, entryOps, openOps, openOps, allocOps_new hd.1, allocOps_new he.1]
    | loadStream fillFunc funcData cleanFunc a => rfl
  have hopened : (d.settings.entered t).opened = (e.settings.entered t).opened := by
    cases t <;> rfl
  rw [attemptOps, attemptOps, hentry, entered_format ho hd, entered_format ho he, hopened]

theorem containerOps_loads {a : Answers} (h : a.loads = true) (opened : List Source) : containerOps opened a =
    .store .videoCodecContext (.codecContext opened a.videoStreamIndex) :: (audioOps opened a ++ videoOps a) := by
  have hall : a.findStreamInfo = true ∧ 0 ≤ a.videoStreamIndex ∧ a.openVideo = true ∧
      (decide (a.audioStreamIndex < 0) || (a.openAudio && a.allocSwr)) = true := by
    simp_all [Answers.loads]
  obtain ⟨hf, hv, ho, haudio⟩ := hall
  rw [containerOps_opened hf hv ho, if_pos haudio]

theorem audio_target {d : Native} {t : Attempt} (ho : t.answers.openInput = true) (hl : t.answers.loads = true) :
    Member.audioCodecContext ∈ (d.attemptOps t).map LedgerOp.target ↔ 0 ≤ t.answers.audioStreamIndex := by
  have hentry : Member.audioCodecContext ∉ (d.entryOps t).map LedgerOp.target := by
    intro hmem
    obtain ⟨o, ho, he⟩ := List.mem_map.mp hmem
    have := target_entryOps ho
    rw [he] at this
    simp at this
  have hvideo : Member.audioCodecContext ∉ (videoOps t.answers).map LedgerOp.target := by
    rw [targets_videoOps]
    simp
  rw [attemptOps, if_pos ho, containerOps_loads hl, List.map_append, List.mem_append, or_iff_right hentry,
    List.map_cons, List.mem_cons, or_iff_right (by simp [LedgerOp.target]), List.map_append, List.mem_append,
    or_iff_left hvideo, audioOps]
  by_cases hs : t.answers.audioStreamIndex < 0
  · rw [if_pos hs]
    exact iff_of_false List.not_mem_nil (by omega)
  · rw [if_neg hs]
    exact iff_of_true List.mem_cons_self (by omega)

/-- The members that an attempt which loads does not assign are those of a new decoder, where nothing is left. -/
theorem held_constructed {d : Native} {t : Attempt} {m : Member} (hleft : LeftInv d) (hu : Unloaded d.ledger)
    (hb : d.avioBuffer.id? = none ↔ d.avioContext.id? = none) (hn : d.nothingLeft t)
    (ho : t.answers.openInput = true) (hl : t.answers.loads = true) (hm : m ∉ (d.attemptOps t).map LedgerOp.target) :
    d.ledger.held m = constructed.ledger.held m := by
  have hnone : ∀ n, d.ledger.slot n = none → constructed.ledger.slot n = none →
      d.ledger.held n = constructed.ledger.held n :=
    fun n h h' => (Ledger.held_of_none h).trans (Ledger.held_of_none h').symm
  -- `loadFile` finds none of these, `loadStream` assigns them
  have hentry : m ∈ [Member.avioBuffer, .avioContext, .ioContext, .formatContext] → d.ledger.slot m = none := by
    intro hmem
    cases t with
    | loadFile filename a =>
        have havio := (hleft.callbacks hn.1.2).2.2
        simp only [List.mem_cons, List.not_mem_nil, or_false] at hmem
        rcases hmem with rfl | rfl | rfl | rfl
        · exact hb.mpr havio
        · exact havio
        · exact congrArg Ptr.id? (ptr_ioContext hn.1.1)
        · exact hn.1.1
    | loadStream fillFunc funcData cleanFunc a =>
        refine absurd ?_ hm
        rw [attemptOps, List.map_append, List.mem_append]
        refine Or.inl ?_
        rw [entryOps, streamOps, List.map_append, List.mem_append]
        exact Or.inl hmem
  cases m with
  | avioBuffer => exact hnone _ (hentry (by simp)) rfl
  | avioContext => exact hnone _ (hentry (by simp)) rfl
  | ioContext => exact hnone _ (hentry (by simp)) rfl
  | formatContext => exact hnone _ (hentry (by simp)) rfl
  | swrContext => exact hnone _ hu.swr rfl
  | swsContext => exact hnone _ hu.sws rfl
  | rgbBuffer i => exact hnone _ (hu.rgb i) rfl
  | videoCodecContext =>
      refine absurd ?_ hm
      rw [attemptOps, if_pos ho, containerOps_loads hl, List.map_append, List.mem_append]
      exact Or.inr List.mem_cons_self
  | audioCodecContext =>
      rw [audio_target ho hl] at hm
      exact hnone _ (hn.2 (by omega)) rfl
  | audioFrame => exact hleft.untouched _ (by simp [untouched])
  | frame => exact hleft.untouched _ (by simp [untouched])
  | audioDecodingBuffer => exact hleft.untouched _ (by simp [untouched])
  | rgbFrame i => exact hleft.untouched _ (by simp [untouched])

theorem entersClean_constructed (t : Attempt) : constructed.entersClean t := by
  cases t with
  | loadFile filename a => exact ⟨rfl, rfl⟩
  | loadStream fillFunc funcData cleanFunc a => trivial

theorem tries_constructed {d : Native} {t : Attempt} (h : d.tries t) : constructed.tries t := by
  cases t with
  | loadFile filename a => exact ⟨rfl, h.2⟩
  | loadStream fillFunc funcData cleanFunc a => exact ⟨rfl, h.2⟩

theorem contents_eq {h : List (Native × Call)} {d : Native} {t : Attempt} (hI : RetryInv h d) (ht : d.tries t)
    (ho : t.answers.openInput = true) (hl : t.answers.loads = true) (hn : d.nothingLeft t) :
    (d.attempt t).2.contents = (constructed.attempt t).2.contents := by
  have hfile := fileLoaded_of_tries ht
  have hleft := hI.left hfile
  have hu := hI.account.unloaded hfile
  have hsound := hI.account.sound
  have hnew := accountInv_constructed
  have hclean := entersClean_constructed t
  have hsettings : (d.attempt t).2.settings = (constructed.attempt t).2.settings := by
    rw [attempt_settings ht ho hl hn.1, attempt_settings (tries_constructed ht) ho hl hclean]
    cases t with
    | loadFile filename a =>
        obtain ⟨hdata, hcleanup, -⟩ := hleft.callbacks hn.1.2
        simp only [Settings.loaded, Settings.entered, settings, hn.1.2, hdata, hcleanup]
        rfl
    | loadStream fillFunc funcData cleanFunc a => rfl
  have hheld : (d.attempt t).2.ledger.held = (constructed.attempt t).2.ledger.held := by
    rw [(attempt_does hu.swr ht).ledger, (attempt_does rfl (tries_constructed ht)).ledger,
      attemptOps_eq ho hclean hn.1]
    funext m
    rw [Ledger.held_run hsound, Ledger.held_run hnew.sound]
    by_cases hm : m ∈ (d.attemptOps t).map LedgerOp.target
    · obtain ⟨v, hv⟩ := Option.ne_none_iff_exists'.mp fun he => Ledger.effect_eq_none.mp he hm
      rw [hv]
      rfl
    · rw [Ledger.effect_eq_none.mpr hm]
      exact held_constructed hleft hu hI.account.avioBuffer hn ho hl hm
  rw [contents, contents, hsettings, hheld]

/-- An attempt that leaves what it leaves in a new decoder has found nothing that it does not set. -/
theorem nothingLeft_of_contents {h : List (Native × Call)} {d : Native} {t : Attempt} (hI : RetryInv h d)
    (ht : d.tries t) (ho : t.answers.openInput = true) (hl : t.answers.loads = true)
    (he : (d.attempt t).2.contents = (constructed.attempt t).2.contents) : d.nothingLeft t := by
  have hfile := fileLoaded_of_tries ht
  have hsettings : (d.attempt t).2.settings = (constructed.attempt t).2.settings := congrArg Contents.settings he
  refine ⟨?_, fun haudio => ?_⟩
  · cases t with
    | loadFile filename a =>
        refine ⟨?_, ?_⟩
        · by_contra hformat
          have hopened : (d.attempt (.loadFile filename a)).2.format.opened =
              (constructed.attempt (.loadFile filename a)).2.format.opened := congrArg Settings.opened hsettings
          rw [attempt_tries ht, attempt_tries (tries_constructed ht), if_pos ho, loadContainer_opened,
            if_pos ho, loadContainer_opened, entered_reopened (a := a) ho hformat,
            entered_format ho (entersClean_constructed _)] at hopened
          have hnil := (hI.left hfile).opened hformat
          have hlength := congrArg List.length hopened
          rw [List.length_append] at hlength
          change d.format.opened.length + 1 = 1 at hlength
          exact hnil (List.length_eq_zero_iff.mp (by omega))
        · have hfill : (d.attempt (.loadFile filename a)).2.fillBufferFunc =
              (constructed.attempt (.loadFile filename a)).2.fillBufferFunc :=
            congrArg Settings.fillBufferFunc hsettings
          rw [(attempt_callbacks ht).1, (attempt_callbacks (tries_constructed ht)).1] at hfill
          have hkeeps := d.openInput_keeps filename a
          have hkeeps' := constructed.openInput_keeps filename a
          exact hkeeps.fillBufferFunc.symm.trans (hfill.trans hkeeps'.fillBufferFunc)
    | loadStream fillFunc funcData cleanFunc a => trivial
  · have hheld : (d.attempt t).2.ledger.held .audioCodecContext =
        (constructed.attempt t).2.ledger.held .audioCodecContext := congrFun (congrArg Contents.held he) _
    have htarget : ∀ e : Native, Ledger.effect (e.attemptOps t) Member.audioCodecContext = none := by
      intro e
      rw [Ledger.effect_eq_none, audio_target ho hl]
      omega
    rw [(attempt_does (hI.account.unloaded hfile).swr ht).ledger, (attempt_does rfl (tries_constructed ht)).ledger,
      Ledger.held_run hI.account.sound, Ledger.held_run accountInv_constructed.sound, htarget, htarget] at hheld
    by_contra hne
    exact hI.account.sound.held_ne_none (i := .audioCodecContext) hne hheld

/-! ## The two laws in every run -/

theorem Clean.honest {d : Native} {t : Attempt} (h : Clean d t) : Honest d t := by
  have hset : d.tries t → (t.answers.openInput && t.answers.tested) = true → t.answers.setUp = true := by
    intro ht htested
    rw [Answers.setUp, htested, (h.granted ht htested).1]
    rfl
  refine ⟨fun b hb hl => ?_, fun hn => ?_⟩
  · by_cases ht : d.tries t
    · obtain ⟨htested, hloads⟩ := attempt_returned ht hb
      obtain ⟨ho, -⟩ := Bool.and_eq_true_iff.mp htested
      refine ⟨fun _ => hset ht htested, ?_⟩
      rw [attempt_started ht ho hloads]
      exact (Bool.and_eq_true_iff.mp (h.granted ht htested).1).2
    · rw [attempt_refused ht] at hl ⊢
      exact ⟨fun htries => absurd htries ht, h.started hl⟩
  · obtain ⟨ht, hnot⟩ := Classical.not_imp.mp hn
    rcases attempt_result ht with ⟨-, hthrown, hl⟩ | ⟨htested, -⟩ | ⟨htested, -⟩
    · exact ⟨hthrown, hl⟩
    · exact absurd (hset ht htested) hnot
    · exact absurd (hset ht htested) hnot

theorem Clean.traceless {h : List (Native × Call)} {d : Native} {t : Attempt} (hc : Clean d t) (hI : RetryInv h d)
    (hthrew : ∀ p ∈ h, throws p.1 p.2) : Traceless d t := by
  intro b hb
  have ht : d.tries t := by
    by_contra hn
    obtain ⟨e, he⟩ := attempt_invalid (hI.threw.mp hthrew) hn
    rw [hb] at he
    cases he
  obtain ⟨htested, hloads⟩ := attempt_returned ht hb
  obtain ⟨ho, -⟩ := Bool.and_eq_true_iff.mp htested
  have heq := contents_eq hI ht ho hloads (hc.granted ht htested).2
  exact ⟨attempt_loads (tries_constructed ht) htested hloads, heq, fun φ π demux r => plays_congr heq demux r⟩

theorem clean_of_laws {h : List (Native × Call)} {d : Native} {t : Attempt} (hI : RetryInv h d) (hh : Honest d t)
    (htrace : (∀ p ∈ h, throws p.1 p.2) → Traceless d t) : Clean d t := by
  refine ⟨fun hl => ?_, fun ht htested => ?_⟩
  · have hret := attempt_loaded hl t
    have hstarted := (hh.returns .zero (by rw [hret]) (by rw [hret]; exact hl)).2
    rwa [hret] at hstarted
  · obtain ⟨ho, htest⟩ := Bool.and_eq_true_iff.mp htested
    have hgranted : t.answers.setUp = true := by
      by_contra hset
      obtain ⟨⟨e, he⟩, -⟩ := hh.throws fun hg => hset (hg ht)
      exact absurd (htested.symm.trans (attempt_thrown ht he)) (by decide)
    have hunt := (Bool.and_eq_true_iff.mp hgranted).2
    have hloads := Answers.loads_of_untested htest hunt
    obtain ⟨b, hb⟩ := attempt_loads ht htested hloads
    obtain ⟨-, heq, -⟩ := htrace (hI.threw.mpr (fileLoaded_of_tries ht)) b hb
    exact ⟨hunt, nothingLeft_of_contents hI ht ho hloads heq⟩

/-- **A failed attempt leaves no trace, and an attempt returns only where its set-up succeeded**, if and only if the
answers that are not tested are as wanted, and nothing is left that the attempt does not set. -/
theorem leaves_no_trace_iff {h : List (Native × Call)} {d : Native} (hr : lifetime.Run h d) (t : Attempt) :
    (Honest d t ∧ ((∀ p ∈ h, throws p.1 p.2) → Traceless d t)) ↔ Clean d t := by
  have hI := retryInv hr
  constructor
  · rintro ⟨hh, htrace⟩
    exact clean_of_laws hI hh htrace
  · intro hc
    exact ⟨hc.honest, hc.traceless hI⟩

/-- A file after one that did not open. -/
theorem leaves_no_trace_retried : ∃ h d, lifetime.Run h d ∧ h ≠ [] ∧ (∀ p ∈ h, throws p.1 p.2) ∧
    Honest d (.loadFile "b.mp4" .success) ∧ Traceless d (.loadFile "b.mp4" .success) ∧
    (d.attempt (.loadFile "b.mp4" .success)).2.fileLoaded = true := by
  have he : ∃ r, lifetime.exec .constructed [.load (.loadFile "a.mp4" { Answers.success with openInput := false })] =
      some r ∧ r.1 ≠ [] ∧ (∀ p ∈ r.1, throws p.1 p.2) ∧ Clean r.2 (.loadFile "b.mp4" .success) ∧
      (r.2.attempt (.loadFile "b.mp4" .success)).2.fileLoaded = true := by
    refine ⟨_, rfl, List.cons_ne_nil _ _, List.forall_mem_singleton.mpr ⟨_, rfl⟩, ⟨fun hl => ?_, fun _ _ => ?_⟩, rfl⟩
    · cases hl
    · exact ⟨rfl, ⟨rfl, rfl⟩, fun hneg => absurd hneg (by decide)⟩
  obtain ⟨⟨h, d⟩, he, hne, hthrew, hclean, hloaded⟩ := he
  have hr := System.run_of_exec rfl he
  obtain ⟨hh, htrace⟩ := (leaves_no_trace_iff hr (.loadFile "b.mp4" .success)).mpr hclean
  exact ⟨h, d, hr, hne, hthrew, hh, htrace hthrew, hloaded⟩

/-- After `loadStream` on a container in which no stream info is found, `loadFile` reads the container of that stream
again and not its file; and a file counts as loaded without a scaler, or without a decoding thread. -/
theorem trace_left :
    (∃ h d, lifetime.Run h d ∧ (∀ p ∈ h, throws p.1 p.2) ∧
      (d.attempt (.loadFile "b.mp4" .success)).2.format.opened = [.reader (some 0), .reader (some 0)] ∧
      ¬ Traceless d (.loadFile "b.mp4" .success)) ∧
      ¬ Honest constructed (.loadFile "b.mp4" { Answers.success with getSws := false }) ∧
      ¬ Honest constructed (.loadFile "b.mp4" { Answers.success with threadCreated := false }) := by
  have he : ∃ r, lifetime.exec .constructed
      [.load (.loadStream true (some 0) true { Answers.success with findStreamInfo := false })] = some r ∧
      (∀ p ∈ r.1, throws p.1 p.2) ∧
      (r.2.attempt (.loadFile "b.mp4" .success)).2.format.opened = [.reader (some 0), .reader (some 0)] ∧
      ∃ b, (r.2.attempt (.loadFile "b.mp4" .success)).1 = .returned b :=
    ⟨_, rfl, List.forall_mem_singleton.mpr ⟨_, rfl⟩, rfl, _, rfl⟩
  refine ⟨?_, fun hh => ?_, fun hh => ?_⟩
  · obtain ⟨⟨h, d⟩, he, hthrew, hopened, b, hb⟩ := he
    refine ⟨h, d, System.run_of_exec rfl he, hthrew, hopened, fun htrace => ?_⟩
    have hcontents := (htrace b hb).2.1
    have hsame : (d.attempt (.loadFile "b.mp4" .success)).2.format.opened = [.file "b.mp4"] :=
      congrArg (fun c : Contents => c.settings.opened) hcontents
    rw [hopened] at hsame
    cases hsame
  · have hgranted := (hh.returns _ rfl rfl).1 ⟨rfl, by decide⟩
    cases hgranted
  · have hgranted := (hh.returns _ rfl rfl).1 ⟨rfl, by decide⟩
    cases hgranted

end Native

end ArcVideo
