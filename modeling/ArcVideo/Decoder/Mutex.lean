import ArcVideo.Decoder.RingBuffer

/-!
# `decodeMutex` and `decodeCondvar`

`run` enters its inner loop with the mutex, gives it up to decode, and takes it back after publishing a frame. The
`continue` after `AVERROR(EAGAIN)` and the `break` at the end of the stream leave in between: the loop head, and the
`unlock` after the loops, are then reached without the mutex.

* `lock_discipline` : only the holder unlocks and waits, up to the first unlock or wait of `run` after an answer of
  `avcodec_receive_frame` without a frame, and no further;
* `unlocks_other` : after `AVERROR(EAGAIN)`, `run` frees the mutex of a consumer that is inside it;
* `no_lost_wakeup` : when that never happens, a thread asleep in `decodeCondvar.wait()` has a full ring before it, so
  that the destructor never joins a thread asleep;
* `dispose_hangs` : when it happens, the thread sleeps through the signal it needed.
-/

namespace ArcVideo
open Conc

variable {φ π : Type}

/-! ## The lock discipline -/

/-- The places of `run` that belong to its critical sections. -/
def RunPc.locked : RunPc φ π → Bool
  | .testFull | .testEnded | .testHas | .testLoop | .unlock | .checkEnded | .wait | .unlockLast => true
  | _ => false

/-- The places of `run` on the paths of `AVERROR(EAGAIN)`, of the end of the stream and of a decoding error. -/
def RunPc.noFrame : RunPc φ π → Bool
  | .fetch _ | .setEnded => true
  | _ => false

/-- The places of the consumer that belong to its critical sections. -/
def ConsumerPc.locked : ConsumerPc → Bool
  | .advance | .signal | .unlock | .delVideo | .delAudio | .delSignal | .delUnlock => true
  | _ => false

def RunPc.releases : RunPc φ π → Bool
  | .unlock | .wait | .unlockLast => true
  | _ => false

def RunPc.acquires : RunPc φ π → Bool
  | .lockFirst | .lock | .waiting => true
  | _ => false

/-- The places of `run` after its last unlock. -/
def RunPc.leaving : RunPc φ π → Bool
  | .cleanup | .ret | .returned => true
  | _ => false

def ConsumerPc.releases : ConsumerPc → Bool
  | .unlock | .delUnlock => true
  | _ => false

def ConsumerPc.acquires : ConsumerPc → Bool
  | .lock | .delLock => true
  | _ => false

/-- Who may do what with `decodeMutex`. -/
structure LockDiscipline (s : State φ π) : Prop where
  run_releases : s.run.releases = true → s.shared.decode.holder = some .run
  run_acquires : s.run.acquires = true → s.shared.decode.holder ≠ some .run
  run_leaves : s.run.leaving = true → s.shared.decode.holder ≠ some .run
  consumer_releases : s.consumer.releases = true → s.shared.decode.holder = some .consumer
  consumer_acquires : s.consumer.acquires = true → s.shared.decode.holder ≠ some .consumer

/-- `avcodec_receive_frame` answers `run` with something else than a frame. -/
def Action.noFrame : Action φ → Bool
  | ⟨.run, .receive .eagain⟩ | ⟨.run, .receive .eof⟩ | ⟨.run, .receive .error⟩ => true
  | _ => false

/-- `run` comes to an unlock or to a wait after an answer without a frame; `missed` is whether there was one before. -/
def releasesLate (missed : Bool) : List (State φ π × Action φ) → State φ π → Bool
  | [], s => missed && s.run.releases
  | (u, a) :: h, s => (missed && u.run.releases) || releasesLate (missed || a.noFrame) h s

/-- A step of thread `t` takes and gives up the mutex for itself only. -/
def LockEffect (t : Thread) (d d' : VideoDecoder φ π) : Prop :=
  ∀ u, u ≠ t → (d'.decode.holder = some u ↔ d.decode.holder = some u)

theorem RunPc.locked_of_releases {l : RunPc φ π} (h : l.releases = true) : l.locked = true := by
  cases l <;> first | rfl | cases h

theorem RunPc.not_locked {l : RunPc φ π} (h : l.acquires = true ∨ l.leaving = true) : ¬ l.locked = true := by
  cases l <;> first | exact Bool.false_ne_true | (rcases h with h | h <;> cases h)

theorem ConsumerPc.locked_of_releases {l : ConsumerPc} (h : l.releases = true) : l.locked = true := by
  cases l <;> first | rfl | cases h

theorem ConsumerPc.not_locked {l : ConsumerPc} (h : l.acquires = true) : ¬ l.locked = true := by
  cases l <;> first | exact Bool.false_ne_true | cases h

theorem LockEffect.of_eq {t : Thread} {d d' : VideoDecoder φ π} (h : d'.decode.holder = d.decode.holder) :
    LockEffect t d d' := fun u _ => by rw [h]

theorem LockEffect.of_lock {t : Thread} {d d' : VideoDecoder φ π} (h : d.decode.holder = none)
    (h' : d'.decode.holder = some t) : LockEffect t d d' := fun u hu => by simp [h, h', Ne.symm hu]

theorem LockEffect.of_release {t : Thread} {d d' : VideoDecoder φ π} (h : d.decode.holder = some t)
    (h' : d'.decode.holder = none) : LockEffect t d d' := fun u hu => by simp [h, h', Ne.symm hu]

theorem RunMove.knowsLock {c : Container} {a : RunAct φ} {l l' : RunPc φ π} {d d' : VideoDecoder φ π}
    (h : RunMove c a l d l' d') (hno : l.noFrame = false) (hl : d.decode.holder = some .run ↔ l.locked = true)
    (hok : Action.noFrame ⟨.run, a⟩ = false) :
    (l'.noFrame = false ∧ (d'.decode.holder = some .run ↔ l'.locked = true)) ∧ LockEffect .run d d' := by
  cases h with
  | lockFirst hn | lock hn | relock _ hn => exact ⟨⟨rfl, by simp [RunPc.locked]⟩, .of_lock hn rfl⟩
  | unlock | wait | unlockLast => exact ⟨⟨rfl, by simp [RunPc.locked]⟩, .of_release (hl.mpr rfl) rfl⟩
  | eagain | eof | error => cases hok
  | fetch | callback | setEnded => cases hno
  | has => split_ifs <;> exact ⟨⟨rfl, hl⟩, .of_eq rfl⟩
  | _ => exact ⟨⟨rfl, hl⟩, .of_eq rfl⟩

/-- The places of `run` from an answer without a frame to the next unlock or wait. -/
def RunPc.away (l : RunPc φ π) : Bool := l.noFrame || l.locked

/-- Between an answer without a frame and the next unlock or wait `run` leaves the mutex alone. -/
theorem RunMove.away {c : Container} {a : RunAct φ} {l l' : RunPc φ π} {d d' : VideoDecoder φ π}
    (h : RunMove c a l d l' d') (hl : l.away = true) (hrel : l.releases = false) :
    l'.away = true ∧ d'.decode.holder = d.decode.holder := by
  cases h with
  | unlock | wait | unlockLast => cases hrel
  | has => split_ifs <;> exact ⟨rfl, rfl⟩
  | @fetch _ _ f' _ _ => cases f' <;> exact ⟨rfl, rfl⟩
  | full | notFull | seenEnded | notEnded | leave | enter | stop | goWait | callback | setEnded => exact ⟨rfl, rfl⟩
  | _ => cases hl

theorem RunMove.miss {c : Container} {a : RunAct φ} {l l' : RunPc φ π} {d d' : VideoDecoder φ π}
    (h : RunMove c a l d l' d') (ha : Action.noFrame ⟨.run, a⟩ = true) :
    l = .receive ∧ l'.away = true ∧ d' = d := by
  cases h with
  | eagain | eof | error => exact ⟨rfl, rfl, rfl⟩
  | _ => cases ha

theorem ConsumerMove.knowsLock {a : ConsumerAct} {l l' : ConsumerPc} {d d' : VideoDecoder φ π}
    (h : ConsumerMove a l d l' d') (hl : d.decode.holder = some .consumer ↔ l.locked = true) :
    (d'.decode.holder = some .consumer ↔ l'.locked = true) ∧ LockEffect .consumer d d' := by
  cases h with
  | lock hn | delLock hn => exact ⟨by simp [ConsumerPc.locked], .of_lock hn rfl⟩
  | unlock | delUnlock => exact ⟨by simp [ConsumerPc.locked], .of_release (hl.mpr rfl) rfl⟩
  | bufFull | bufEnded => split_ifs <;> exact ⟨hl, .of_eq rfl⟩
  | _ => exact ⟨hl, .of_eq rfl⟩

theorem AudioMove.decode_eq {c : Container} {a : AudioAct} {l l' : AudioPc π} {d d' : VideoDecoder φ π}
    (h : AudioMove c a l d l' d') : d'.decode = d.decode := by
  cases h <;> rfl

/-- Who has the mutex, before and after the first answer without a frame. -/
structure Tracked (missed : Bool) (l : RunPc φ π) (k : ConsumerPc) (d : VideoDecoder φ π) : Prop where
  run : missed = false → l.noFrame = false ∧ (d.decode.holder = some .run ↔ l.locked = true)
  away : missed = true → l.away = true ∧ d.decode.holder ≠ some .run
  consumer : d.decode.holder = some .consumer ↔ k.locked = true

theorem RunMove.tracked {c : Container} {a : RunAct φ} {l l' : RunPc φ π} {d d' : VideoDecoder φ π} {missed : Bool}
    {k : ConsumerPc} (h : RunMove c a l d l' d') (hI : Tracked missed l k d) (hrel : (missed && l.releases) = false) :
    Tracked (missed || Action.noFrame ⟨.run, a⟩) l' k d' := by
  cases missed with
  | true =>
      obtain ⟨haway, hhold⟩ := hI.away rfl
      obtain ⟨haway', heq⟩ := h.away haway hrel
      exact ⟨nofun, fun _ => ⟨haway', heq ▸ hhold⟩, heq ▸ hI.consumer⟩
  | false =>
      obtain ⟨hno, hlock⟩ := hI.run rfl
      rw [Bool.false_or]
      cases ha : Action.noFrame ⟨.run, a⟩ with
      | true =>
          obtain ⟨rfl, haway, rfl⟩ := h.miss ha
          exact ⟨nofun, fun _ => ⟨haway, fun hh => absurd (hlock.mp hh) Bool.false_ne_true⟩, hI.consumer⟩
      | false =>
          obtain ⟨hrun, heff⟩ := h.knowsLock hno hlock ha
          exact ⟨fun _ => hrun, nofun, (heff .consumer nofun).trans hI.consumer⟩

theorem ConsumerMove.tracked {a : ConsumerAct} {l : RunPc φ π} {k k' : ConsumerPc} {d d' : VideoDecoder φ π}
    {missed : Bool} (h : ConsumerMove a k d k' d') (hI : Tracked missed l k d) : Tracked missed l k' d' := by
  obtain ⟨hcons, heff⟩ := h.knowsLock hI.consumer
  have hrun := heff .run nofun
  exact ⟨fun hm => ⟨(hI.run hm).1, hrun.trans (hI.run hm).2⟩,
    fun hm => ⟨(hI.away hm).1, fun hh => (hI.away hm).2 (hrun.mp hh)⟩, hcons⟩

theorem Tracked.discipline_iff {s : State φ π} {missed : Bool} (h : Tracked missed s.run s.consumer s.shared) :
    LockDiscipline s ↔ (missed && s.run.releases) = false := by
  cases missed with
  | true =>
      obtain ⟨haway, hhold⟩ := h.away rfl
      rw [Bool.true_and]
      refine ⟨fun hd => Bool.eq_false_iff.mpr fun hl => hhold (hd.run_releases hl), fun hl => ?_⟩
      exact ⟨fun hl' => absurd (hl.symm.trans hl') Bool.false_ne_true, fun _ => hhold, fun _ => hhold,
        fun hl => h.consumer.mpr (ConsumerPc.locked_of_releases hl),
        fun hl hh => ConsumerPc.not_locked hl (h.consumer.mp hh)⟩
  | false =>
      obtain ⟨-, hrun⟩ := h.run rfl
      exact iff_of_true ⟨fun hl => hrun.mpr (RunPc.locked_of_releases hl),
        fun hl hh => RunPc.not_locked (Or.inl hl) (hrun.mp hh), fun hl hh => RunPc.not_locked (Or.inr hl) (hrun.mp hh),
        fun hl => h.consumer.mpr (ConsumerPc.locked_of_releases hl),
        fun hl hh => ConsumerPc.not_locked hl (h.consumer.mp hh)⟩ rfl

/-! ### Along a run -/

def missed (h : List (State φ π × Action φ)) : Bool := h.any fun p => p.2.noFrame

theorem missed_snoc (h : List (State φ π × Action φ)) (u : State φ π) (a : Action φ) :
    missed (h ++ [(u, a)]) = (missed h || a.noFrame) := by
  rw [missed, List.any_append, List.any_cons, List.any_nil, Bool.or_false, missed]

theorem releasesLate_snoc (h : List (State φ π × Action φ)) (u s : State φ π) (a : Action φ) (b : Bool) :
    releasesLate b (h ++ [(u, a)]) s = (releasesLate b h u || ((b || missed (h ++ [(u, a)])) && s.run.releases)) := by
  induction h generalizing b with
  | nil => simp [releasesLate, missed]
  | cons p h ih =>
      obtain ⟨v, a'⟩ := p
      rw [List.cons_append, releasesLate, ih, releasesLate, missed, missed, List.any_cons, ← Bool.or_assoc,
        Bool.or_assoc b]

theorem not_late_last {h : List (State φ π × Action φ)} {s : State φ π} (hl : releasesLate false h s = false) :
    (missed h && s.run.releases) = false := by
  rcases List.eq_nil_or_concat h with rfl | ⟨g, ⟨u, a⟩, rfl⟩
  · rfl
  · rw [List.concat_eq_append, releasesLate_snoc, Bool.or_eq_false_iff, Bool.false_or] at hl
    rw [List.concat_eq_append]
    exact hl.2

section
variable {c : Container} {file : List (Demuxed π)} {h : List (State φ π × Action φ)} {s : State φ π}

theorem tracked_start (file : List (Demuxed π)) :
    Tracked false (State.start φ file).run (State.start φ file).consumer (State.start φ file).shared :=
  ⟨fun _ => ⟨rfl, by simp [State.run, State.start, VideoDecoder.loaded, Monitor.free, RunPc.locked]⟩, nofun,
    by simp [State.consumer, State.start, VideoDecoder.loaded, Monitor.free, ConsumerPc.locked]⟩

theorem tracked_step {s' : State φ π} {a : Action φ} {missed : Bool} (hI : Tracked missed s.run s.consumer s.shared)
    (hrel : (missed && s.run.releases) = false) (hstep : (decoder φ c file).step s a = some s') :
    Tracked (missed || a.noFrame) s'.run s'.consumer s'.shared := by
  obtain ⟨t, a⟩ := a
  obtain ⟨l, d, hs, rfl⟩ := Program.next_eq_some hstep
  cases t with
  | run => exact (run_move hs).tracked hI hrel
  | consumer =>
      rw [show Action.noFrame ⟨.consumer, a⟩ = false from rfl, Bool.or_false]
      exact (consumer_move hs).tracked hI
  | audio =>
      have heq := congrArg Monitor.holder (audio_move hs).decode_eq
      rw [show Action.noFrame ⟨.audio, a⟩ = false from rfl, Bool.or_false]
      exact ⟨fun hm => ⟨(hI.run hm).1, heq ▸ (hI.run hm).2⟩, fun hm => ⟨(hI.away hm).1, heq ▸ (hI.away hm).2⟩,
        heq ▸ hI.consumer⟩

/-- Up to the first unlock or wait after an answer without a frame the mutex is tracked, and there the discipline is
lost. -/
theorem discipline_run (hr : (decoder φ c file).Run h s) :
    releasesLate false h s = false ∧ Tracked (missed h) s.run s.consumer s.shared ∧
      (∀ u ∈ visited h s, LockDiscipline u) ∨
    releasesLate false h s = true ∧ ∃ u ∈ visited h s, ¬ LockDiscipline u := by
  refine System.RunWhen.induction (P := fun h s => releasesLate false h s = false ∧
    Tracked (missed h) s.run s.consumer s.shared ∧ (∀ u ∈ visited h s, LockDiscipline u) ∨
      releasesLate false h s = true ∧ ∃ u ∈ visited h s, ¬ LockDiscipline u) ?_ ?_ hr
  · rintro _ rfl
    refine Or.inl ⟨rfl, tracked_start file, fun u hu => ?_⟩
    rw [List.mem_singleton.mp hu]
    exact (tracked_start file).discipline_iff.mpr rfl
  · rintro h u a s - (⟨hl, hI, hall⟩ | ⟨hl, v, hv, hnot⟩) - hstep
    · have hI' := tracked_step hI (not_late_last hl) hstep
      rw [← missed_snoc h u a] at hI'
      rw [releasesLate_snoc, hl, Bool.false_or, Bool.false_or]
      cases hlate : missed (h ++ [(u, a)]) && s.run.releases with
      | false =>
          exact Or.inl ⟨rfl, hI', (forall_visited_snoc h u s a _).mpr ⟨hall, hI'.discipline_iff.mpr hlate⟩⟩
      | true =>
          refine Or.inr ⟨rfl, s, mem_visited_last _ s, fun hd => ?_⟩
          rw [hI'.discipline_iff, hlate] at hd
          cases hd
    · rw [releasesLate_snoc, hl, Bool.true_or]
      exact Or.inr ⟨rfl, v, mem_visited_before hv, hnot⟩

/-- **The lock discipline** holds up to the first unlock or wait of `run` after an answer without a frame, and is lost
there: it holds in every state of a run if and only if `run` has not come so far. -/
theorem lock_discipline (hr : (decoder φ c file).Run h s) :
    (∀ u ∈ visited h s, LockDiscipline u) ↔ releasesLate false h s = false := by
  rcases discipline_run hr with ⟨hl, -, hall⟩ | ⟨hl, u, hu, hnot⟩
  · exact iff_of_true hall hl
  · exact iff_of_false (fun hall => hnot (hall u hu)) (by rw [hl]; nofun)

end

/-- The destructor takes the mutex while `run` comes back with its first packet sent. -/
theorem lock_discipline_delete : ∃ h s, (videoDecoder 1).Run h s ∧ s.run = .testFull ∧ s.consumer = .delVideo ∧
    s.shared.decode.holder = some .consumer ∧ ∀ u ∈ visited h s, LockDiscipline u := by
  obtain ⟨h, s, hr, hlate, hrun, hcons, hhold⟩ := (videoDecoder 1).exists_run rfl
    (Action.runs 5 ++ Action.receives .eagain ++ Action.calls .delete 1 ++ Action.runs 11)
    (fun h s => releasesLate false h s = false ∧ s.run = .testFull ∧ s.consumer = .delVideo ∧
      s.shared.decode.holder = some .consumer) (by decide +kernel)
  exact ⟨h, s, hr, hrun, hcons, hhold, (lock_discipline hr).mpr hlate⟩

/-- The thread has published a frame and reads its next packet; it comes back to its unlock without the mutex, which
the consumer holds. -/
theorem unlocks_other : ∃ h s, (videoDecoder 2).Run h s ∧ s.run = .unlock ∧ s.consumer = .advance ∧
    s.shared.decode.holder = some .consumer ∧ ¬ LockDiscipline s := by
  obtain ⟨h, s, hr, hrun, hcons, hhold⟩ := (videoDecoder 2).exists_run rfl
    (Action.decodes ⟨7, 0⟩ ++ Action.runs 9 ++ Action.receives .eagain ++ Action.calls .nextVideoFrame 3 ++
      Action.runs 14)
    (fun _ s => s.run = .unlock ∧ s.consumer = .advance ∧ s.shared.decode.holder = some .consumer) (by decide +kernel)
  refine ⟨h, s, hr, hrun, hcons, hhold, fun hdisc => ?_⟩
  have hrel := hdisc.run_releases (by rw [hrun]; rfl)
  rw [hhold] at hrel
  cases hrel

/-! ## The wake-up -/

/-- The consumer holds the mutex and has yet to advance, or to set `videoOutputEnded`, or has just advanced. -/
def ConsumerPc.exposed : ConsumerPc → Bool
  | .advance | .signal | .unlock | .delVideo => true
  | _ => false

def ConsumerPc.owesSignal : ConsumerPc → Bool
  | .signal | .delAudio | .delSignal => true
  | _ => false

def ConsumerPc.endedSet : ConsumerPc → Bool
  | .delAudio | .delSignal | .delUnlock | .delJoin | .delFree | .deleted => true
  | _ => false

def RunPc.unlocking : RunPc φ π → Bool
  | .unlock => true
  | _ => false

/-- `run` does not unlock while the consumer is in the middle of its critical section. -/
def unlocksOwn (s : State φ π) (a : Action φ) : Prop :=
  a.1 = .run → s.run.unlocking = true → s.consumer.exposed = false

instance (s : State φ π) (a : Action φ) : Decidable (unlocksOwn s a) := inferInstanceAs (Decidable (_ → _ → _))

def VideoDecoder.ringFull (d : VideoDecoder φ π) : Prop :=
  d.videoOutputEnded = false ∧ d.totalFramesBuffered = d.currentFrameDisplayed + 3

/-- What `run` knows on its way to `decodeCondvar.wait()`. -/
def RunPc.knowsFull (d : VideoDecoder φ π) : RunPc φ π → Prop
  | .testFull => d.videoOutputEnded = true ∨ d.decode.holder = some .run ∨
      d.totalFramesBuffered ≤ d.currentFrameDisplayed + 2
  | .testHas => d.videoOutputEnded = true
  | .checkEnded => d.videoOutputEnded = true ∨
      d.decode.holder = some .run ∧ d.totalFramesBuffered = d.currentFrameDisplayed + 3
  | .wait => d.decode.holder = some .run ∧ d.ringFull
  | _ => True

/-- What keeps a wake-up from being lost. -/
structure WakeUp (l : RunPc φ π) (k : ConsumerPc) (d : VideoDecoder φ π) : Prop where
  knows : l.knowsFull d
  awake : l ≠ .waiting → d.decode.asleep = []
  sleeper : d.decode.asleep = [] ∨ d.decode.asleep = [.run]
  holds : k.exposed = true → d.decode.holder = some .consumer ∨ l.leaving = true
  ended : k.endedSet = true → d.videoOutputEnded = true
  asleep : Thread.run ∈ d.decode.asleep → k.owesSignal = true ∨ d.ringFull

theorem WakeUp.not_mem {l : RunPc φ π} {k : ConsumerPc} {d : VideoDecoder φ π} (h : WakeUp l k d)
    (hl : l ≠ .waiting) : Thread.run ∉ d.decode.asleep := by
  rw [h.awake hl]
  exact List.not_mem_nil

theorem WakeUp.not_exposed {l : RunPc φ π} {k : ConsumerPc} {d : VideoDecoder φ π} (h : WakeUp l k d)
    (hl : l.leaving = false) (hn : d.decode.holder ≠ some .consumer) : ¬ k.exposed = true := by
  intro hk
  rcases h.holds hk with hc | hc
  · exact hn hc
  · rw [hl] at hc
    cases hc

theorem RunMove.wakeUp {c : Container} {a : RunAct φ} {l l' : RunPc φ π} {d d' : VideoDecoder φ π} {k : ConsumerPc}
    (h : RunMove c a l d l' d') (hr : RunRing l d) (hw : WakeUp l k d)
    (hok : l.unlocking = true → k.exposed = false) : WakeUp l' k d' := by
  have hmem := fun hl => hw.not_mem hl
  have hexp := fun hl => hw.not_exposed hl
  obtain ⟨hknows, hawake, hsleeper, hholds, hended, hasleep⟩ := hw
  cases h with
  | lockFirst hn | lock hn =>
      exact ⟨Or.inr (Or.inl rfl), fun _ => hawake nofun, hsleeper,
        fun hk => absurd hk (hexp rfl (by rw [hn]; exact nofun)), hended, hasleep⟩
  | relock hs hn =>
      have hnil := hsleeper.resolve_right fun hl => hs (by rw [hl]; exact List.mem_singleton_self _)
      exact ⟨Or.inr (Or.inl rfl), fun _ => hnil, hsleeper,
        fun hk => absurd hk (hexp rfl (by rw [hn]; exact nofun)), hended, hasleep⟩
  | full hf =>
      rw [VideoDecoder.isFull_iff] at hf
      refine ⟨?_, fun _ => hawake nofun, hsleeper, hholds, hended, hasleep⟩
      rcases hknows with he | hhold | hle
      · exact Or.inl he
      · exact Or.inr ⟨hhold, hf⟩
      · omega
  | seenEnded he => exact ⟨he, fun _ => hawake nofun, hsleeper, hholds, hended, hasleep⟩
  | has =>
      split_ifs
      · exact ⟨Or.inl hknows, fun _ => hawake nofun, hsleeper, hholds, hended, hasleep⟩
      · exact ⟨trivial, fun _ => hawake nofun, hsleeper, hholds, hended, hasleep⟩
  | leave he => exact ⟨Or.inl he, fun _ => hawake nofun, hsleeper, hholds, hended, hasleep⟩
  | unlock =>
      have hk := hok rfl
      exact ⟨trivial, fun _ => hawake nofun, hsleeper, fun hk' => absurd hk' (by rw [hk]; exact Bool.false_ne_true),
        hended, hasleep⟩
  | @fetch _ _ f' _ _ =>
      cases f' with
      | none =>
          -- the loop head is reached without the mutex, but the ring has room
          exact ⟨Or.inr (Or.inr (hr.room rfl)), fun _ => hawake nofun, hsleeper, hholds, hended, hasleep⟩
      | some f' => exact ⟨trivial, fun _ => hawake nofun, hsleeper, hholds, hended, hasleep⟩
  | setEnded =>
      exact ⟨Or.inl rfl, fun _ => hawake nofun, hsleeper, hholds, fun _ => rfl, fun hm => absurd hm (hmem nofun)⟩
  | publish =>
      exact ⟨trivial, fun _ => hawake nofun, hsleeper, hholds, hended, fun hm => absurd hm (hmem nofun)⟩
  | goWait he =>
      obtain ⟨hhold, hfull⟩ := hknows.resolve_left (by rw [he]; exact Bool.false_ne_true)
      exact ⟨⟨hhold, he, hfull⟩, fun _ => hawake nofun, hsleeper, hholds, hended, hasleep⟩
  | @wait d =>
      obtain ⟨hhold, hfull⟩ := hknows
      have hnil : d.decode.asleep = [] := hawake nofun
      exact ⟨trivial, fun hl => absurd rfl hl, Or.inr (by simp [hnil]),
        fun hk => absurd hk (hexp rfl (by rw [hhold]; exact nofun)), hended, fun _ => Or.inr hfull⟩
  | @spurious d =>
      have hnil : (d.decode.spurious .run).asleep = [] := by
        rcases hsleeper with hs | hs <;> simp [hs]
      exact ⟨trivial, fun hl => absurd rfl hl, Or.inl hnil, hholds, hended,
        fun hm => hasleep (List.mem_of_mem_erase hm)⟩
  | unlockLast => exact ⟨trivial, fun _ => hawake nofun, hsleeper, fun _ => Or.inr rfl, hended, hasleep⟩
  | _ => exact ⟨trivial, fun _ => hawake nofun, hsleeper, hholds, hended, hasleep⟩

theorem RunPc.knowsFull.stable {l : RunPc φ π} {d d' : VideoDecoder φ π} (h : l.knowsFull d)
    (hcur : d.currentFrameDisplayed ≤ d'.currentFrameDisplayed) (htot : d'.totalFramesBuffered = d.totalFramesBuffered)
    (hend : d.videoOutputEnded = true → d'.videoOutputEnded = true)
    (hhold : d.decode.holder = some .run → l.leaving = true ∨ d.videoOutputEnded = true ∨
      d'.decode.holder = some .run ∧ d'.currentFrameDisplayed = d.currentFrameDisplayed ∧
        d'.videoOutputEnded = d.videoOutputEnded) : l.knowsFull d' := by
  cases l with
  | testFull =>
      rcases h with he | hr | hle
      · exact Or.inl (hend he)
      · rcases hhold hr with hl | he | ⟨hr', -⟩
        · cases hl
        · exact Or.inl (hend he)
        · exact Or.inr (Or.inl hr')
      · exact Or.inr (Or.inr (by omega))
  | testHas => exact hend h
  | checkEnded =>
      rcases h with he | ⟨hr, hfull⟩
      · exact Or.inl (hend he)
      · rcases hhold hr with hl | he | ⟨hr', hcur', -⟩
        · cases hl
        · exact Or.inl (hend he)
        · exact Or.inr ⟨hr', by omega⟩
  | wait =>
      obtain ⟨hr, he, hfull⟩ := h
      rcases hhold hr with hl | he' | ⟨hr', hcur', hend'⟩
      · cases hl
      · rw [he] at he'
        cases he'
      · exact ⟨hr', hend'.trans he, by omega⟩
  | _ => trivial

theorem ConsumerMove.wakeUp {a : ConsumerAct} {l : RunPc φ π} {k k' : ConsumerPc} {d d' : VideoDecoder φ π}
    (h : ConsumerMove a k d k' d') (hw : WakeUp l k d) : WakeUp l k' d' := by
  obtain ⟨hknows, hawake, hsleeper, hholds, hended, hasleep⟩ := hw
  have hfree : d.decode.holder = none → d.decode.holder ≠ some .run := fun hn => by rw [hn]; exact nofun
  -- inside its critical section the consumer has the mutex, unless `run` is past its last unlock
  have hown : k.exposed = true → d.decode.holder = some .run → l.leaving = true := fun hk hr =>
    (hholds hk).resolve_left fun hc => by rw [hc] at hr; cases hr
  have hnil : d.decode.asleep.tail = [] := by rcases hsleeper with hs | hs <;> rw [hs] <;> rfl
  cases h with
  | lock hn =>
      exact ⟨hknows.stable le_rfl rfl id fun hr => absurd hr (hfree hn), hawake, hsleeper, fun _ => Or.inl rfl, nofun,
        hasleep⟩
  | advance =>
      exact ⟨hknows.stable (Nat.le_succ _) rfl id fun hr => Or.inl (hown rfl hr), hawake, hsleeper, hholds, nofun,
        fun _ => Or.inl rfl⟩
  | signal =>
      exact ⟨hknows.stable le_rfl rfl id fun hr => Or.inl (hown rfl hr), fun _ => hnil, Or.inl hnil, hholds, nofun,
        fun hm => by simp [hnil] at hm⟩
  | unlock =>
      exact ⟨hknows.stable le_rfl rfl id fun hr => Or.inl (hown rfl hr), hawake, hsleeper, nofun, nofun, hasleep⟩
  | bufFull | bufEnded => split_ifs <;> exact ⟨hknows, hawake, hsleeper, nofun, nofun, hasleep⟩
  | delLock hn =>
      exact ⟨hknows.stable le_rfl rfl id fun hr => absurd hr (hfree hn), hawake, hsleeper, fun _ => Or.inl rfl, nofun,
        hasleep⟩
  | delVideo =>
      exact ⟨hknows.stable le_rfl rfl (fun _ => rfl) fun hr => Or.inl (hown rfl hr), hawake, hsleeper, nofun,
        fun _ => rfl, fun _ => Or.inl rfl⟩
  | delAudio =>
      exact ⟨hknows.stable le_rfl rfl id fun hr => Or.inr (Or.inr ⟨hr, rfl, rfl⟩), hawake, hsleeper, nofun, hended,
        fun _ => Or.inl rfl⟩
  | delSignal =>
      exact ⟨hknows.stable le_rfl rfl id fun hr => Or.inr (Or.inr ⟨hr, rfl, rfl⟩), fun _ => hnil, Or.inl hnil, nofun,
        hended, fun hm => by simp [hnil] at hm⟩
  | delUnlock =>
      exact ⟨hknows.stable le_rfl rfl id fun _ => Or.inr (Or.inl (hended rfl)), hawake, hsleeper, nofun, hended,
        hasleep⟩
  | delJoin | delFree => exact ⟨hknows, hawake, hsleeper, nofun, hended, hasleep⟩
  | _ => exact ⟨hknows, hawake, hsleeper, nofun, nofun, hasleep⟩

theorem AudioMove.wakeUp {c : Container} {a : AudioAct} {m m' : AudioPc π} {l : RunPc φ π} {k : ConsumerPc}
    {d d' : VideoDecoder φ π} (h : AudioMove c a m d m' d') (hw : WakeUp l k d) : WakeUp l k d' := by
  obtain ⟨hknows, hawake, hsleeper, hholds, hended, hasleep⟩ := hw
  have heff := h.effect
  have hcur := heff.displayed_eq nofun
  have htot := heff.total_eq nofun
  have hend := heff.ended_eq rfl
  have hdec := h.decode_eq
  refine ⟨hknows.stable hcur.ge htot heff.ended_of fun hr => Or.inr (Or.inr ⟨by rw [hdec, hr], hcur, hend⟩),
    by rwa [hdec], by rwa [hdec], by rwa [hdec], by rwa [hend], ?_⟩
  rw [hdec, VideoDecoder.ringFull, hend, htot, hcur]
  exact hasleep

section
variable {c : Container} {file : List (Demuxed π)} {h : List (State φ π × Action φ)} {s : State φ π}

theorem wake_up (hr : (decoder φ c file).RunWhen unlocksOwn h s) : WakeUp s.run s.consumer s.shared := by
  refine System.RunWhen.induction (P := fun _ s => WakeUp s.run s.consumer s.shared) ?_ ?_ hr
  · rintro _ rfl
    exact ⟨trivial, fun _ => rfl, Or.inl rfl, nofun, nofun, nofun⟩
  · rintro h s ⟨t, a⟩ s' hr hw hok hstep
    obtain ⟨l, d, hs, rfl⟩ := Program.next_eq_some hstep
    cases t with
    | run => exact (run_move hs).wakeUp (run_ring hr.run) hw (hok rfl)
    | consumer => exact (consumer_move hs).wakeUp hw
    | audio => exact (audio_move hs).wakeUp hw

/-- **No lost wake-up**, in every run in which `run` never unlocks the mutex while the consumer is in the middle of its
critical section: a thread asleep with nobody inside the mutex has a full ring and no end to see, and the destructor
joins no thread asleep. -/
theorem no_lost_wakeup (hr : (decoder φ c file).RunWhen unlocksOwn h s) (hs : Thread.run ∈ s.shared.decode.asleep)
    (hl : s.consumer.locked = false) :
    (s.shared.getNumBuffered = 3 ∧ s.shared.videoOutputEnded = false) ∧ s.consumer ≠ .delJoin := by
  have hw := wake_up hr
  have howes : s.consumer.owesSignal = false := by
    revert hl
    cases s.consumer <;> first | exact fun _ => rfl | exact nofun
  obtain ⟨he, hfull⟩ := (hw.asleep hs).resolve_left (by rw [howes]; exact Bool.false_ne_true)
  refine ⟨⟨?_, he⟩, fun hj => ?_⟩
  · rw [VideoDecoder.getNumBuffered]
    omega
  · have := hw.ended (by rw [hj]; rfl)
    rw [he] at this
    cases this

end

/-- The thread sleeps before a full ring. -/
theorem no_lost_wakeup_full : ∃ s : State Nat Unit, Thread.run ∈ s.shared.decode.asleep ∧
    (s.shared.getNumBuffered = 3 ∧ s.shared.videoOutputEnded = false) ∧ s.consumer ≠ .delJoin := by
  obtain ⟨h, s, hr, hok, hs, hl⟩ := (videoDecoder 3).exists_run rfl
    (Action.decodes ⟨7, 0⟩ ++ Action.runs 4 ++ Action.decodes ⟨8, 40⟩ ++ Action.runs 4 ++ Action.decodes ⟨9, 80⟩ ++
      Action.runs 8)
    (fun h s => (∀ p ∈ h, unlocksOwn p.1 p.2) ∧ Thread.run ∈ s.shared.decode.asleep ∧ s.consumer.locked = false)
    (by decide +kernel)
  exact ⟨s, hs, no_lost_wakeup (hr.when hok) hs hl⟩

/-- After `AVERROR(EAGAIN)` the thread frees the mutex under the destructor, takes it, and finds the ring full and
`videoOutputEnded` false. The destructor sets `videoOutputEnded`, signals while nobody sleeps, and unlocks; the thread
goes to sleep, and the destructor joins it. -/
theorem dispose_hangs : ∃ h s, (videoDecoder 3).Run h s ∧ Thread.run ∈ s.shared.decode.asleep ∧
    s.consumer = .delJoin ∧ s.consumer.locked = false ∧ s.shared.videoOutputEnded = true ∧
      s.shared.runReturned = false :=
  (videoDecoder 3).exists_run rfl
    (Action.decodes ⟨7, 0⟩ ++ Action.runs 4 ++ Action.decodes ⟨8, 40⟩ ++ Action.runs 9 ++ Action.receives .eagain ++
      Action.runs 11 ++ Action.calls .delete 1 ++ Action.runs 4 ++ Action.receives (.frame ⟨9, 80⟩) ++ Action.runs 7 ++
      Action.consumes 4 ++ Action.runs 1) _ (by decide +kernel)

end ArcVideo
