import ArcVideo.Conc.Rank
import ArcVideo.Decoder.Mutex

/-!
# Waiting for `decodeMutex`

`nextVideoFrame` and the destructor take `decodeMutex`, which `run` takes and gives up around every frame.

* `HolderInv` : whoever holds the mutex is in one of its critical sections, in every run and however the codec answers;
* `RunPc.toRelease` : how far `run` is from giving the mutex up;
* `short_wait` : a thread that waits for the mutex waits for at most six steps of `run`, none of them in the codec or in
  the demuxer.
-/

namespace ArcVideo
open Conc

variable {φ π : Type}

/-! ## The holder -/

/-- The thread that holds the mutex is at a place of its critical sections. -/
structure HolderInv (l : RunPc φ π) (k : ConsumerPc) (d : VideoDecoder φ π) : Prop where
  run : d.decode.holder = some .run → l.locked = true
  consumer : d.decode.holder = some .consumer → k.locked = true
  audio : d.decode.holder ≠ some .audio

theorem RunMove.holder {c : Container} {a : RunAct φ} {l l' : RunPc φ π} {d d' : VideoDecoder φ π}
    (h : RunMove c a l d l' d') (hl : d.decode.holder = some .run → l.locked = true) :
    (d'.decode.holder = some .run → l'.locked = true) ∧
      ∀ t, t ≠ .run → d'.decode.holder = some t → d.decode.holder = some t := by
  cases h with
  | lockFirst hn | lock hn | relock _ hn =>
      refine ⟨fun _ => rfl, fun t ht he => ?_⟩
      exact absurd (Option.some.inj he).symm ht
  | unlock | wait | unlockLast => exact ⟨nofun, nofun⟩
  | has => split_ifs <;> exact ⟨fun _ => rfl, fun _ _ => id⟩
  | @fetch _ _ f' _ _ =>
      refine ⟨fun he => ?_, fun _ _ => id⟩
      exact absurd (hl he) Bool.false_ne_true
  | frame | eagain | eof | error | callback | setEnded | scale | scaled | writePts | publish | spurious | cleanup
  | ret =>
      exact ⟨fun he => absurd (hl he) Bool.false_ne_true, fun _ _ => id⟩
  | _ => exact ⟨fun _ => rfl, fun _ _ => id⟩

theorem ConsumerMove.holder {a : ConsumerAct} {l l' : ConsumerPc} {d d' : VideoDecoder φ π}
    (h : ConsumerMove a l d l' d') (hl : d.decode.holder = some .consumer → l.locked = true) :
    (d'.decode.holder = some .consumer → l'.locked = true) ∧
      ∀ t, t ≠ .consumer → d'.decode.holder = some t → d.decode.holder = some t := by
  cases h with
  | lock hn | delLock hn =>
      refine ⟨fun _ => rfl, fun t ht he => ?_⟩
      exact absurd (Option.some.inj he).symm ht
  | unlock | delUnlock => exact ⟨nofun, nofun⟩
  | advance | signal | delVideo | delAudio | delSignal => exact ⟨fun _ => rfl, fun _ _ => id⟩
  | bufFull | bufEnded => exact ⟨fun he => absurd (hl he) Bool.false_ne_true, fun _ _ => id⟩
  | _ => exact ⟨fun he => absurd (hl he) Bool.false_ne_true, fun _ _ => id⟩

section
variable {c : Container} {file : List (Demuxed π)} {h : List (State φ π × Action φ)} {s : State φ π}

theorem holder_inv (hr : (decoder φ c file).Run h s) : HolderInv s.run s.consumer s.shared := by
  refine System.RunWhen.induction (P := fun _ s => HolderInv s.run s.consumer s.shared) ?_ ?_ hr
  · rintro _ rfl
    exact ⟨nofun, nofun, nofun⟩
  · rintro h s ⟨t, a⟩ s' - ⟨hrun, hcons, haudio⟩ - hstep
    obtain ⟨l, d, hs, rfl⟩ := Program.next_eq_some hstep
    cases t with
    | run =>
        obtain ⟨hown, hother⟩ := (run_move hs).holder hrun
        exact ⟨hown, fun he => hcons (hother _ (by decide) he), fun he => haudio (hother _ (by decide) he)⟩
    | consumer =>
        obtain ⟨hown, hother⟩ := (consumer_move hs).holder hcons
        exact ⟨fun he => hrun (hother _ (by decide) he), hown, fun he => haudio (hother _ (by decide) he)⟩
    | audio =>
        have hdec := (audio_move hs).decode_eq
        refine ⟨?_, ?_, ?_⟩ <;> rw [Config.put_shared, hdec]
        · exact hrun
        · exact hcons
        · exact haudio

theorem HolderInv.free {l : RunPc φ π} {k : ConsumerPc} {d : VideoDecoder φ π} (h : HolderInv l k d)
    (hl : l.locked = false) (hk : k.locked = false) : d.decode.holder = none := by
  cases hd : d.decode.holder with
  | none => rfl
  | some t =>
      cases t with
      | run => exact absurd (hl.symm.trans (h.run hd)) Bool.false_ne_true
      | consumer => exact absurd (hk.symm.trans (h.consumer hd)) Bool.false_ne_true
      | audio => exact absurd hd h.audio

end

/-! ## The critical sections of `run` -/

/-- The steps `run` takes at most until it gives the mutex up. -/
def RunPc.toRelease : RunPc φ π → Nat
  | .testFull => 6
  | .testEnded => 5
  | .testHas => 4
  | .testLoop => 3
  | .checkEnded => 2
  | .unlock | .wait | .unlockLast => 1
  | _ => 0

/-- In a critical section `run` waits for nothing: no lock, no codec, no demuxer. -/
theorem RunPc.enabled_of_locked {l : RunPc φ π} (h : l.locked = true) (c : Container) (d : VideoDecoder φ π) :
    ∃ r, runStep c .step l d = some r := by
  cases l <;> first | exact ⟨_, rfl⟩ | cases h

theorem RunMove.toRelease {c : Container} {a : RunAct φ} {l l' : RunPc φ π} {d d' : VideoDecoder φ π}
    (h : RunMove c a l d l' d') (hl : l.locked = true) :
    a = .step ∧ (l'.toRelease + 1 ≤ l.toRelease ∨ d'.decode.holder = none) := by
  cases h with
  | full | notFull | seenEnded | notEnded | leave | enter | stop | goWait =>
      exact ⟨rfl, Or.inl (by simp [RunPc.toRelease])⟩
  | has => split_ifs <;> exact ⟨rfl, Or.inl (by simp [RunPc.toRelease])⟩
  | unlock | wait | unlockLast => exact ⟨rfl, Or.inr rfl⟩
  | _ => cases hl

def Action.ofRun (a : Action φ) : Bool := decide (a.1 = .run)

def runHolds (s : State φ π) : Prop := s.shared.decode.holder = some .run

/-- The steps `run` takes at most until it gives the mutex up, 0 when it does not hold it. -/
def State.toRelease (s : State φ π) : Nat := if s.shared.decode.holder = some .run then s.run.toRelease else 0

theorem RunPc.toRelease_pos {l : RunPc φ π} (h : l.locked = true) : 1 ≤ l.toRelease := by
  cases l <;> first | exact Nat.le_add_left 1 _ | cases h

theorem RunPc.toRelease_le (l : RunPc φ π) : l.toRelease ≤ 6 := by
  cases l <;> simp [RunPc.toRelease]

section
variable {c : Container} {file : List (Demuxed π)} {h : List (State φ π × Action φ)} {s : State φ π}

theorem toRelease_step {s' : State φ π} {a : Action φ} (hhold : runHolds s) (hl : s.run.locked = true)
    (hstep : (decoder φ c file).step s a = some s') : s'.toRelease + a.ofRun.toNat ≤ s.toRelease := by
  have hpos := RunPc.toRelease_pos hl
  have hs : s.toRelease = s.run.toRelease := if_pos hhold
  obtain ⟨t, a⟩ := a
  obtain ⟨l, d, hmove, rfl⟩ := Program.next_eq_some hstep
  rw [hs, State.toRelease, Config.put_shared]
  cases t with
  | run =>
      change _ + 1 ≤ _
      rcases ((run_move hmove).toRelease hl).2 with hlt | hfree
      · split_ifs
        · exact hlt
        · omega
      · rw [hfree, if_neg nofun]
        omega
  | consumer | audio =>
      change _ + 0 ≤ s.run.toRelease
      split_ifs
      · exact le_refl _
      · omega

theorem ranked_release (c : Container) (file : List (Demuxed π)) :
    Ranked (decoder φ c file) (fun s _ => runHolds s) (fun _ a => a.ofRun) (fun _ _ => false) 0
      (fun s => ∃ g, (decoder φ c file).Run g s) State.toRelease where
  keeps := fun _ _ _ ⟨_, hg⟩ _ hstep => ⟨_, hg.snoc trivial hstep⟩
  lowers := fun _ _ _ ⟨_, hg⟩ hhold hstep => toRelease_step hhold ((holder_inv hg).run hhold) hstep

/-- **The wait for `decodeMutex` is short**, in every run and however the codec answers: a consumer about to take the
mutex finds it free or with `run`; while `run` keeps it, `run` is in a critical section, not in the codec or the
demuxer, it can always take its next step, and it takes at most six. -/
theorem short_wait (hr : (decoder φ c file).Run h s) :
    (s.consumer.acquires = true → s.shared.decode.holder = none ∨ runHolds s) ∧
    ∀ h' s', (decoder φ c file).Path (fun s _ => runHolds s) s h' s' →
      h'.countP (fun p => p.2.ofRun) ≤ 6 ∧ (∀ p ∈ h', p.1.run.locked = true) ∧
      (runHolds s' → s'.run.locked = true ∧ ∃ t, (decoder φ c file).step s' ⟨.run, .step⟩ = some t) := by
  refine ⟨fun hk => ?_, fun h' s' hp => ?_⟩
  · have hinv := holder_inv hr
    cases hd : s.shared.decode.holder with
    | none => exact Or.inl rfl
    | some t =>
        cases t with
        | run => exact Or.inr hd
        | consumer => exact absurd (hinv.consumer hd) (ConsumerPc.not_locked hk)
        | audio => exact absurd hd hinv.audio
  · have hR := ranked_release (φ := φ) c file
    have hcount := hR.count_le hp ⟨h, hr⟩
    have htop : s.toRelease ≤ 6 := by
      rw [State.toRelease]
      split_ifs
      · exact RunPc.toRelease_le _
      · exact Nat.zero_le 6
    refine ⟨by omega, fun p hmem => ?_, fun hhold => ?_⟩
    · obtain ⟨g, hg⟩ := hp.invariant_before hR.keeps ⟨h, hr⟩ p hmem
      exact (holder_inv hg).run (hp.ok_of_mem p hmem)
    · obtain ⟨g, hg⟩ := hR.keeps_path hp ⟨h, hr⟩
      have hl := (holder_inv hg).run hhold
      obtain ⟨r, hstep⟩ := RunPc.enabled_of_locked hl c s'.shared
      exact ⟨hl, _, congrArg (Option.map _) hstep⟩

end

/-- The consumer waits for the mutex while `run` tests the ring. -/
theorem short_wait_lock : ∃ s : State Nat Unit, s.consumer = .lock ∧ runHolds s ∧ s.run = .testFull ∧
    ∀ h' s', (videoDecoder 1).Path (fun s _ => runHolds s) s h' s' → h'.countP (fun p => p.2.ofRun) ≤ 6 := by
  obtain ⟨h, s, hr, hcons, hhold, hrun⟩ := (videoDecoder 1).exists_run rfl
    (Action.decodes ⟨7, 0⟩ ++ Action.runs 5 ++ Action.calls .nextVideoFrame 2)
    (fun _ s => s.consumer = .lock ∧ s.shared.decode.holder = some .run ∧ s.run = .testFull) (by decide +kernel)
  exact ⟨s, hcons, hhold, hrun, fun h' s' hp => ((short_wait hr).2 h' s' hp).1⟩

end ArcVideo
