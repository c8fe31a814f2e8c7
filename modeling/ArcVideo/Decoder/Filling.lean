import ArcVideo.Decoder.Dispose

/-!
# The ring fills

Between two calls of the player nothing keeps the decoding thread from its work: however the threads are interleaved, it
ends up asleep before a full ring or at its end, after a bounded number of steps, unless it is put off for ever.

* `resting` : the steps of the other threads, while the consumer is between two calls;
* `State.settled` : `run` sleeps and the ring is full, or `run` has ended;
* `someone_fills` : until then a step that counts is possible; `ranked_filling` : and there are not too many of them;
* `ring_fills` : both together.
-/

namespace ArcVideo
open Conc

variable {φ π : Type}

def resting (_ : State φ π) (a : Action φ) : Prop := a.1 ≠ .consumer

/-- `run` has nothing to do: the ring is full, or the video has ended. -/
def State.settled (s : State φ π) : Prop :=
  Thread.run ∈ s.shared.decode.asleep ∧ s.shared.ringFull ∨ s.run = .returned

/-- The states between two calls that the runs of `no_lost_wakeup` reach. -/
def BetweenCalls (c : Container) (file : List (Demuxed π)) (s : State φ π) : Prop :=
  (∃ g, (decoder φ c file).RunWhen unlocksOwn g s) ∧ s.consumer = .idle

theorem RunPc.returned_of_toGo {l : RunPc φ π} (h : l.toGo false = 0) : l = .returned := by
  cases l with
  | fetch f =>
      cases f with
      | unlock p b => cases p <;> cases b <;> exact absurd h (by simp [RunPc.toGo, PacketLoop.toGo])
      | _ => exact absurd h (by simp [RunPc.toGo, PacketLoop.toGo])
  | returned => rfl
  | _ => exact absurd h (by simp [RunPc.toGo])

section
variable {c : Container} {file : List (Demuxed π)} {h : List (State φ π × Action φ)} {s : State φ π}

theorem BetweenCalls.awake (hs : BetweenCalls c file s) (hnot : ¬s.settled) :
    Thread.run ∉ s.shared.decode.asleep := by
  obtain ⟨⟨g, hg⟩, hidle⟩ := hs
  intro hm
  rcases (wake_up hg).asleep hm with howes | hfull
  · rw [hidle] at howes
    cases howes
  · exact hnot (Or.inl ⟨hm, hfull⟩)

/-- **Until the ring is full or the video has ended, someone can work.** -/
theorem someone_fills (hs : BetweenCalls c file s) (hnot : ¬s.settled) : ∃ a r, resting s a ∧
    (decoder φ c file).step s a = some r ∧ works s a = true := by
  have hret : s.run.toGo false ≠ 0 := fun hl => hnot (Or.inr (RunPc.returned_of_toGo hl))
  have hawake := hs.awake hnot
  obtain ⟨⟨g, hg⟩, hidle⟩ := hs
  exact run_works hg.run (by rw [hidle]; rfl) hawake hret

theorem BetweenCalls.not_wakes (hs : BetweenCalls c file s) (hnot : ¬s.settled) (a : Action φ) :
    wakes s a = false := by
  have hawake := hs.awake hnot
  obtain ⟨t, a⟩ := a
  cases t with
  | consumer | audio => rfl
  | run =>
      cases a with
      | spurious => exact decide_eq_false hawake
      | _ => rfl

theorem ranked_filling (c : Container) (file : List (Demuxed π)) :
    Ranked (decoder φ c file) resting works wakes 20 (BetweenCalls c file) (State.toDo c file) where
  keeps := by
    rintro s ⟨t, a⟩ s' ⟨⟨g, hg⟩, hidle⟩ hc hstep
    refine ⟨⟨_, hg.snoc (fun _ _ => by rw [hidle]; rfl) hstep⟩, ?_⟩
    obtain ⟨l, d, hs, rfl⟩ := Program.next_eq_some hstep
    cases t with
    | consumer => exact absurd rfl hc
    | run | audio => exact hidle
  lowers := fun _ _ _ ⟨⟨_, hg⟩, _⟩ hok hstep => toDo_step_of_ne hg.run hok hstep

/-- **The ring fills** while the player is between two calls, from every state that a run reaches in which `run` has
freed no mutex of a consumer at work. However the decoding thread and the audio thread go on, the steps that count (not
the spurious wake-ups, the calls of the read callback and what the audio thread does outside its packet loop) are no
more than `toDo` and 20 for each spurious wake-up; until `run` sleeps before three frames or has ended one of them is
possible; and when these are not put off for ever, it comes to that. -/
theorem ring_fills (hr : (decoder φ c file).RunWhen unlocksOwn h s) (hidle : s.consumer = .idle) :
    (∀ h' s', (decoder φ c file).Path resting s h' s' →
      h'.countP (fun p => works p.1 p.2) ≤ s.toDo c file + 20 * h'.countP (fun p => wakes p.1 p.2) ∧
      (¬s'.settled → ∃ a r, resting s' a ∧ (decoder φ c file).step s' a = some r ∧ works s' a = true)) ∧
    (∀ states actions, (decoder φ c file).Endless resting s states actions →
      (decoder φ c file).Fair resting works states actions → ∃ i, (states i).settled) ∧
    ∃ h' s', (decoder φ c file).Path resting s h' s' ∧ s'.settled := by
  have hR := ranked_filling (φ := φ) c file
  have hs : BetweenCalls c file s := ⟨⟨h, hr⟩, hidle⟩
  refine ⟨fun h' s' hp => ⟨?_, fun hnot => ?_⟩, fun states actions hp hfair => ?_, ?_⟩
  · have hcount := hR.count_le hp hs
    omega
  · exact someone_fills (hR.keeps_path hp hs) hnot
  · by_contra hnever
    have hnot : ∀ i, ¬(states i).settled := fun i hi => hnever ⟨i, hi⟩
    have hcalm : ∀ i, 0 ≤ i → wakes (states i) (actions i) = false := fun i _ =>
      (hR.keeps_endless hp hs i).not_wakes (hnot i) (actions i)
    exact hnever (hR.eventually State.settled (fun u hu => someone_fills hu) hs hp hfair ⟨0, hcalm⟩)
  · refine hR.reaches State.settled (fun u hu hnot => ?_) hs
    obtain ⟨a, r, hc, hstep, hw⟩ := someone_fills hu hnot
    exact ⟨a, r, hc, hstep, hw, ArcVideo.not_wakes hw⟩

end

/-- The first frame has been taken; the ring fills again. -/
theorem ring_fills_taken : ∃ s : State Nat Unit, s.consumer = .idle ∧ s.shared.currentFrameDisplayed = 1 ∧
    s.shared.totalFramesBuffered = 1 ∧ ∃ h' s', (videoDecoder 1).Path resting s h' s' ∧ s'.settled := by
  obtain ⟨h, s, hr, hok, hidle, hcur, htot⟩ := (videoDecoder 1).exists_run rfl
    (Action.decodes ⟨7, 0⟩ ++ Action.runs 4 ++ Action.calls .nextVideoFrame 7)
    (fun h s => (∀ p ∈ h, unlocksOwn p.1 p.2) ∧ s.consumer = .idle ∧ s.shared.currentFrameDisplayed = 1 ∧
      s.shared.totalFramesBuffered = 1) (by decide +kernel)
  exact ⟨s, hidle, hcur, htot, (ring_fills (hr.when hok) hidle).2.2⟩

end ArcVideo
