import ArcVideo.Decoder.Sequential
import ArcVideo.Decoder.Waiting

/-!
# The destructor ends

`~VideoDecoder` takes `decodeMutex`, tells both threads to stop, signals, and joins the decoding thread, which may be
decoding, reading packets behind the audio thread, writing a frame, or asleep.

* `State.toDo` : a bound on the work that is left: the destructor's steps, the packets to read and to send, the room in
  the ring, and the distance of each thread to its next landmark;
* `toDo_step` : in the destructor only a spurious wake-up raises it, and every step lowers it but for those of the
  environment (the read callback) and of an audio thread outside its packet loop;
* `someone_works` : until the destructor has ended, a step that lowers it is possible;
* `destructor_terminates` : both together, in the runs in which `run` frees no mutex of a consumer at work (the runs of
  `no_lost_wakeup`), and what follows for fair ones.
-/

namespace ArcVideo
open Conc

variable {φ π : Type}

/-! ## The work left -/

/-- The distance of a packet loop to `continue`, when no packet is left to read. -/
def PacketLoop.toGo : PacketLoop π → Nat
  | .route _ => 17
  | .unlock none true => 16
  | .lock => 15
  | .test => 14
  | .alloc => 13
  | .read _ => 12
  | .unlock _ _ => 11
  | .send _ => 10
  -- the packet sent has paid for what follows
  | .free _ => 22

/-- The distance of `run` to its end, when no packet is left to send and the ring has no room. -/
def RunPc.toGo (asleep : Bool) : RunPc φ π → Nat
  | .lockFirst | .lock => 22
  | .testFull => 21
  | .testEnded => 20
  | .testHas => 19
  | .testLoop => 18
  | .unlock => 17
  | .receive => 16
  | .fetch f => f.toGo
  | .scale _ => 14
  | .scaled _ => 13
  | .writePts _ => 12
  -- the frame published has paid for what follows
  | .publish _ => 11
  | .setEnded => 5
  | .checkEnded => 4
  | .wait => 3
  | .waiting => if asleep then 2 else 22
  | .unlockLast => 3
  | .cleanup => 2
  | .ret => 1
  | .returned => 0

def ConsumerPc.toGo : ConsumerPc → Nat
  | .delLock => 7
  | .delVideo => 6
  | .delAudio => 5
  | .delSignal => 4
  | .delUnlock => 3
  | .delJoin => 2
  | .delFree => 1
  | _ => 0

def AudioPc.toGo : AudioPc π → Nat
  | .fetch f => f.toGo
  | _ => 16

/-- The packets, NULL included, that the codec of stream `k` has not been sent. -/
def Demuxer.unsent (c : Container) (file : List (Demuxed π)) (m : Demuxer π) (k : Stream) : Nat :=
  (c.inputs file k).length - (m.codec k).sent.length

def Demuxer.toDo (c : Container) (file : List (Demuxed π)) (m : Demuxer π) : Nat :=
  6 * m.unread.length + 13 * (m.unsent c file .video + m.unsent c file .audio)

/-- A bound on the work left in the destructor. -/
def State.toDo (c : Container) (file : List (Demuxed π)) (s : State φ π) : Nat :=
  22 * s.consumer.toGo + s.shared.demuxer.toDo c file +
    12 * (s.shared.currentFrameDisplayed + 3 - s.shared.totalFramesBuffered) +
    s.run.toGo (decide (Thread.run ∈ s.shared.decode.asleep)) + s.audio.toGo

/-- All steps of `run` but calls of the read callback and spurious wake-ups. -/
def RunAct.works : RunAct φ → Bool
  | .callback | .spurious => false
  | _ => true

def AudioAct.works : AudioAct → Bool
  | .step => true
  | _ => false

/-- The steps that count: of the audio thread only those of its packet loop. -/
def works (s : State φ π) : Action φ → Bool
  | ⟨.run, a⟩ => a.works
  | ⟨.consumer, _⟩ => true
  | ⟨.audio, a⟩ => a.works && s.audio.loop.isSome

def RunAct.wakes (d : VideoDecoder φ π) : RunAct φ → Bool
  | .spurious => decide (Thread.run ∈ d.decode.asleep)
  | _ => false

def wakes (s : State φ π) : Action φ → Bool
  | ⟨.run, a⟩ => a.wakes s.shared
  | _ => false

/-! ## A step lowers it -/

/-- A step of a packet loop: a packet read pays for reading it, a packet sent for going on to the next. -/
theorem PacketLoop.Move.toDo {c : Container} {k : Stream} {f : PacketLoop π} {f' : Option (PacketLoop π)}
    {m m' : Demuxer π} (h : f.Move c k m f' m') (file : List (Demuxed π))
    (hlen : (m'.codec k).sent.length ≤ (c.inputs file k).length) :
    f'.elim 21 PacketLoop.toGo + m'.toDo c file + 1 ≤ f.toGo + m.toDo c file := by
  have hsent := congrArg List.length h.sent
  rw [List.length_append] at hsent
  have hother : ∀ j, j ≠ k → m'.unsent c file j = m.unsent c file j := fun j hj => by
    rw [Demuxer.unsent, h.codec_of_ne hj, Demuxer.unsent]
  have hsum : m'.unsent c file .video + m'.unsent c file .audio + f.sends.toList.length ≤
      m.unsent c file .video + m.unsent c file .audio := by
    have hown : m'.unsent c file k + f.sends.toList.length ≤ m.unsent c file k := by
      unfold Demuxer.unsent
      omega
    cases k with
    | video =>
        rw [hother .audio (by decide)]
        omega
    | audio =>
        rw [hother .video (by decide)]
        omega
  unfold Demuxer.toDo
  cases h with
  | readFrame hu =>
      simp only [hu, List.length_cons, PacketLoop.sends, Option.toList_none, List.length_nil, Option.elim_some,
        PacketLoop.toGo] at hsum ⊢
      omega
  | @send _ p =>
      simp only [PacketLoop.sends, Option.toList_some, List.length_singleton] at hsum
      simp only [Demuxer.sendPacket, Option.elim_some, PacketLoop.toGo] at hsum ⊢
      omega
  | route =>
      rw [Demuxer.route_unread]
      simp only [PacketLoop.sends, Option.toList_none, List.length_nil, Option.elim_some, PacketLoop.toGo] at hsum ⊢
      omega
  | @taken _ p check =>
      simp only [PacketLoop.sends, Option.toList_none, List.length_nil, Option.elim_some, PacketLoop.toGo] at hsum ⊢
      omega
  | free =>
      simp only [PacketLoop.sends, Option.toList_none, List.length_nil, Option.elim_none, PacketLoop.toGo] at hsum ⊢
      have hun : ∀ p, (m.freePacket p).unread = m.unread := fun _ => rfl
      rw [hun]
      omega
  | lock | again | drain | empty | take | alloc | readFail =>
      simp only [PacketLoop.sends, Option.toList_none, List.length_nil, Option.elim_some, PacketLoop.toGo] at hsum ⊢
      omega

/-- The work left to `run`, with the packets and the ring. -/
def RunPc.toDo (c : Container) (file : List (Demuxed π)) (l : RunPc φ π) (d : VideoDecoder φ π) : Nat :=
  l.toGo (decide (Thread.run ∈ d.decode.asleep)) + d.demuxer.toDo c file +
    12 * (d.currentFrameDisplayed + 3 - d.totalFramesBuffered)

theorem RunPc.toGo_le (l : RunPc φ π) (b b' : Bool) : l.toGo b' ≤ l.toGo b + 20 := by
  cases l with
  | waiting => cases b <;> cases b' <;> simp [RunPc.toGo]
  | _ => simp [RunPc.toGo]

theorem RunMove.toDo {c : Container} {a : RunAct φ} {l l' : RunPc φ π} {d d' : VideoDecoder φ π}
    (h : RunMove c a l d l' d') (file : List (Demuxed π)) (hr : RunRing l d)
    (hlen : (d'.demuxer.codec .video).sent.length ≤ (c.inputs file .video).length) :
    l'.toDo c file d' + a.works.toNat ≤ l.toDo c file d + 20 * (a.wakes d).toNat := by
  unfold RunPc.toDo
  cases h with
  | @fetch _ f f' _ hf =>
      have hmove := hf.toDo file hlen
      dsimp only at hmove ⊢
      cases f' <;> simp only [Option.elim_none, Option.elim_some, RunPc.toGo, RunAct.works, Bool.toNat_true] at hmove ⊢
        <;> omega
  | publish =>
      have hroom := hr.room rfl
      simp only [RunPc.toGo, RunAct.works, Bool.toNat_true]
      omega
  | wait =>
      simp only [RunPc.toGo, RunAct.works, Bool.toNat_true, Monitor.asleep_wait, List.mem_append, List.mem_singleton,
        or_true, decide_true, if_true]
      omega
  | relock hs =>
      simp only [RunPc.toGo, RunAct.works, Bool.toNat_true, hs, decide_false, Bool.false_eq_true, if_false]
      omega
  | @spurious d =>
      have hwake := RunPc.toGo_le (.waiting : RunPc φ π) (decide (Thread.run ∈ d.decode.asleep))
        (decide (Thread.run ∈ (d.decode.spurious .run).asleep))
      rw [RunAct.works, RunAct.wakes]
      by_cases hm : Thread.run ∈ d.decode.asleep
      · rw [decide_eq_true hm] at hwake ⊢
        simp only [Bool.toNat_false, Bool.toNat_true]
        omega
      · have hstay : Thread.run ∉ (d.decode.spurious .run).asleep := fun h => hm (List.mem_of_mem_erase h)
        rw [decide_eq_false hm, decide_eq_false hstay]
        exact Nat.le_refl _
  | has => split_ifs <;> simp only [RunPc.toGo, RunAct.works, Bool.toNat_true] <;> omega
  | scale | scaled | writePts =>
      simp only [VideoDecoder.writeSlot, RunPc.toGo, RunAct.works, Bool.toNat_true]
      omega
  | callback =>
      simp only [RunAct.works, Bool.toNat_false]
      omega
  | _ =>
      simp only [RunPc.toGo, RunAct.works, Bool.toNat_true, PacketLoop.toGo]
      omega

theorem RunPc.toDo_congr {c : Container} {file : List (Demuxed π)} (l : RunPc φ π) {d d' : VideoDecoder φ π}
    (hasleep : d'.decode.asleep = d.decode.asleep) (hdem : d'.demuxer = d.demuxer)
    (hcur : d'.currentFrameDisplayed = d.currentFrameDisplayed)
    (htot : d'.totalFramesBuffered = d.totalFramesBuffered) : l.toDo c file d' = l.toDo c file d := by
  unfold RunPc.toDo
  rw [hasleep, hdem, hcur, htot]

theorem ConsumerMove.toDo {a : ConsumerAct} {k k' : ConsumerPc} {d d' : VideoDecoder φ π}
    (h : ConsumerMove a k d k' d') (hk : k.deleting = true) (c : Container) (file : List (Demuxed π))
    (l : RunPc φ π) : 22 * k'.toGo + l.toDo c file d' + 1 ≤ 22 * k.toGo + l.toDo c file d := by
  have hsame : d'.decode.asleep = d.decode.asleep → d'.demuxer = d.demuxer →
      d'.currentFrameDisplayed = d.currentFrameDisplayed → d'.totalFramesBuffered = d.totalFramesBuffered →
      l.toDo c file d' = l.toDo c file d := l.toDo_congr
  cases h with
  | delLock | delVideo | delAudio | delUnlock | delJoin | delFree =>
      rw [hsame rfl rfl rfl rfl]
      simp only [ConsumerPc.toGo]
      omega
  | @delSignal d =>
      unfold RunPc.toDo
      have hwake := l.toGo_le (decide (Thread.run ∈ d.decode.asleep)) (decide (Thread.run ∈ d.decode.signal.asleep))
      simp only [ConsumerPc.toGo]
      omega
  | _ => cases hk

theorem AudioMove.toDo {c : Container} {a : AudioAct} {m m' : AudioPc π} {d d' : VideoDecoder φ π}
    (h : AudioMove c a m d m' d') (file : List (Demuxed π)) (l : RunPc φ π)
    (hlen : (d'.demuxer.codec .audio).sent.length ≤ (c.inputs file .audio).length) :
    m'.toGo + l.toDo c file d' + (a.works && m.loop.isSome).toNat ≤ m.toGo + l.toDo c file d := by
  unfold RunPc.toDo
  cases h with
  | @fetch _ f f' _ hf =>
      have hmove := hf.toDo file hlen
      dsimp only at hmove ⊢
      cases f' <;> simp only [Option.elim_none, Option.elim_some, AudioPc.toGo, AudioPc.loop, AudioAct.works,
        Option.isSome_some, Bool.and_self, Bool.toNat_true] at hmove ⊢ <;> omega
  | testEnded => split_ifs <;> simp [AudioPc.toGo, AudioPc.loop]
  | eagain =>
      simp only [AudioPc.toGo, PacketLoop.toGo, AudioAct.works, Bool.false_and, Bool.toNat_false]
      omega
  | _ => simp [AudioPc.toGo, AudioPc.loop, AudioAct.works]

section
variable {c : Container} {file : List (Demuxed π)} {h : List (State φ π × Action φ)} {s : State φ π}

theorem State.toDo_eq (s : State φ π) :
    s.toDo c file = 22 * s.consumer.toGo + s.run.toDo c file s.shared + s.audio.toGo := by
  unfold State.toDo RunPc.toDo
  omega

theorem toDo_step_of_ne (hr : (decoder φ c file).Run h s) {a : Action φ} {s' : State φ π} (hc : a.1 ≠ .consumer)
    (hstep : (decoder φ c file).step s a = some s') :
    s'.toDo c file + (works s a).toNat ≤ s.toDo c file + 20 * (wakes s a).toNat := by
  have hlen := fun k => ((routed (hr.snoc trivial hstep)).sent_isPrefix k).length_le
  rw [State.toDo_eq, State.toDo_eq]
  obtain ⟨t, a⟩ := a
  obtain ⟨l, d, hs, rfl⟩ := Program.next_eq_some hstep
  cases t with
  | run =>
      have hmove := (run_move hs).toDo file (run_ring hr) (hlen .video)
      change 22 * s.consumer.toGo + l.toDo c file d + s.audio.toGo + a.works.toNat ≤ _
      change _ ≤ RunPc.toDo c file s.run s.shared + 20 * (wakes s ⟨.run, a⟩).toNat at hmove
      omega
  | consumer => exact absurd rfl hc
  | audio =>
      have hmove := (audio_move hs).toDo file s.run (hlen .audio)
      change 22 * s.consumer.toGo + s.run.toDo c file d + AudioPc.toGo l + (a.works && s.audio.loop.isSome).toNat ≤ _
      change _ + (a.works && s.audio.loop.isSome).toNat ≤ s.audio.toGo + _ at hmove
      omega

end

/-! ## Someone can work -/

/-- `packetMutex` is held by a loop between its lock and its unlock. -/
def MutexOwned (x : Loops π) (m : Demuxer π) : Prop :=
  ∀ k, m.packetMutex = some k → ∃ f, x k = some f ∧ f.inside = true

theorem PacketLoop.Move.owned {c : Container} {k : Stream} {f : PacketLoop π} {f' : Option (PacketLoop π)}
    {m m' : Demuxer π} (h : f.Move c k m f' m') (hf : m.packetMutex = some k → f.inside = true) :
    (m'.packetMutex = some k → ∃ g, f' = some g ∧ g.inside = true) ∧
      ∀ j, j ≠ k → m'.packetMutex = some j → m.packetMutex = some j := by
  cases h with
  | lock => exact ⟨fun _ => ⟨_, rfl, rfl⟩, fun j hj he => absurd (Option.some.inj he).symm hj⟩
  | again | taken | drain => exact ⟨nofun, nofun⟩
  | send => exact ⟨fun he => absurd (hf he) Bool.false_ne_true, fun _ _ => id⟩
  | free => exact ⟨fun he => absurd (hf he) Bool.false_ne_true, fun _ _ => id⟩
  | route =>
      rw [Demuxer.route_packetMutex]
      exact ⟨fun _ => ⟨_, rfl, rfl⟩, fun _ _ => id⟩
  | _ => exact ⟨fun _ => ⟨_, rfl, rfl⟩, fun _ _ => id⟩

theorem MutexOwned.step {c : Container} {x : Loops π} {m m' : Demuxer π} {k : Stream} {x' : Option (PacketLoop π)}
    (hm : MutexOwned x m) {o : Option Nat} (h : LoopStep c k (x k) m x' m' o) :
    MutexOwned (Function.update x k x') m' := by
  generalize hx : x k = y at h
  cases h with
  | same =>
      rw [← hx, Function.update_eq_self]
      exact hm
  | enter =>
      intro j hj
      obtain ⟨f, hf, hin⟩ := hm j hj
      have hjk : j ≠ k := by
        rintro rfl
        rw [hx] at hf
        cases hf
      exact ⟨f, by rw [Function.update_of_ne hjk, hf], hin⟩
  | move hmv =>
      obtain ⟨hown, hother⟩ := hmv.owned fun he => by
        obtain ⟨f, hf, hin⟩ := hm k he
        rw [hx] at hf
        cases hf
        exact hin
      intro j hj
      by_cases hjk : j = k
      · subst hjk
        rw [Function.update_self]
        exact hown hj
      · rw [Function.update_of_ne hjk]
        exact hm j (hother j hjk hj)

theorem PacketLoop.can_step (c : Container) (k : Stream) {f : PacketLoop π} {m : Demuxer π}
    (hf : f = .lock → m.packetMutex = none) : ∃ r, f.step c k m = some r := by
  cases f with
  | lock => exact ⟨_, by rw [PacketLoop.step, hf rfl]⟩
  | test =>
      rw [PacketLoop.step]
      split <;> exact ⟨_, rfl⟩
  | read id =>
      rw [PacketLoop.step]
      split <;> exact ⟨_, rfl⟩
  | _ => exact ⟨_, rfl⟩

/-- `run` can take a step unless it has returned, sleeps, or waits for one of the two mutexes. -/
theorem RunPc.can_step (c : Container) {l : RunPc φ π} {d : VideoDecoder φ π} (hret : l.toGo false ≠ 0)
    (hmutex : l.acquires = true → d.decode.holder = none) (hawake : Thread.run ∉ d.decode.asleep)
    (hpacket : l.loop = some .lock → d.demuxer.packetMutex = none) :
    ∃ a r, runStep c a l d = some r ∧ a.works = true := by
  have hlock : l.acquires = true → ∃ m, d.decode.lock .run = some m := fun hl =>
    ⟨_, Monitor.lock_free (hmutex hl) _⟩
  cases l with
  | lockFirst | lock =>
      obtain ⟨m, hm⟩ := hlock rfl
      exact ⟨.step, _, congrArg (Option.map _) hm, rfl⟩
  | waiting =>
      obtain ⟨m, hm⟩ := hlock rfl
      refine ⟨.step, (.testFull, { d with decode := m }), ?_, rfl⟩
      rw [runStep, if_neg hawake, hm]
      rfl
  | receive => exact ⟨.receive .eof, _, rfl, rfl⟩
  | fetch f =>
      obtain ⟨r, hr⟩ := f.can_step c .video fun hf => hpacket (by rw [hf]; rfl)
      exact ⟨.step, _, congrArg (Option.map _) hr, rfl⟩
  | returned => exact absurd rfl hret
  | _ => exact ⟨.step, _, rfl, rfl⟩

section
variable {c : Container} {file : List (Demuxed π)} {h : List (State φ π × Action φ)} {s : State φ π}

theorem mutex_owned (hr : (decoder φ c file).Run h s) : MutexOwned s.loops s.shared.demuxer :=
  packets_induction (I := fun _ => MutexOwned) nofun (fun _ _ _ _ _ _ _ hI hstep => hI.step hstep) hr

/-- While the consumer keeps off the mutex and `run` neither sleeps nor has ended, `run` works, or the audio thread does
behind `packetMutex`. -/
theorem run_works (hr : (decoder φ c file).Run h s) (hcons : s.consumer.locked = false)
    (hawake : Thread.run ∉ s.shared.decode.asleep) (hret : s.run.toGo false ≠ 0) :
    ∃ a r, a.1 ≠ .consumer ∧ (decoder φ c file).step s a = some r ∧ works s a = true := by
  have hmutex : s.run.acquires = true → s.shared.decode.holder = none := fun hl =>
    (holder_inv hr).free (Bool.eq_false_iff.mpr (RunPc.not_locked (Or.inl hl))) hcons
  by_cases haudio : s.shared.demuxer.packetMutex = some .audio
  · obtain ⟨f, hf, hin⟩ := mutex_owned hr .audio haudio
    obtain ⟨r, hstep⟩ := f.can_step c .audio (m := s.shared.demuxer) fun hl => by
      rw [hl] at hin
      cases hin
    have hpc : s.loc .audio = .fetch f := by
      change s.audio.loop = some f at hf
      change s.audio = .fetch f
      cases hpc : s.audio with
      | fetch g =>
          rw [hpc] at hf
          cases hf
          rfl
      | _ =>
          rw [hpc] at hf
          cases hf
    refine ⟨⟨.audio, .step⟩, s.put .audio (r.1.elim .testEnded .fetch) { s.shared with demuxer := r.2 },
      show Thread.audio ≠ .consumer by decide, ?_, ?_⟩
    · change (audioStep c .step (s.loc .audio) s.shared).map _ = _
      rw [hpc, audioStep, hstep]
      rfl
    · change (AudioAct.step.works && (AudioPc.loop (s.loc .audio)).isSome) = true
      rw [hpc]
      rfl
  · have hpacket : s.run.loop = some .lock → s.shared.demuxer.packetMutex = none := by
      intro hl
      cases hp : s.shared.demuxer.packetMutex with
      | none => rfl
      | some k =>
          cases k with
          | audio => exact absurd hp haudio
          | video =>
              obtain ⟨f, hf, hin⟩ := mutex_owned hr .video hp
              change s.run.loop = some f at hf
              rw [hl] at hf
              cases hf
              cases hin
    obtain ⟨a, r, hstep, hw⟩ := RunPc.can_step c hret hmutex hawake hpacket
    exact ⟨⟨.run, a⟩, _, show Thread.run ≠ .consumer by decide, congrArg (Option.map _) hstep, hw⟩

theorem not_wakes {a : Action φ} (hw : works s a = true) : wakes s a = false := by
  obtain ⟨t, a⟩ := a
  cases t with
  | run => cases a <;> first | rfl | cases hw
  | consumer | audio => rfl

end

end ArcVideo
