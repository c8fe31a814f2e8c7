import ArcVideo.Decoder.Moves

/-!
# The packet loops of the two decoding threads

The steps of the decoder as the packets see them.

* `State.loops` : where the threads are in their packet loops;
* `LoopStep`, `step_packets` : any step is a step of one packet loop, or leaves loops and packets alone;
* `failedReads` : the packets allocated for an `av_read_frame` that failed;
* `packets_induction` : the induction rule for statements about loops and packets.
-/

namespace ArcVideo
open Conc

variable {φ π : Type}

/-! ## The packet loops of a state -/

abbrev Loops (π : Type) : Type := Stream → Option (PacketLoop π)

def RunPc.loop : RunPc φ π → Option (PacketLoop π)
  | .fetch f => some f
  | _ => none

def AudioPc.loop : AudioPc π → Option (PacketLoop π)
  | .fetch f => some f
  | _ => none

def State.loops (s : State φ π) : Loops π
  | .video => s.run.loop
  | .audio => s.audio.loop

/-- The packet that the `av_read_frame` of this place fails on, in `readPacket`. -/
def PacketLoop.failing (m : Demuxer π) : PacketLoop π → Option Nat
  | .read id => if m.unread.isEmpty then some id else none
  | _ => none

/-- The packet that this step, a failing `av_read_frame`, leaves to `readPacket`. -/
def failedRead (s : State φ π) : Action φ → Option Nat
  | ⟨.run, .step⟩ => s.run.loop.bind (PacketLoop.failing s.shared.demuxer)
  | ⟨.audio, .step⟩ => s.audio.loop.bind (PacketLoop.failing s.shared.demuxer)
  | _ => none

def failedReads (h : List (State φ π × Action φ)) : List Nat := h.filterMap fun p => failedRead p.1 p.2

theorem failedReads_snoc (h : List (State φ π × Action φ)) (s : State φ π) (a : Action φ) :
    failedReads (h ++ [(s, a)]) = failedReads h ++ (failedRead s a).toList := by
  rw [failedReads, List.filterMap_append, failedReads, List.filterMap_cons, List.filterMap_nil]
  cases failedRead s a <;> rfl

/-- What a step of the thread of stream `k` does to its packet loop and to the packets; the packet of a failed
`av_read_frame` comes last. -/
inductive LoopStep (c : Container) (k : Stream) :
    Option (PacketLoop π) → Demuxer π → Option (PacketLoop π) → Demuxer π → Option Nat → Prop
  | same {x m} : LoopStep c k x m x m none
  | enter {m} : (m.codec k).sent.all Option.isSome = true → LoopStep c k none m (some .lock) m none
  | move {f m f' m'} : f.Move c k m f' m' → LoopStep c k (some f) m f' m' (f.failing m)

theorem RunMove.loopStep {c : Container} {l l' : RunPc φ π} {d d' : VideoDecoder φ π} {a : RunAct φ}
    (h : RunMove c a l d l' d') {s : State φ π} (hl : s.run = l) (hd : s.shared = d) :
    LoopStep c .video l.loop d.demuxer l'.loop d'.demuxer (failedRead s ⟨.run, a⟩) := by
  subst hd
  cases h with
  | eagain hok => exact .enter hok
  | @fetch _ f f' _ hf =>
      rw [failedRead, hl]
      cases f' <;> exact .move hf
  | callback => exact .same
  | frame | eof | error | spurious => exact .same
  | has =>
      rw [failedRead, hl]
      split_ifs <;> exact .same
  | _ =>
      rw [failedRead, hl]
      exact .same

theorem AudioMove.loopStep {c : Container} {l l' : AudioPc π} {d d' : VideoDecoder φ π} {a : AudioAct}
    (h : AudioMove c a l d l' d') {s : State φ π} (hl : s.audio = l) (hd : s.shared = d) :
    LoopStep c .audio l.loop d.demuxer l'.loop d'.demuxer (failedRead s ⟨.audio, a⟩) := by
  subst hd
  cases h with
  | eagain hok => exact .enter hok
  | @fetch _ f f' _ hf =>
      rw [failedRead, hl]
      cases f' <;> exact .move hf
  | decodeAudio | callback | frame | eof | error => exact .same
  | testEnded =>
      rw [failedRead, hl]
      split_ifs <;> exact .same
  | setEnded =>
      rw [failedRead, hl]
      exact .same

theorem ConsumerMove.demuxer_eq {a : ConsumerAct} {l l' : ConsumerPc} {d d' : VideoDecoder φ π}
    (h : ConsumerMove a l d l' d') : d'.demuxer = d.demuxer := by
  cases h <;> rfl

theorem step_packets {c : Container} {file : List (Demuxed π)} {s s' : State φ π} {a : Action φ}
    (h : (decoder φ c file).step s a = some s') :
    ∃ k x, LoopStep c k (s.loops k) s.shared.demuxer x s'.shared.demuxer (failedRead s a) ∧
      s'.loops = Function.update s.loops k x := by
  obtain ⟨t, a⟩ := a
  obtain ⟨l, d, hs, rfl⟩ := Program.next_eq_some h
  cases t with
  | run =>
      refine ⟨.video, l.loop, (run_move hs).loopStep rfl rfl, funext fun k => ?_⟩
      cases k <;> rfl
  | consumer =>
      have heq := (consumer_move hs).demuxer_eq
      refine ⟨.video, s.loops .video, by rw [Config.put_shared, heq]; exact .same, funext fun k => ?_⟩
      cases k <;> rfl
  | audio =>
      refine ⟨.audio, l.loop, (audio_move hs).loopStep rfl rfl, funext fun k => ?_⟩
      cases k <;> rfl

/-- **Induction over the steps of the packet loops.** -/
theorem packets_induction {c : Container} {file : List (Demuxed π)} {I : List Nat → Loops π → Demuxer π → Prop}
    (hinit : I [] (fun _ => none) (.start file))
    (hstep : ∀ lost x m k x' m' o, I lost x m → LoopStep c k (x k) m x' m' o →
      I (lost ++ o.toList) (Function.update x k x') m')
    {h : List (State φ π × Action φ)} {s : State φ π} (hr : (decoder φ c file).Run h s) :
    I (failedReads h) s.loops s.shared.demuxer := by
  refine System.RunWhen.induction (P := fun h s => I (failedReads h) s.loops s.shared.demuxer) ?_ ?_ hr
  · rintro _ rfl
    have hnone : (State.start φ file).loops = fun _ => none := funext fun k => by cases k <;> rfl
    rw [hnone]
    exact hinit
  · rintro h s a s' - hI - hs
    obtain ⟨k, x, hx, heq⟩ := step_packets hs
    rw [heq, failedReads_snoc]
    exact hstep _ _ _ _ _ _ _ hI hx

end ArcVideo
