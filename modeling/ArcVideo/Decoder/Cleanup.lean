import ArcVideo.Decoder.Ownership

/-!
# The reader after its cleanup

`run` calls `cleanupFunc(customFuncData)` when the video ends. The demuxer, whose `av_read_frame` calls
`fillBufferFunc(customFuncData)`, is used by `decodeAudio` too, on another thread and with an end of its own.

* `callback_before_cleanup` : as long as `decodeAudio` stays out of `readPacket` once `run` cleans up, the reader is
  never used after its cleanup;
* `callback_after_cleanup` : when the video ends first, it is;
* `cleaned_of_joined` : the destructor has joined `run` only after the cleanup.
-/

namespace ArcVideo
open Conc

variable {φ π : Type}

/-! ## The use of the reader -/

/-- `av_read_frame` calls `fillBufferFunc(customFuncData)`. -/
def Action.callsReader : Action φ → Bool
  | ⟨.run, .callback⟩ | ⟨.audio, .callback⟩ => true
  | _ => false

def RunPc.cleaning : RunPc φ π → Bool
  | .cleanup => true
  | _ => false

def RunPc.cleaned : RunPc φ π → Bool
  | .ret | .returned => true
  | _ => false

/-- `decodeAudio` is in `readPacket`, before the end of `av_read_frame`. -/
def AudioPc.inReadPacket : AudioPc π → Bool
  | .fetch .alloc | .fetch (.read _) => true
  | _ => false

def AudioPc.testing : AudioPc π → Bool
  | .fetch .test => true
  | _ => false

/-- `decodeAudio` is not in `readPacket` when `run` calls `cleanupFunc`, and finds its queue filled from then on. -/
def keepsReader (c : Container) (s : State φ π) (a : Action φ) : Prop :=
  (a.1 = .run → s.run.cleaning = true → c.isStream = true → s.audio.inReadPacket = false) ∧
  (a.1 = .audio → s.audio.testing = true → s.shared.cleanedUp = true →
    s.shared.demuxer.audioPackets.isEmpty = false)

instance (c : Container) (s : State φ π) (a : Action φ) : Decidable (keepsReader c s a) :=
  inferInstanceAs (Decidable ((_ → _ → _ → _) ∧ (_ → _ → _ → _)))

/-! ## The invariant -/

def ReaderIdle (l : RunPc φ π) (u : AudioPc π) (d : VideoDecoder φ π) : Prop :=
  d.cleanedUp = true → l.cleaned = true ∧ u.inReadPacket = false

theorem RunMove.readerIdle {c : Container} {a : RunAct φ} {l l' : RunPc φ π} {u : AudioPc π} {d d' : VideoDecoder φ π}
    (h : RunMove c a l d l' d') (hI : ReaderIdle l u d)
    (hok : l.cleaning = true → c.isStream = true → u.inReadPacket = false) : ReaderIdle l' u d' := by
  intro hc
  cases h with
  | cleanup =>
      rcases (Bool.or_eq_true _ _).mp hc with hc | hc
      · exact absurd (hI hc).1 Bool.false_ne_true
      · exact ⟨rfl, hok rfl hc⟩
  | ret => exact ⟨rfl, (hI hc).2⟩
  | _ => exact absurd (hI hc).1 Bool.false_ne_true

theorem AudioMove.readerIdle {c : Container} {a : AudioAct} {l : RunPc φ π} {u u' : AudioPc π} {d d' : VideoDecoder φ π}
    (h : AudioMove c a u d u' d') (hI : ReaderIdle l u d)
    (hok : u.testing = true → d.cleanedUp = true → d.demuxer.audioPackets.isEmpty = false) :
    ReaderIdle l u' d' := by
  intro hc
  cases h with
  | testEnded =>
      refine ⟨(hI hc).1, ?_⟩
      split_ifs <;> rfl
  | fetch hf =>
      obtain ⟨hl, hu⟩ := hI hc
      refine ⟨hl, ?_⟩
      cases hf with
      | empty hq =>
          have hne := hok rfl hc
          rw [Demuxer.audioPackets, hq] at hne
          cases hne
      | alloc => cases hu
      | _ => rfl
  | callback => exact hI hc
  | _ => exact ⟨(hI hc).1, rfl⟩

theorem ConsumerMove.cleanedUp_eq {a : ConsumerAct} {l l' : ConsumerPc} {d d' : VideoDecoder φ π}
    (h : ConsumerMove a l d l' d') : d'.cleanedUp = d.cleanedUp := by
  cases h <;> rfl

theorem RunMove.calls {c : Container} {l l' : RunPc φ π} {d d' : VideoDecoder φ π}
    (h : RunMove c .callback l d l' d') : l.cleaned = false := by
  cases h
  rfl

theorem AudioMove.calls {c : Container} {u u' : AudioPc π} {d d' : VideoDecoder φ π}
    (h : AudioMove c .callback u d u' d') : u.inReadPacket = true := by
  cases h
  rfl

theorem ReaderIdle.callback {c : Container} {file : List (Demuxed π)} {s s' : State φ π} {a : Action φ}
    (hI : ReaderIdle s.run s.audio s.shared) (h : (decoder φ c file).step s a = some s')
    (ha : a.callsReader = true) : s.shared.cleanedUp = false := by
  refine Bool.eq_false_iff.mpr fun hc => ?_
  obtain ⟨hl, hu⟩ := hI hc
  obtain ⟨t, a⟩ := a
  obtain ⟨l, d, hs, rfl⟩ := Program.next_eq_some h
  cases t with
  | run =>
      obtain rfl : a = .callback := by cases a <;> first | rfl | cases ha
      exact absurd hl (Bool.eq_false_iff.mp (run_move hs).calls)
  | consumer => cases ha
  | audio =>
      obtain rfl : a = .callback := by cases a <;> first | rfl | cases ha
      exact absurd (audio_move hs).calls (Bool.eq_false_iff.mp hu)

section
variable {c : Container} {file : List (Demuxed π)} {h : List (State φ π × Action φ)} {s : State φ π}

theorem readerIdle_step {s' : State φ π} {a : Action φ} (hI : ReaderIdle s.run s.audio s.shared)
    (hok : keepsReader c s a) (hstep : (decoder φ c file).step s a = some s') :
    ReaderIdle s'.run s'.audio s'.shared := by
  obtain ⟨t, a⟩ := a
  obtain ⟨l, d, hs, rfl⟩ := Program.next_eq_some hstep
  cases t with
  | run => exact (run_move hs).readerIdle hI (hok.1 rfl)
  | consumer => exact fun hc => hI ((consumer_move hs).cleanedUp_eq ▸ hc)
  | audio => exact (audio_move hs).readerIdle hI (hok.2 rfl)

/-- **The reader is not used after its cleanup**, in every run in which `decodeAudio` is not in `readPacket` when `run`
calls `cleanupFunc` and finds its queue filled from then on. -/
theorem callback_before_cleanup (hr : (decoder φ c file).RunWhen (keepsReader c) h s) :
    ∀ p ∈ h, p.2.callsReader = true → p.1.shared.cleanedUp = false := by
  have hinv : ReaderIdle s.run s.audio s.shared ∧ ∀ p ∈ h, p.2.callsReader = true → p.1.shared.cleanedUp = false := by
    refine System.RunWhen.induction (P := fun h s => ReaderIdle s.run s.audio s.shared ∧
      ∀ p ∈ h, p.2.callsReader = true → p.1.shared.cleanedUp = false) ?_ ?_ hr
    · rintro _ rfl
      exact ⟨nofun, fun p hp => absurd hp List.not_mem_nil⟩
    · rintro h s a s' - ⟨hI, hall⟩ hok hstep
      refine ⟨readerIdle_step hI hok hstep, fun p hp ha => ?_⟩
      rcases List.mem_append.mp hp with hp | hp
      · exact hall p hp ha
      · rw [List.mem_singleton.mp hp] at ha ⊢
        exact hI.callback hstep ha
  exact hinv.2

end

/-- The audio thread reads its packet and queues it. The video codec fails on its packet, the reader is cleaned up, and
the audio thread takes its packet from the queue. -/
theorem callback_before_cleanup_error : ∃ h s, (decoder Nat (Container.videoAndAudio true) [⟨1, 6⟩, ⟨0, 5⟩]).Run h s ∧
    s.shared.cleanedUp = true ∧ (h.filter fun p => p.2.callsReader).length = 1 ∧
      ∀ p ∈ h, p.2.callsReader = true → (p : State Nat Nat × Action Nat).1.shared.cleanedUp = false := by
  have he : ∃ r, (decoder Nat (Container.videoAndAudio true) [⟨1, 6⟩, ⟨0, 5⟩]).exec
      (State.start Nat [⟨1, (6 : Nat)⟩, ⟨0, 5⟩])
      ([⟨.audio, .decodeAudio⟩] ++ Action.decodesAudio 1 ++ [⟨.audio, .receive .eagain⟩] ++ Action.decodesAudio 3 ++
        [⟨.audio, .callback⟩] ++ Action.decodesAudio 3 ++ Action.runs 5 ++ Action.receives .eagain ++ Action.runs 15 ++
        Action.receives .error ++ Action.runs 4 ++ Action.decodesAudio 4) = some r ∧
      (∀ p ∈ r.1, keepsReader (Container.videoAndAudio true) p.1 p.2) ∧ r.2.shared.cleanedUp = true ∧
      (r.1.filter fun p => p.2.callsReader).length = 1 := ⟨_, rfl, by decide, rfl, rfl⟩
  obtain ⟨⟨h, s⟩, he, hok, hc, hn⟩ := he
  have hr := System.run_of_exec rfl he
  exact ⟨h, s, hr, hc, hn, callback_before_cleanup (hr.when hok)⟩

/-- The video codec fails on its packet, `run` cleans the reader up, and `decodeAudio` reads its next packet through
it. -/
theorem callback_after_cleanup : ∃ h s, (decoder Nat (Container.videoAndAudio true) [⟨0, 5⟩, ⟨1, (6 : Nat)⟩]).Run h s ∧
    ∃ p ∈ h, p.2.callsReader = true ∧ p.1.shared.cleanedUp = true := by
  have he : ∃ r, (decoder Nat (Container.videoAndAudio true) [⟨0, 5⟩, ⟨1, 6⟩]).exec
      (State.start Nat [⟨0, 5⟩, ⟨1, (6 : Nat)⟩])
      (Action.runs 5 ++ Action.receives .eagain ++ Action.runs 15 ++ Action.receives .error ++ Action.runs 4 ++
        [⟨.audio, .decodeAudio⟩] ++ Action.decodesAudio 1 ++ [⟨.audio, .receive .eagain⟩] ++ Action.decodesAudio 3 ++
        [⟨.audio, .callback⟩]) = some r ∧
      (r.1.any fun p => p.2.callsReader && p.1.shared.cleanedUp) = true := ⟨_, rfl, rfl⟩
  obtain ⟨⟨h, s⟩, he, hany⟩ := he
  obtain ⟨p, hp, hboth⟩ := List.any_eq_true.mp hany
  exact ⟨h, s, System.run_of_exec rfl he, p, hp, (Bool.and_eq_true _ _).mp hboth⟩

/-! ## The cleanup and `join()` -/

theorem RunMove.cleanedUp {c : Container} {a : RunAct φ} {l l' : RunPc φ π} {d d' : VideoDecoder φ π}
    (h : RunMove c a l d l' d') (hI : d.cleanedUp = (l.cleaned && c.isStream)) :
    d'.cleanedUp = (l'.cleaned && c.isStream) := by
  cases h with
  | @cleanup d =>
      change (d.cleanedUp || c.isStream) = (true && c.isStream)
      rw [hI]
      cases c.isStream <;> rfl
  | has => split_ifs <;> exact hI
  | @fetch _ _ f' _ _ => cases f' <;> exact hI
  | _ => exact hI

theorem AudioMove.cleanedUp_eq {c : Container} {a : AudioAct} {u u' : AudioPc π} {d d' : VideoDecoder φ π}
    (h : AudioMove c a u d u' d') : d'.cleanedUp = d.cleanedUp := by
  cases h <;> rfl

section
variable {c : Container} {file : List (Demuxed π)} {h : List (State φ π × Action φ)} {s : State φ π}

theorem cleanedUp_eq (hr : (decoder φ c file).Run h s) : s.shared.cleanedUp = (s.run.cleaned && c.isStream) := by
  refine System.RunWhen.induction (P := fun _ s => s.shared.cleanedUp = (s.run.cleaned && c.isStream)) ?_ ?_ hr
  · rintro _ rfl
    rfl
  · rintro h s ⟨t, a⟩ s' - hI - hstep
    obtain ⟨l, d, hs, rfl⟩ := Program.next_eq_some hstep
    cases t with
    | run => exact (run_move hs).cleanedUp hI
    | consumer => exact (consumer_move hs).cleanedUp_eq.trans hI
    | audio => exact (audio_move hs).cleanedUp_eq.trans hI

theorem cleaned_of_joined (hr : (decoder φ c file).Run h s) (hj : s.consumer.joined = true) :
    s.shared.cleanedUp = c.isStream := by
  rw [cleanedUp_eq hr, returned_of_joined hr hj]
  rfl

end

end ArcVideo
