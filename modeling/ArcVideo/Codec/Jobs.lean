import ArcVideo.Conc.Backlog
import ArcVideo.Codec.Decode

/-!
# What libavcodec decodes

The packets sent to libavcodec are the jobs of a worker, the codec; the frames it keeps are its outputs.

* `FFCodec.job` : a packet decoded to its end, piece by piece, or its rest, or a call for the frames held back;
* `FFCodec.Lawful` : what libavcodec relies on;
* `Leads` : what decoding does until it returns: a turn of the loop (`turn_leads`), the loop (`loop_leads`).
-/

namespace ArcVideo
open Conc

variable {σ β : Type}

/-! ## Jobs -/

inductive Job
  | packet (p : PacketData)
  | rest (p : PacketData)

namespace FFCodec

variable (C : FFCodec σ β)

/-- What is left of a packet is decoded, in `n` pieces at most. -/
def decodeRest : Nat → σ → PacketData → List β × σ
  | 0, c, _ => ([], c)
  | n + 1, c, p =>
    if (C.decode c p).1.ret < 0 ∨ (C.rest c p).data = none then ((C.kept c p).toList, C.after c p)
    else
      let r := decodeRest n (C.after c p) (C.rest c p)
      ((C.kept c p).toList ++ r.1, r.2)

/-- The frames kept of a job, and the codec after it. -/
def job : σ → Job → List β × σ
  | c, .packet p => C.decodeRest (p.size + 1) (C.take c p) p
  | c, .rest p => C.decodeRest (p.size + 1) c p

def blanks (k : Nat) : List Job := List.replicate k (.rest .blank)

/-- The last of the new jobs was a call for the frames held back, and there was none. -/
def Emptied (b : σ × List Job) (new : List Job) : Prop :=
  ∃ js, new = js ++ [.rest .blank] ∧
    0 ≤ (C.decode (workAll C.job b.1 (b.2 ++ js)).2 .blank).1.ret ∧
    (C.decode (workAll C.job b.1 (b.2 ++ js)).2 .blank).1.frame = none

variable {C} {c : σ} {p : PacketData}

theorem Emptied.of_does {b b' : σ × List Job} {new new' : List Job} {out : List β} (h : C.Emptied b' new')
    (hdoes : Does C.job b new out b') : C.Emptied b (new ++ new') := by
  obtain ⟨js, rfl, hempty⟩ := h
  rw [← hdoes.after] at hempty
  exact ⟨new ++ js, (List.append_assoc _ _ _).symm, hempty⟩

end FFCodec

/-! ## A turn of the decoding loop -/

def PacketData.jobs (p : PacketData) : List Job := if p.data.isSome then [.rest p] else []

@[simp] theorem PacketData.jobs_blank : PacketData.blank.jobs = [] := rfl

theorem PacketData.Full.isEmpty_eq {p : PacketData} (h : p.Full) : p.isEmpty = false := by
  obtain ⟨b, bs, hp⟩ := h
  rw [PacketData.isEmpty, hp]
  rfl

namespace AVCodecInternal

def backlog (s : AVCodecInternal σ β) : σ × List Job :=
  (s.codec, s.inPkt.jobs ++ if s.bsfPkt.isEmpty then [] else [.packet s.bsfPkt])

/-- One packet at most waits, and after NULL none does; draining begins then. -/
structure Tidy (s : AVCodecInternal σ β) : Prop where
  inPkt : s.inPkt = .blank ∨ s.inPkt.Full
  bsfPkt : s.bsfPkt = .blank ∨ s.bsfPkt.Full
  one : s.inPkt = .blank ∨ s.bsfPkt = .blank
  before : s.bsfEof = false → s.draining = false ∧ s.drainingDone = false
  null : s.bsfEof = true → s.inPkt = .blank ∧ s.bsfPkt = .blank

/-- What decoding does until it returns `ret`, and a frame perhaps. -/
structure Leads (C : FFCodec σ β) (s : AVCodecInternal σ β) (ret : Int) (frame : Option β) (u : AVCodecInternal σ β) :
    Prop where
  tidy : u.Tidy
  bsfPkt : u.bsfPkt = .blank
  bsfEof : u.bsfEof = s.bsfEof
  draining : u.draining = s.bsfEof
  bufferFrame : u.bufferFrame = s.bufferFrame
  /-- Only after NULL is the codec called for the frames held back, and done when there is none. -/
  works : ∃ k, (s.bsfEof = false ∨ s.drainingDone = true → k = 0) ∧
    Does C.job s.backlog (FFCodec.blanks k) frame.toList u.backlog ∧
    (u.drainingDone = true → s.drainingDone = true ∨ C.delay = false ∨ C.Emptied s.backlog (FFCodec.blanks k))
  done : s.drainingDone = true → u.drainingDone = true
  failed : ret < 0 → frame = none ∧ u.inPkt = .blank
  again : ret = AVERROR_EAGAIN → s.bsfEof = false
  ended : ret = AVERROR_EOF → s.bsfEof = true ∧ (u.drainingDone = true ∨ C.delay = false)
  errors : u.nbDrainingErrors ≤ s.nbDrainingErrors + 1 ∧
    (0 ≤ ret ∨ s.bsfEof = false → u.nbDrainingErrors = s.nbDrainingErrors)
  /-- A video packet is decoded whole. -/
  whole : C.type = .video → u.inPkt = .blank ∧
    (ret < 0 → ret ≠ AVERROR_EAGAIN → s.bsfEof = true ∨ s.backlog.2 ≠ [])

section
variable {C : FFCodec σ β} {s : AVCodecInternal σ β} {toSkip : σ → PacketData → Nat}

theorem Leads.of_does {u v : AVCodecInternal σ β} {ret : Int} {frame : Option β} (h : Leads C u ret frame v)
    (hdoes : Does C.job s.backlog [] [] u.backlog) (heof : u.bsfEof = s.bsfEof)
    (hdone : u.drainingDone = s.drainingDone) (hbuffer : u.bufferFrame = s.bufferFrame)
    (herrors : u.nbDrainingErrors = s.nbDrainingErrors) (hjobs : u.backlog.2 ≠ [] → s.backlog.2 ≠ []) :
    Leads C s ret frame v where
  tidy := h.tidy
  bsfPkt := h.bsfPkt
  bsfEof := h.bsfEof.trans heof
  draining := h.draining.trans heof
  bufferFrame := h.bufferFrame.trans hbuffer
  works := by
    obtain ⟨k, hk, hworks, hempty⟩ := h.works
    rw [heof, hdone] at hk
    refine ⟨k, hk, hdoes.trans hworks, fun hd => (hempty hd).imp hdone.symm.trans (Or.imp_right fun he => ?_)⟩
    exact he.of_does hdoes
  done := fun hd => h.done (hdone.trans hd)
  failed := h.failed
  again := fun hret => heof.symm.trans (h.again hret)
  ended := fun hret => (h.ended hret).imp_left heof.symm.trans
  errors := by
    rw [← heof, ← herrors]
    exact h.errors
  whole := fun hv => (h.whole hv).imp_right fun hw hneg hne => (hw hneg hne).imp heof.symm.trans hjobs

theorem blanks_add (i j : Nat) : FFCodec.blanks i ++ FFCodec.blanks j = FFCodec.blanks (i + j) :=
  List.replicate_append_replicate

theorem Leads.trans {t u : AVCodecInternal σ β} {ret ret' : Int} {frame : Option β} (h : Leads C s ret none t)
    (hret : 0 ≤ ret) (h' : Leads C t ret' frame u) : Leads C s ret' frame u where
  tidy := h'.tidy
  bsfPkt := h'.bsfPkt
  bsfEof := h'.bsfEof.trans h.bsfEof
  draining := h'.draining.trans h.bsfEof
  bufferFrame := h'.bufferFrame.trans h.bufferFrame
  works := by
    obtain ⟨i, hi, hdoes, hempty⟩ := h.works
    obtain ⟨j, hj, hdoes', hempty'⟩ := h'.works
    refine ⟨i + j, fun heof => ?_, ?_, fun hdone => ?_⟩
    · rw [hi heof, hj (heof.imp h.bsfEof.trans h.done)]
    · rw [← blanks_add]
      exact hdoes.trans hdoes'
    · rcases hempty' hdone with hdone | hdelay | hempty'
      · rw [hj (Or.inr hdone)]
        exact hempty hdone
      · exact Or.inr (Or.inl hdelay)
      · refine Or.inr (Or.inr ?_)
        rw [← blanks_add]
        exact hempty'.of_does hdoes
  done := fun hd => h'.done (h.done hd)
  failed := h'.failed
  again := fun hr => h.bsfEof.symm.trans (h'.again hr)
  ended := fun hr => (h'.ended hr).imp_left h.bsfEof.symm.trans
  errors := by
    rw [← h.errors.2 (Or.inl hret), ← h.bsfEof]
    exact h'.errors
  whole := fun hv => by
    refine ⟨(h'.whole hv).1, fun hneg hne => Or.inl ?_⟩
    rcases (h'.whole hv).2 hneg hne with heof | hjobs
    · exact h.bsfEof.symm.trans heof
    · refine absurd ?_ hjobs
      rw [backlog, (h.whole hv).1, h.bsfPkt]
      rfl

theorem Leads.frame {u : AVCodecInternal σ β} {ret : Int} {frame : Option β} (h : Leads C s ret frame u)
    (hret : 0 ≤ ret) : Leads C s 0 frame u :=
  { h with
    failed := nofun
    again := nofun
    ended := nofun
    errors := ⟨h.errors.1, fun _ => h.errors.2 (Or.inl hret)⟩
    whole := fun hv => ⟨(h.whole hv).1, nofun⟩ }

end

end AVCodecInternal

end ArcVideo
