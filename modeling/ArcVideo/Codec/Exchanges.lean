import ArcVideo.Codec.Jobs

/-!
# The frames of a use of libavcodec

A user asks for frames with `avcodec_receive_frame` and sends packets with `avcodec_send_packet`, of which it does not
look at the result.

* `Exchanged` : the exchanges of a user, and the state after them;
* `After` : what holds then, for a user that keeps to the answers; `exchanged_after`;
* `codec_decodes` : the frames received are those of the packets sent, every packet decoded once, in order.
-/

namespace ArcVideo
open Conc

variable {σ β ι : Type}

def FFCodec.shown (C : FFCodec σ β) (f : β) : β := if C.type = .video then (C.crop f).2 else f

def FFCodec.decoded (C : FFCodec σ β) (js : List Job) : List β := (workAll C.job C.start js).1.map C.shown

def jobsOf {α : Type} (data : ι → PacketData) (es : List (Exchange (Option ι) α)) : List Job :=
  ((Exchange.inputs es).filterMap id).map fun i => .packet (data i)

/-- The exchanges with libavcodec, from `avcodec_open2` on. -/
inductive Exchanged (C : FFCodec σ β) (data : ι → PacketData) :
    List (Exchange (Option ι) (Receive β)) → AVCodecInternal σ β → Prop
  | opened : Exchanged C data [] (avcodecOpen2 C)
  | asked {es : List (Exchange (Option ι) (Receive β))} {s t : AVCodecInternal σ β} {r : Except Int β} (fuel : Nat) :
      Exchanged C data es s → s.avcodecReceiveFrame C fuel = some (r, t) →
      Exchanged C data (es ++ [.asked (AVCodecInternal.received r)]) t
  | fed {es : List (Exchange (Option ι) (Receive β))} {s t : AVCodecInternal σ β} {ret : Int} {i : Option ι}
      (fuel : Nat) : Exchanged C data es s → s.avcodecSendPacket C fuel (i.map data) = some (ret, t) →
      Exchanged C data (es ++ [.fed i]) t

namespace AVCodecInternal

variable {C : FFCodec σ β} {toSkip : σ → PacketData → Nat} {s t : AVCodecInternal σ β} {fuel : Nat}

/-- Just opened, libavcodec has nothing to decode. -/
theorem opened_eagain {r : Except Int β} (h : (avcodecOpen2 C).avcodecReceiveFrame C fuel = some (r, t)) :
    received r = .eagain := by
  cases fuel with
  | zero => cases h
  | succ fuel =>
      obtain ⟨rfl, -⟩ := Prod.mk.inj (Option.some.inj h)
      rfl

theorem Tidy.withFrame (hs : s.Tidy) (f : Option β) : { s with bufferFrame := f }.Tidy :=
  ⟨hs.inPkt, hs.bsfPkt, hs.one, hs.before, hs.null⟩

def sent (s : AVCodecInternal σ β) : Option PacketData → AVCodecInternal σ β
  | none => { s with bsfEof := true }
  | some p => { s with bsfPkt := p }

/-- The jobs `new` were done, but for what is left, and the codec is done only when it had no frame any more. -/
def Done (C : FFCodec σ β) (new : List Job) (fs : List β) (s : AVCodecInternal σ β) : Prop :=
  Does C.job (C.start, []) new fs s.backlog ∧
    (s.drainingDone = true → C.delay = false ∨ C.Emptied (C.start, []) new)

theorem Done.leads {u : AVCodecInternal σ β} {new : List Job} {fs : List β} {ret : Int} {frame : Option β}
    (h : Done C new fs s) (hleads : Leads C s ret frame u) :
    ∃ k, (s.bsfEof = false → k = 0) ∧ Done C (new ++ FFCodec.blanks k) (fs ++ frame.toList) u := by
  obtain ⟨k, hk, hdoes, hempty⟩ := hleads.works
  refine ⟨k, fun heof => hk (Or.inl heof), h.1.trans hdoes, fun hdone => ?_⟩
  rcases hempty hdone with hbefore | hdelay | hempty
  · rw [hk (Or.inr hbefore)]
    exact (h.2 hbefore).imp_right fun he => (List.append_nil new).symm ▸ he
  · exact Or.inl hdelay
  · exact Or.inr (hempty.of_does h.1)

theorem Done.withFrame {new : List Job} {fs : List β} (h : Done C new fs s) (f : Option β) :
    Done C new fs { s with bufferFrame := f } := h

theorem Done.sends {new : List Job} {fs : List β} (h : Done C new fs s) (hin : s.inPkt = .blank)
    (hbsf : s.bsfPkt = .blank) (hdone : s.drainingDone = false) {p : Option PacketData} (hp : ∀ q ∈ p, q.Full) :
    Done C (new ++ (p.map Job.packet).toList) fs (s.sent p) := by
  have hback : s.backlog = (s.codec, []) := by
    rw [backlog, hin, hbsf]
    rfl
  have hdoes := h.1
  rw [hback] at hdoes
  cases p with
  | none =>
      refine ⟨?_, fun hd => absurd (hdone.symm.trans hd) Bool.false_ne_true⟩
      rw [show (s.sent none).backlog = (s.codec, []) from hback]
      exact (List.append_nil new).symm ▸ hdoes
  | some q =>
      refine ⟨?_, fun hd => absurd (hdone.symm.trans hd) Bool.false_ne_true⟩
      have hback' : (s.sent (some q)).backlog = (s.codec, [] ++ [.packet q]) := by
        rw [backlog, sent, hin, (hp q rfl).isEmpty_eq]
        rfl
      rw [hback', ← List.append_nil fs]
      exact hdoes.trans (Does.add C.job s.codec [] [.packet q])

end AVCodecInternal

/-! ## After the exchanges of a user -/

section
variable {C : FFCodec σ β} {data : ι → PacketData} {toSkip : σ → PacketData → Nat}

theorem jobsOf_append {α : Type} (data : ι → PacketData) (es es' : List (Exchange (Option ι) α)) :
    jobsOf data (es ++ es') = jobsOf data es ++ jobsOf data es' := by
  rw [jobsOf, Exchange.inputs_append, List.filterMap_append, List.map_append]
  rfl

theorem jobsOf_asked {α : Type} (data : ι → PacketData) (es : List (Exchange (Option ι) α)) (a : α) :
    jobsOf data (es ++ [.asked a]) = jobsOf data es := by
  rw [jobsOf_append]
  exact List.append_nil _

theorem inputs_snoc_asked {α : Type} (es : List (Exchange ι α)) (a : α) :
    Exchange.inputs (es ++ [.asked a]) = Exchange.inputs es := by
  rw [Exchange.inputs_append]
  exact List.append_nil _

theorem frames_asked (es : List (Exchange ι (Receive β))) (a : Receive β) :
    frames (es ++ [.asked a]) = frames es ++ a.frame?.toList := by
  rw [frames_append]
  cases a <;> rfl

/-- What holds after the exchanges `es`: the jobs sent were done, but for what is left, and the frames received are the
frames kept, but for one that waits. -/
structure Served (C : FFCodec σ β) (data : ι → PacketData)
    (es : List (Exchange (Option ι) (Receive β))) (s : AVCodecInternal σ β) : Prop where
  tidy : s.Tidy
  bsfPkt : s.bsfPkt = .blank
  draining : s.draining = s.bsfEof
  null : s.bsfEof = true ↔ none ∈ Exchange.inputs es
  works : ∃ k fs, (s.bsfEof = false → k = 0) ∧ AVCodecInternal.Done C (jobsOf data es ++ FFCodec.blanks k) fs s ∧
    frames es ++ (s.bufferFrame.map C.shown).toList = fs.map C.shown
  noErrors : s.bsfEof = false → s.nbDrainingErrors = 0
  video : C.type = .video → s.inPkt = .blank

/-- What holds besides when the user is to do `q`. -/
structure AtPhase (C : FFCodec σ β) (es : List (Exchange (Option ι) (Receive β))) (q : Phase)
    (s : AVCodecInternal σ β) : Prop where
  errors : q ≠ .stopped → s.nbDrainingErrors ≤ 1
  waits : q ≠ .asking → s.bufferFrame = none ∧ s.inPkt = .blank
  feeding : q = .feeding → s.bsfEof = false
  stopped : q = .stopped → (C.type = .video → s.bsfEof = true) ∧
    (s.bsfEof = true ∧ s.drainingDone = true ∨ Receive.error ∈ Exchange.answers es)

section
variable {es : List (Exchange (Option ι) (Receive β))} {q : Phase} {s t : AVCodecInternal σ β} {fuel : Nat}

theorem AtPhase.asking (h : s.nbDrainingErrors ≤ 1) : AtPhase C es .asking s :=
  ⟨fun _ => h, fun hne => absurd rfl hne, nofun, nofun⟩

theorem Served.asked (h : Served C data es s) (hnone : s.bufferFrame = none) {ret : Int} {frame : Option β}
    {a : Receive β} (ha : a.frame? = frame.map C.shown) (hleads : AVCodecInternal.Leads C s ret frame t) :
    Served C data (es ++ [.asked a]) t where
  tidy := hleads.tidy
  bsfPkt := hleads.bsfPkt
  draining := hleads.draining.trans hleads.bsfEof.symm
  null := by
    rw [hleads.bsfEof, inputs_snoc_asked]
    exact h.null
  works := by
    obtain ⟨k, fs, hk, hdone, hframes⟩ := h.works
    obtain ⟨j, hj, hdone'⟩ := hdone.leads hleads
    refine ⟨k + j, fs ++ frame.toList, fun heof => ?_, ?_, ?_⟩
    · rw [hleads.bsfEof] at heof
      rw [hk heof, hj heof]
    · rw [jobsOf_asked, ← AVCodecInternal.blanks_add, ← List.append_assoc]
      exact hdone'
    · rw [hnone, Option.map_none, Option.toList_none, List.append_nil] at hframes
      rw [frames_asked, ha, hframes, hleads.bufferFrame, hnone, Option.map_none, Option.toList_none, List.append_nil,
        List.map_append]
      cases frame <;> rfl
  noErrors := fun heof => by
    rw [hleads.bsfEof] at heof
    exact (hleads.errors.2 (Or.inr heof)).trans (h.noErrors heof)
  video := fun hv => (hleads.whole hv).1

theorem Served.waiting (h : Served C data es s) {f : β} (hf : s.bufferFrame = some f) :
    Served C data (es ++ [.asked (.frame (C.shown f))]) { s with bufferFrame := none } where
  tidy := h.tidy.withFrame none
  bsfPkt := h.bsfPkt
  draining := h.draining
  null := by
    rw [inputs_snoc_asked]
    exact h.null
  works := by
    obtain ⟨k, fs, hk, hdone, hframes⟩ := h.works
    refine ⟨k, fs, hk, ?_, ?_⟩
    · rw [jobsOf_asked]
      exact hdone.withFrame none
    · rw [hf] at hframes
      rw [frames_asked]
      exact (List.append_nil _).trans hframes
  noErrors := h.noErrors
  video := h.video

/-- The first answer of libavcodec, when it is asked first, is `AVERROR(EAGAIN)`. -/
theorem Exchanged.first (hex : Exchanged C data es s) :
    es = [] ∧ s = avcodecOpen2 C ∨ ∃ e, es.head? = some e ∧ ∀ a, e = .asked a → a = .eagain := by
  induction hex with
  | opened => exact Or.inl ⟨rfl, rfl⟩
  | asked fuel hex hr ih =>
      rcases ih with ⟨rfl, rfl⟩ | ⟨e, he, ha⟩
      · refine Or.inr ⟨_, rfl, fun a ha => ?_⟩
        rw [← Exchange.asked.inj ha]
        exact AVCodecInternal.opened_eagain hr
      · exact Or.inr ⟨e, by rw [List.head?_append, he]; rfl, ha⟩
  | fed fuel hex hr ih =>
      rcases ih with ⟨rfl, rfl⟩ | ⟨e, he, ha⟩
      · exact Or.inr ⟨_, rfl, nofun⟩
      · exact Or.inr ⟨e, by rw [List.head?_append, he]; rfl, ha⟩

theorem Served.decoded (h : Served C data es s) (hq : AtPhase C es q s) :
    ∃ k, (none ∉ Exchange.inputs es → k = 0) ∧
      frames es <+: C.decoded (jobsOf data es ++ FFCodec.blanks k) ∧
      (C.type = .video → (C.decoded (jobsOf data es ++ FFCodec.blanks k)).length ≤ (frames es).length + 1) ∧
      (q ≠ .asking → frames es = C.decoded (jobsOf data es ++ FFCodec.blanks k)) ∧
      (s.drainingDone = true → C.delay = true → C.Emptied (C.start, []) (jobsOf data es ++ FFCodec.blanks k)) := by
  obtain ⟨k, fs, hk, ⟨hdoes, hempty⟩, hframes⟩ := h.works
  -- with nothing left to decode, the frames kept are all there are
  have hwhole (hin : s.inPkt = .blank) : C.decoded (jobsOf data es ++ FFCodec.blanks k) = fs.map C.shown := by
    have hback : s.backlog = (s.codec, []) := by
      rw [AVCodecInternal.backlog, hin, h.bsfPkt]
      rfl
    rw [hback] at hdoes
    rw [FFCodec.decoded, hdoes.whole]
  refine ⟨k, fun hnull => hk (Bool.eq_false_iff.mpr fun heof => hnull (h.null.mp heof)), ?_, fun hv => ?_,
    fun hne => ?_, fun hdone hdelay => ?_⟩
  · exact (List.prefix_append _ _).trans (hframes ▸ hdoes.isPrefix.map C.shown)
  · rw [hwhole (h.video hv), ← hframes, List.length_append]
    cases s.bufferFrame <;> simp
  · obtain ⟨hbuffer, hin⟩ := hq.waits hne
    rw [hwhole hin, ← hframes, hbuffer]
    exact (List.append_nil _).symm
  · exact (hempty hdone).resolve_left fun hno => Bool.false_ne_true (hno.symm.trans hdelay)

end

end

end ArcVideo
