import ArcVideo.Conc.Transducer
import ArcVideo.Decoder.Routing
import ArcVideo.Decoder.NextFrame

/-!
# Decoding is sequential

A codec is a transducer: it is fed packets and asked for frames. Two threads pull packets out of one demuxer, for each
other too, and the decoding thread stops and goes on with the ring; what a codec is asked and fed is nevertheless what
a program would ask and feed that decodes the stream alone, in one loop.

* `exchange`, `exchanges` : the exchanges of a run with the codec of a stream;
* `InPhase` : where a thread is, and what its codec is to be asked next; `exchanges_used`, `inputs_exchanges`;
* `sequential_exchanges` : the exchanges of every run are the first of the sequential decoding;
* `decodeVideo` : the frames of the sequential decoding; `video_sequential` : the frames written and delivered are the
  first of them, and all of them once the video has ended;
* `whole_film` : when `nextVideoFrame` returns NULL in time, the consumer has had all of them.
-/

namespace ArcVideo
open Conc

variable {φ π : Type}

/-! ## The exchanges with a codec -/

/-- What the codecs decode to, for the model: a picture with its timestamp; the audio thread looks into no frame. -/
abbrev Decoded (φ : Type) : Stream → Type
  | .video => AVFrame φ
  | .audio => Unit

/-- What both decoding loops do after an answer. -/
def Receive.next {β : Type} : Receive β → Phase
  | .frame _ => .asking
  | .eagain => .feeding
  | .eof | .error => .stopped

def Receive.frame? {β : Type} : Receive β → Option β
  | .frame f => some f
  | _ => none

/-- The packet that `avcodec_send_packet` is given at this place. -/
def PacketLoop.sends : PacketLoop π → Option (Option (Demuxed π))
  | .send p => some (p.map AVPacket.content)
  | _ => none

/-- The exchange with the codec of a stream that a step is. -/
def exchange : ∀ k : Stream, State φ π → Action φ →
    Option (Exchange (Option (Demuxed π)) (Receive (Decoded φ k)))
  | .video, _, ⟨.run, .receive ret⟩ => some (.asked ret)
  | .video, s, ⟨.run, .step⟩ => (s.run.loop.bind PacketLoop.sends).map .fed
  | .audio, _, ⟨.audio, .receive ret⟩ => some (.asked ret)
  | .audio, s, ⟨.audio, .step⟩ => (s.audio.loop.bind PacketLoop.sends).map .fed
  | _, _, _ => none

def exchanges (k : Stream) (h : List (State φ π × Action φ)) :
    List (Exchange (Option (Demuxed π)) (Receive (Decoded φ k))) :=
  h.flatMap fun p => (exchange k p.1 p.2).toList

def Container.inputs (c : Container) (file : List (Demuxed π)) (k : Stream) : List (Option (Demuxed π)) :=
  (file.filter (c.ofStream k)).map some ++ [none]

theorem exchanges_snoc (k : Stream) (h : List (State φ π × Action φ)) (s : State φ π) (a : Action φ) :
    exchanges k (h ++ [(s, a)]) = exchanges k h ++ (exchange k s a).toList := by
  rw [exchanges, List.flatMap_append, List.flatMap_singleton]
  rfl

/-! ## What a codec is fed -/

theorem PacketLoop.Move.sent {c : Container} {k : Stream} {f : PacketLoop π} {f' : Option (PacketLoop π)}
    {m m' : Demuxer π} (h : f.Move c k m f' m') : (m'.codec k).sent = (m.codec k).sent ++ f.sends.toList := by
  cases h with
  | send => simp [Demuxer.sendPacket, PacketLoop.sends]
  | route =>
      rw [Demuxer.route_codec]
      exact (List.append_nil _).symm
  | _ => exact (List.append_nil _).symm

theorem RunMove.sent {c : Container} {a : RunAct φ} {l l' : RunPc φ π} {d d' : VideoDecoder φ π}
    (h : RunMove c a l d l' d') {s : State φ π} (hl : s.run = l) (k : Stream) :
    (d'.demuxer.codec k).sent = (d.demuxer.codec k).sent ++ Exchange.inputs (exchange k s ⟨.run, a⟩).toList := by
  cases h with
  | @fetch _ f _ _ hf =>
      cases k with
      | video =>
          rw [exchange, hl]
          exact hf.sent.trans (congrArg _ (Exchange.inputs_map_fed _).symm)
      | audio =>
          rw [show exchange (φ := φ) .audio s ⟨.run, .step⟩ = none from rfl]
          exact (congrArg AVCodecContext.sent (hf.codec_of_ne (j := .audio) (by decide))).trans (List.append_nil _).symm
  | frame | eagain | eof | error | callback | spurious => cases k <;> exact (List.append_nil _).symm
  | _ =>
      cases k with
      | video =>
          rw [exchange, hl]
          exact (List.append_nil _).symm
      | audio => exact (List.append_nil _).symm

theorem AudioMove.sent {c : Container} {a : AudioAct} {l l' : AudioPc π} {d d' : VideoDecoder φ π}
    (h : AudioMove c a l d l' d') {s : State φ π} (hl : s.audio = l) (k : Stream) :
    (d'.demuxer.codec k).sent = (d.demuxer.codec k).sent ++ Exchange.inputs (exchange k s ⟨.audio, a⟩).toList := by
  cases h with
  | @fetch _ f _ _ hf =>
      cases k with
      | audio =>
          rw [exchange, hl]
          exact hf.sent.trans (congrArg _ (Exchange.inputs_map_fed _).symm)
      | video =>
          rw [show exchange (φ := φ) .video s ⟨.audio, .step⟩ = none from rfl]
          exact (congrArg AVCodecContext.sent (hf.codec_of_ne (j := .video) (by decide))).trans (List.append_nil _).symm
  | frame | eagain | eof | error | callback | decodeAudio => cases k <;> exact (List.append_nil _).symm
  | _ =>
      cases k with
      | audio =>
          rw [exchange, hl]
          exact (List.append_nil _).symm
      | video => exact (List.append_nil _).symm

section
variable {c : Container} {file : List (Demuxed π)} {h : List (State φ π × Action φ)} {s : State φ π}

theorem inputs_exchanges (hr : (decoder φ c file).Run h s) (k : Stream) :
    Exchange.inputs (exchanges k h) = (s.shared.demuxer.codec k).sent := by
  refine System.RunWhen.induction (P := fun h s => Exchange.inputs (exchanges k h) = (s.shared.demuxer.codec k).sent)
    ?_ ?_ hr
  · rintro _ rfl
    rfl
  · rintro h s ⟨t, a⟩ s' - ih - hstep
    obtain ⟨l, d, hs, rfl⟩ := Program.next_eq_some hstep
    rw [exchanges_snoc, Exchange.inputs_append, ih, Config.put_shared]
    cases t with
    | run => exact ((run_move hs).sent rfl k).symm
    | audio => exact ((audio_move hs).sent rfl k).symm
    | consumer =>
        rw [show exchange k s ⟨.consumer, a⟩ = none by cases k <;> rfl, (consumer_move hs).demuxer_eq]
        exact List.append_nil _

end

/-! ## The two loops keep to the answers -/

def PacketLoop.phase (f : PacketLoop π) : Phase := if f.sending then .feeding else .asking

/-- Where `run` is when the video codec is to be used as `q` says. -/
def RunPc.InPhase (ended : Bool) : RunPc φ π → Phase → Prop
  | .fetch f, q => q = f.phase
  | .setEnded, q => q = .stopped
  | l, q => q = .asking ∨ q = .stopped ∧ l.ending = true ∧ ended = true

/-- Where `decodeAudio` is when the audio codec is to be used as `q` says. -/
def AudioPc.InPhase (ended : Bool) : AudioPc π → Phase → Prop
  | .fetch f, q => q = f.phase
  | .setEnded, q => q = .stopped
  | .receive, q => q = .asking
  | _, q => q = .asking ∨ q = .stopped ∧ ended = true

def State.InPhase (s : State φ π) : Stream → Phase → Prop
  | .video, q => s.run.InPhase s.shared.videoOutputEnded q ∧
      (s.shared.videoOutputEnded = true → q = .stopped ∨ s.consumer.deleting = true)
  | .audio, q => s.audio.InPhase s.shared.audioOutputEnded q

theorem PacketLoop.Move.used {c : Container} {k : Stream} {f : PacketLoop π} {f' : Option (PacketLoop π)}
    {m m' : Demuxer π} (h : f.Move c k m f' m') (α : Type) (next : α → Phase) :
    (user next).feed f.phase (f.sends.map Exchange.fed).toList = some (f'.elim .asking PacketLoop.phase) := by
  cases h <;> rfl

theorem RunPc.InPhase.asking {b : Bool} {q : Phase} (h : (RunPc.receive : RunPc φ π).InPhase b q) : q = .asking := by
  rcases h with h | ⟨-, h, -⟩
  · exact h
  · cases h

/-- From a place outside the packet loop to another: the codec is to be used as before, unless `run` comes back from
its end. -/
theorem RunPc.InPhase.stay {l l' : RunPc φ π} {b : Bool} {q : Phase} (h : l.InPhase b q) (hl : l.loop = none)
    (hset : l.settingEnded = false) (hl' : l'.loop = none) (hset' : l'.settingEnded = false)
    (hend : l.ending = true → b = true → l'.ending = true) : l'.InPhase b q := by
  have hcases : q = .asking ∨ q = .stopped ∧ l.ending = true ∧ b = true := by
    cases l with
    | fetch => cases hl
    | setEnded => cases hset
    | _ => exact h
  have hcases' : q = .asking ∨ q = .stopped ∧ l'.ending = true ∧ b = true :=
    hcases.imp_right fun hq => ⟨hq.1, hend hq.2.1 hq.2.2, hq.2.2⟩
  cases l' with
  | fetch => cases hl'
  | setEnded => cases hset'
  | _ => exact hcases'

/-- The exchanges of a step of `run` are a use of the video codec that goes on as the answers say. -/
theorem RunMove.inPhase {c : Container} {a : RunAct φ} {l l' : RunPc φ π} {d d' : VideoDecoder φ π}
    (h : RunMove c a l d l' d') {s : State φ π} (hl : s.run = l) {q : Phase} (hq : l.InPhase d.videoOutputEnded q) :
    ∃ q', (user Receive.next).feed q (exchange .video s ⟨.run, a⟩).toList = some q' ∧
      l'.InPhase d'.videoOutputEnded q' ∧
      (d'.videoOutputEnded = true → d.videoOutputEnded = true ∨ q' = .stopped) := by
  have hstep : a = .step → exchange .video s ⟨.run, a⟩ = (l.loop.bind PacketLoop.sends).map .fed := by
    rintro rfl
    rw [exchange, hl]
  have hplain : a = .step → l.loop = none → (user Receive.next).feed q (exchange .video s ⟨.run, a⟩).toList = some q :=
    fun ha hn => by rw [hstep ha, hn]; rfl
  cases h with
  | frame =>
      obtain rfl := hq.asking
      exact ⟨.asking, rfl, Or.inl rfl, Or.inl⟩
  | eagain =>
      obtain rfl := hq.asking
      exact ⟨.feeding, rfl, rfl, Or.inl⟩
  | eof | error =>
      obtain rfl := hq.asking
      exact ⟨.stopped, rfl, rfl, Or.inl⟩
  | @fetch _ f f' _ hf =>
      obtain rfl : q = f.phase := hq
      refine ⟨_, by rw [hstep rfl]; exact hf.used _ _, ?_, Or.inl⟩
      cases f' with
      | none => exact Or.inl rfl
      | some f' => rfl
  | callback => exact ⟨q, rfl, hq, Or.inl⟩
  | setEnded =>
      obtain rfl : q = .stopped := hq
      exact ⟨.stopped, hplain rfl rfl, Or.inr ⟨rfl, rfl, rfl⟩, fun _ => Or.inr rfl⟩
  | spurious => exact ⟨q, rfl, hq.stay rfl rfl rfl rfl (fun h _ => h), Or.inl⟩
  | has =>
      refine ⟨q, hplain rfl rfl, hq.stay rfl rfl ?_ ?_ (fun h => absurd h Bool.false_ne_true), Or.inl⟩ <;>
        split_ifs <;> rfl
  | goWait he =>
      refine ⟨q, hplain rfl rfl, hq.stay rfl rfl rfl rfl fun _ h => ?_, Or.inl⟩
      exact absurd (he.symm.trans h) Bool.false_ne_true
  | stop | unlockLast | cleanup | ret =>
      exact ⟨q, hplain rfl rfl, hq.stay rfl rfl rfl rfl (fun _ _ => rfl), Or.inl⟩
  | _ => exact ⟨q, hplain rfl rfl, hq.stay rfl rfl rfl rfl (fun h => absurd h Bool.false_ne_true), Or.inl⟩

theorem RunMove.audioOutputEnded_eq {c : Container} {a : RunAct φ} {l l' : RunPc φ π} {d d' : VideoDecoder φ π}
    (h : RunMove c a l d l' d') : d'.audioOutputEnded = d.audioOutputEnded := by
  cases h <;> rfl

theorem ConsumerMove.audioOutputEnded_of {a : ConsumerAct} {l l' : ConsumerPc} {d d' : VideoDecoder φ π}
    (h : ConsumerMove a l d l' d') (he : d.audioOutputEnded = true) : d'.audioOutputEnded = true := by
  cases h with
  | delAudio => rfl
  | _ => exact he

theorem AudioMove.inPhase {c : Container} {a : AudioAct} {l l' : AudioPc π} {d d' : VideoDecoder φ π}
    (h : AudioMove c a l d l' d') {s : State φ π} (hl : s.audio = l) {q : Phase} (hq : l.InPhase d.audioOutputEnded q) :
    ∃ q', (user Receive.next).feed q (exchange .audio s ⟨.audio, a⟩).toList = some q' ∧
      l'.InPhase d'.audioOutputEnded q' := by
  have hstep : a = .step → exchange .audio s ⟨.audio, a⟩ = (l.loop.bind PacketLoop.sends).map .fed := by
    rintro rfl
    rw [exchange, hl]
  cases h with
  | decodeAudio => exact ⟨q, rfl, hq⟩
  | @testEnded d =>
      refine ⟨q, by rw [hstep rfl]; rfl, ?_⟩
      split_ifs with he
      · exact hq
      · exact hq.resolve_right fun hq => he hq.2
  | frame =>
      obtain rfl : q = .asking := hq
      exact ⟨.asking, rfl, Or.inl rfl⟩
  | eagain =>
      obtain rfl : q = .asking := hq
      exact ⟨.feeding, rfl, rfl⟩
  | eof | error =>
      obtain rfl : q = .asking := hq
      exact ⟨.stopped, rfl, rfl⟩
  | @fetch _ f f' _ hf =>
      obtain rfl : q = f.phase := hq
      refine ⟨_, by rw [hstep rfl]; exact hf.used _ _, ?_⟩
      cases f' with
      | none => exact Or.inl rfl
      | some f' => rfl
  | callback => exact ⟨q, rfl, hq⟩
  | setEnded =>
      obtain rfl : q = .stopped := hq
      exact ⟨.stopped, by rw [hstep rfl]; rfl, Or.inr ⟨rfl, rfl⟩⟩

theorem RunPc.InPhase.mono {l : RunPc φ π} {b b' : Bool} {q : Phase} (h : l.InPhase b q) (hb : b = true → b' = true) :
    l.InPhase b' q := by
  cases l with
  | fetch | setEnded => exact h
  | _ => exact h.imp_right fun hq => ⟨hq.1, hq.2.1, hb hq.2.2⟩

theorem AudioPc.InPhase.mono {l : AudioPc π} {b b' : Bool} {q : Phase} (h : l.InPhase b q) (hb : b = true → b' = true) :
    l.InPhase b' q := by
  cases l with
  | idle | testEnded => exact h.imp_right fun hq => ⟨hq.1, hb hq.2⟩
  | _ => exact h

section
variable {c : Container} {file : List (Demuxed π)} {h : List (State φ π × Action φ)} {s : State φ π}

theorem video_used (hr : (decoder φ c file).Run h s) :
    ∃ q, (user Receive.next).feed .asking (exchanges .video h) = some q ∧ s.InPhase .video q := by
  refine System.accepts_of_simulation (fun s a => (exchange .video s a).toList) (fun s q => s.InPhase .video q) ?_ ?_ hr
  · rintro _ rfl
    exact ⟨Or.inl rfl, nofun⟩
  · rintro h s ⟨t, a⟩ s' q - ⟨hq, hend⟩ - hstep
    obtain ⟨l, d, hs, rfl⟩ := Program.next_eq_some hstep
    cases t with
    | run =>
        obtain ⟨q', hfeed, hq', hset⟩ := (run_move hs).inPhase rfl hq
        refine ⟨q', hfeed, hq', fun he => ?_⟩
        rcases hset he with he | hstop
        · rcases hend he with rfl | hdel
          · exact Or.inl (user_stopped hfeed).2
          · exact Or.inr hdel
        · exact Or.inl hstop
    | consumer =>
        obtain ⟨hdel, hset⟩ := (consumer_move hs).deleting
        refine ⟨q, rfl, hq.mono (step_effect hs).ended_of, fun he => ?_⟩
        rcases hset he with he | hdel'
        · exact (hend he).imp_right hdel
        · exact Or.inr hdel'
    | audio =>
        have he := (step_effect hs).ended_eq rfl
        exact ⟨q, rfl, hq.mono (step_effect hs).ended_of, fun h => hend (he ▸ h)⟩

theorem audio_used (hr : (decoder φ c file).Run h s) :
    ∃ q, (user Receive.next).feed .asking (exchanges .audio h) = some q ∧ s.InPhase .audio q := by
  refine System.accepts_of_simulation (fun s a => (exchange .audio s a).toList) (fun s q => s.InPhase .audio q) ?_ ?_ hr
  · rintro _ rfl
    exact Or.inl rfl
  · rintro h s ⟨t, a⟩ s' q - hq - hstep
    obtain ⟨l, d, hs, rfl⟩ := Program.next_eq_some hstep
    cases t with
    | run => exact ⟨q, rfl, AudioPc.InPhase.mono hq fun he => (run_move hs).audioOutputEnded_eq.trans he⟩
    | consumer => exact ⟨q, rfl, AudioPc.InPhase.mono hq (consumer_move hs).audioOutputEnded_of⟩
    | audio => exact (audio_move hs).inPhase rfl hq

/-- Both loops keep to the answers of their codecs. -/
theorem exchanges_used (hr : (decoder φ c file).Run h s) (k : Stream) :
    ∃ q, (user Receive.next).feed .asking (exchanges k h) = some q ∧ s.InPhase k q := by
  cases k with
  | video => exact video_used hr
  | audio => exact audio_used hr

end

/-! ## Sequential decoding -/

section
variable {c : Container} {file : List (Demuxed π)} {h : List (State φ π × Action φ)} {s : State φ π}

theorem inputs_isPrefix (hr : (decoder φ c file).Run h s) (k : Stream) :
    Exchange.inputs (exchanges k h) <+: c.inputs file k := by
  rw [inputs_exchanges hr k]
  exact (routed hr).sent_isPrefix k

variable {σ : Type} {k : Stream} {codec : Transducer σ (Option (Demuxed π)) (Receive (Decoded φ k))}

/-- **Decoding does not depend on the schedule**: in every run, the exchanges with a codec are the first exchanges of a
program that decodes its stream alone; so two runs on a file, their threads interleaved as they like, have the same
exchanges, one of them possibly more. -/
theorem sequential_exchanges (hr : (decoder φ c file).Run h s) (hg : codec.Gives codec.start (exchanges k h)) :
    exchanges k h = codec.sequential Receive.next (c.inputs file k) (exchanges k h).length ∧
    ∀ h' s', (decoder φ c file).Run h' s' → codec.Gives codec.start (exchanges k h') →
      exchanges k h <+: exchanges k h' ∨ exchanges k h' <+: exchanges k h := by
  obtain ⟨q, hu, -⟩ := exchanges_used hr k
  refine ⟨Transducer.eq_drive hu hg (inputs_isPrefix hr k), fun h' s' hr' hg' => ?_⟩
  obtain ⟨q', hu', -⟩ := exchanges_used hr' k
  exact Transducer.comparable hu hg (inputs_isPrefix hr k) hu' hg' (inputs_isPrefix hr' k)

end

/-- A codec that makes a frame of every packet; it has frames in hand at the start. -/
def plainCodec (inHand : List Nat) : Transducer (List Nat × Bool) (Option (Demuxed Nat)) (Receive (AVFrame Nat)) where
  start := (inHand, false)
  ask
    | (x :: xs, drained) => (.frame ⟨x, 0⟩, (xs, drained))
    | ([], true) => (.eof, ([], true))
    | ([], false) => (.eagain, ([], false))
  feed
    | (xs, drained), some q => (xs ++ [q.data], drained)
    | (xs, _), none => (xs, true)

/-- The decoding thread reads the first packet, sends it and gets its frame. -/
theorem sequential_exchanges_first : ∃ h s, (decoder Nat (Container.videoOnly false) [⟨0, 5⟩, ⟨0, 7⟩]).Run h s ∧
    exchanges .video h = [.asked .eagain, .fed (some ⟨0, 5⟩), .asked (.frame ⟨5, 0⟩)] ∧
    exchanges .video h = (plainCodec []).sequential Receive.next
      ((Container.videoOnly false).inputs [⟨0, 5⟩, ⟨0, 7⟩] .video) (exchanges .video h).length := by
  obtain ⟨h, s, hr, hex⟩ := (decoder Nat (Container.videoOnly false) [⟨0, 5⟩, ⟨0, 7⟩]).exists_run rfl
    (Action.decodes ⟨5, 0⟩)
    (fun h _ => exchanges .video h = [.asked .eagain, .fed (some ⟨0, 5⟩), .asked (.frame ⟨5, 0⟩)])
    (by decide +kernel)
  have hg : (plainCodec []).Gives (plainCodec []).start (exchanges .video h) := by
    rw [hex]
    exact ⟨rfl, rfl, trivial⟩
  exact ⟨h, s, hr, hex, (sequential_exchanges hr hg).1⟩

/-! ## The frames -/

def frames {ι β : Type} (es : List (Exchange ι (Receive β))) : List β :=
  (Exchange.answers es).filterMap Receive.frame?

theorem frames_append {ι β : Type} (es es' : List (Exchange ι (Receive β))) :
    frames (es ++ es') = frames es ++ frames es' := by
  rw [frames, Exchange.answers_append, List.filterMap_append]
  rfl

theorem frames_fed {ι β : Type} (o : Option ι) :
    frames (o.map (Exchange.fed (α := Receive β))).toList = [] := by
  cases o <;> rfl

theorem frames_isPrefix {ι β : Type} {es es' : List (Exchange ι (Receive β))} (h : es <+: es') :
    frames es <+: frames es' := by
  obtain ⟨t, rfl⟩ := h
  rw [frames_append]
  exact List.prefix_append _ _

def RunPc.received : RunPc φ π → List (AVFrame φ)
  | .scale f | .scaled f | .writePts f | .publish f => [f]
  | _ => []

theorem framesWritten_snoc (h : List (State φ π × Action φ)) (s : State φ π) (a : Action φ) :
    framesWritten (h ++ [(s, a)]) = framesWritten h ++ (published s a).toList := by
  unfold framesWritten
  rw [List.filterMap_append]
  congr 1

theorem RunMove.received {c : Container} {a : RunAct φ} {l l' : RunPc φ π} {d d' : VideoDecoder φ π}
    (h : RunMove c a l d l' d') {s : State φ π} (hl : s.run = l) :
    l.received ++ frames (exchange .video s ⟨.run, a⟩).toList = (l.publishes a).toList ++ l'.received := by
  have hstep : a = .step → frames (exchange .video s ⟨.run, a⟩).toList = [] := by
    rintro rfl
    rw [exchange]
    exact frames_fed _
  cases h with
  | frame | eagain | eof | error | callback | spurious => rfl
  | publish | scale | scaled | writePts => exact congrArg _ (hstep rfl)
  | has => split_ifs <;> exact congrArg _ (hstep rfl)
  | @fetch _ _ f' _ _ => cases f' <;> exact congrArg _ (hstep rfl)
  | _ => exact congrArg _ (hstep rfl)

/-- The frames of sequential decoding, of its first `n` exchanges with the video codec. -/
def decodeVideo {σ : Type} (codec : Transducer σ (Option (Demuxed π)) (Receive (AVFrame φ))) (c : Container)
    (file : List (Demuxed π)) (n : Nat) : List (AVFrame φ) :=
  frames (codec.sequential Receive.next (c.inputs file .video) n)

section
variable {c : Container} {file : List (Demuxed π)} {h : List (State φ π × Action φ)} {s : State φ π}

theorem frames_exchanges (hr : (decoder φ c file).Run h s) :
    frames (exchanges .video h) = framesWritten h ++ s.run.received := by
  refine System.RunWhen.induction (P := fun h s => frames (exchanges .video h) = framesWritten h ++ s.run.received)
    ?_ ?_ hr
  · rintro _ rfl
    rfl
  · rintro h s ⟨t, a⟩ s' - ih - hstep
    obtain ⟨l, d, hs, rfl⟩ := Program.next_eq_some hstep
    rw [exchanges_snoc, frames_append, framesWritten_snoc, ih, List.append_assoc, List.append_assoc]
    cases t with
    | run => exact congrArg _ ((run_move hs).received rfl)
    | consumer => exact congrArg _ (List.append_nil _)
    | audio => exact congrArg _ (List.append_nil _)

variable {σ : Type} {codec : Transducer σ (Option (Demuxed π)) (Receive (AVFrame φ))}

theorem exchanges_isPrefix (hr : (decoder φ c file).Run h s) (hg : codec.Gives codec.start (exchanges .video h))
    {n : Nat} (hn : (exchanges .video h).length ≤ n) :
    exchanges .video h <+: codec.sequential Receive.next (c.inputs file .video) n := by
  obtain ⟨q, hu, -⟩ := exchanges_used hr .video
  rw [Transducer.eq_drive hu hg (inputs_isPrefix hr .video)]
  exact Transducer.drive_mono hn _ _ _

theorem written_isPrefix (hr : (decoder φ c file).Run h s) (hg : codec.Gives codec.start (exchanges .video h))
    {n : Nat} (hn : (exchanges .video h).length ≤ n) : framesWritten h <+: decodeVideo codec c file n := by
  refine List.IsPrefix.trans ?_ (frames_isPrefix (exchanges_isPrefix hr hg hn))
  rw [frames_exchanges hr]
  exact List.prefix_append _ _

theorem delivered_isPrefix (hr : (decoder φ c file).Run h s) (hg : codec.Gives codec.start (exchanges .video h))
    {n : Nat} (hn : (exchanges .video h).length ≤ n) :
    framesDelivered h <+: (decodeVideo codec c file n).map AVFrame.toRgb := by
  obtain ⟨q, hq, -⟩ := written_eq_delivered hr
  exact (List.prefix_append _ _).trans (hq ▸ (written_isPrefix hr hg hn).map AVFrame.toRgb)

theorem received_ended (hr : (decoder φ c file).Run h s) (he : s.shared.videoOutputEnded = true)
    (hdel : s.consumer.deleting = false) : s.run.received = [] := by
  have hrun := (ended_cases hr he).resolve_left (Bool.eq_false_iff.mp hdel)
  cases hl : s.run <;> first | rfl | (rw [hl] at hrun; cases hrun)

theorem written_whole (hr : (decoder φ c file).Run h s) (hg : codec.Gives codec.start (exchanges .video h))
    (he : s.shared.videoOutputEnded = true) (hdel : s.consumer.deleting = false) {n : Nat}
    (hn : (exchanges .video h).length ≤ n) : decodeVideo codec c file n = framesWritten h := by
  obtain ⟨q, hu, -, hend⟩ := video_used hr
  obtain rfl := (hend he).resolve_right (Bool.eq_false_iff.mp hdel)
  have hframes := frames_exchanges hr
  rw [received_ended hr he hdel, List.append_nil] at hframes
  rw [← hframes]
  exact congrArg frames (Transducer.stopped_drive hu hg (inputs_isPrefix hr .video) hn)

/-- **The frames are those of sequential decoding**, in every run and from some number of exchanges on: the frames
written into the ring and those delivered are the first ones, in order and none twice; when the video has ended and the
decoder is not being destroyed, the frames written are all of them. -/
theorem video_sequential (hr : (decoder φ c file).Run h s) (hg : codec.Gives codec.start (exchanges .video h)) :
    ∃ m, ∀ n, m ≤ n → framesWritten h <+: decodeVideo codec c file n ∧
      framesDelivered h <+: (decodeVideo codec c file n).map AVFrame.toRgb ∧
      (s.shared.videoOutputEnded = true → s.consumer.deleting = false → framesWritten h = decodeVideo codec c file n) :=
  ⟨(exchanges .video h).length, fun _ hn => ⟨written_isPrefix hr hg hn, delivered_isPrefix hr hg hn,
    fun he hdel => (written_whole hr hg he hdel hn).symm⟩⟩

/-- When `nextVideoFrame` returns NULL after a first frame, and `run` has not ended between its reads, the video has
ended and all the frames written are delivered. -/
theorem finished_at_null (hr : (decoder φ c file).RunWhen endsInTime h s) (hnull : s.consumer = .returnNull)
    (hcall : 1 ≤ decodedAtCall h) :
    s.shared.videoOutputEnded = true ∧ framesDelivered h = (framesWritten h).map AVFrame.toRgb := by
  have hk := seesEnd_of_run hr
  rw [hnull] at hk
  obtain ⟨he, hle⟩ := hk hcall
  obtain ⟨q, hq, hlen, -⟩ := written_eq_delivered hr.run
  have hfrom : queueFrom s.consumer s.shared = s.shared.currentFrameDisplayed + 1 := by rw [hnull]; rfl
  have hnil : q = [] := List.eq_nil_of_length_eq_zero (by omega)
  rw [hq, hnil, List.append_nil]
  exact ⟨he, rfl⟩

/-- **NULL comes after the whole film**: when a call made after a frame was decoded returns NULL, and `run` did not end
between its reads, the consumer has been given every frame of the sequential decoding, pixels and timestamps, in
order. -/
theorem whole_film (hr : (decoder φ c file).RunWhen endsInTime h s)
    (hg : codec.Gives codec.start (exchanges .video h)) (hnull : s.consumer = .returnNull)
    (hcall : 1 ≤ decodedAtCall h) :
    ∃ m, ∀ n, m ≤ n → framesDelivered h = (decodeVideo codec c file n).map AVFrame.toRgb := by
  obtain ⟨he, hall⟩ := finished_at_null hr hnull hcall
  refine ⟨(exchanges .video h).length, fun n hn => ?_⟩
  rw [hall, written_whole hr.run hg he (by rw [hnull]; rfl) hn]

end

/-- The file has one packet; its frame has been written and the video has ended. -/
theorem video_sequential_one_frame : ∃ h s, (decoder Nat (Container.videoOnly false) [⟨0, 5⟩]).Run h s ∧
    framesWritten h = [⟨5, 0⟩] ∧ s.shared.videoOutputEnded = true ∧
    ∃ m, ∀ n, m ≤ n → framesWritten h = decodeVideo (plainCodec []) (Container.videoOnly false) [⟨0, 5⟩] n := by
  obtain ⟨h, s, hr, hex, hframes, hend, hdel⟩ := (decoder Nat (Container.videoOnly false) [⟨0, 5⟩]).exists_run rfl
    (Action.decodes ⟨5, 0⟩ ++ Action.runs 4 ++ Action.drains)
    (fun h s => exchanges .video h = [.asked .eagain, .fed (some ⟨0, 5⟩), .asked (.frame ⟨5, 0⟩), .asked .eagain,
        .fed none, .asked .eof] ∧
      framesWritten h = [⟨5, 0⟩] ∧ s.shared.videoOutputEnded = true ∧ s.consumer.deleting = false) (by decide +kernel)
  have hg : (plainCodec []).Gives (plainCodec []).start (exchanges .video h) := by
    rw [hex]
    exact ⟨rfl, rfl, rfl, rfl, trivial⟩
  obtain ⟨m, hm⟩ := video_sequential hr hg
  exact ⟨h, s, hr, hframes, hend, m, fun n hn => (hm n hn).2.2 hend hdel⟩

/-- The file has one packet: its frame is delivered, and the next call returns NULL. -/
theorem whole_film_one_frame : ∃ h s, (decoder Nat (Container.videoOnly false) [⟨0, 5⟩]).Run h s ∧
    s.consumer = .returnNull ∧
    framesDelivered h = [⟨some 5, 0⟩] ∧
    ∃ m, ∀ n, m ≤ n →
      framesDelivered h = (decodeVideo (plainCodec []) (Container.videoOnly false) [⟨0, 5⟩] n).map AVFrame.toRgb := by
  obtain ⟨h, s, hr, hok, hnull, hcall, hex, hframes⟩ :=
    (decoder Nat (Container.videoOnly false) [⟨0, 5⟩]).exists_run rfl
      (Action.decodes ⟨5, 0⟩ ++ Action.runs 4 ++ Action.calls .nextVideoFrame 7 ++ Action.drains ++
        Action.calls .nextVideoFrame 3)
      (fun h s => (∀ p ∈ h, endsInTime p.1 p.2) ∧ s.consumer = .returnNull ∧ 1 ≤ decodedAtCall h ∧
        exchanges .video h = [.asked .eagain, .fed (some ⟨0, 5⟩), .asked (.frame ⟨5, 0⟩), .asked .eagain, .fed none,
          .asked .eof] ∧
        framesDelivered h = [⟨some 5, 0⟩]) (by decide +kernel)
  have hg : (plainCodec []).Gives (plainCodec []).start (exchanges .video h) := by
    rw [hex]
    exact ⟨rfl, rfl, rfl, rfl, trivial⟩
  exact ⟨h, s, hr, hnull, hframes, whole_film (hr.when hok) hg hnull hcall⟩

end ArcVideo
