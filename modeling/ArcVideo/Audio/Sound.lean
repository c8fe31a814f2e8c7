import ArcVideo.Audio.Blocks
import ArcVideo.Decoder.Sequential

/-!
# The sound

The audio thread among the others, with the samples: the blocks that `updateAudioBuffer` fills in a run of the threads
are the sound of a program that decodes the audio stream alone.

* `Resampled` : a frame with the answers of the resampler on it; the codec with the resampler is a transducer that
  answers with such frames;
* `Heard`, `heard` : the calls of `decodeAudio` in a run, each on the answers it got;
* `SoundInv` : the calls that have returned left the frames of the codec, and silence after them;
* `soundTrack` : the bytes of the sequential decoding; `sound_sequential` : the blocks are the first of them.
-/

namespace ArcVideo
open Conc

variable {φ π : Type}

/-! ## Frames with their samples -/

/-- A frame of the audio codec, with the answers of `swr_get_out_samples` and `swr_convert` on it. -/
structure Resampled where
  maxSamples : Int
  converted : Converted

/-- What the run of the threads has of an answer. -/
def Receive.erase : Receive Resampled → Receive Unit
  | .frame _ => .frame ()
  | .eagain => .eagain
  | .eof => .eof
  | .error => .error

/-- What `decodeAudio` makes of an answer. -/
def Receive.audioAnswer : Receive Resampled → AudioAnswer
  | .frame f => .frame f.maxSamples f.converted
  | .eagain => .again
  | .eof | .error => .failed

theorem Receive.next_erase (a : Receive Resampled) : a.erase.next = a.next := by
  cases a <;> rfl

/-- What a call that gets this frame leaves. -/
def Resampled.result (f : Resampled) : DecodeResult :=
  let c := if 0 < f.maxSamples then f.converted else Converted.none
  ⟨c.data, c.size, false, c.fits, c.size_le⟩

def DecodeResult.silence : DecodeResult := ⟨[], 0, true, Nat.zero_le _, Int.natCast_nonneg _⟩

theorem DecodeResult.bytes_silence : DecodeResult.silence.bytes = List.replicate 1024 0 := rfl

section
variable {as : List AudioAnswer}

theorem decodeAudio_again (h : ∀ a ∈ as, a = .again) (as' : List AudioAnswer) :
    decodeAudio false (as ++ as') = decodeAudio false as' := by
  induction as with
  | nil => rfl
  | cons a as ih =>
      obtain rfl := h a List.mem_cons_self
      rw [List.cons_append, decodeAudio]
      exact ih fun b hb => h b (List.mem_cons_of_mem _ hb)

theorem decodeAudio_frame (h : ∀ a ∈ as, a = .again) (f : Resampled) :
    decodeAudio false (as ++ [(Receive.frame f).audioAnswer]) = some f.result := by
  rw [decodeAudio_again h]
  rfl

theorem decodeAudio_failed (h : ∀ a ∈ as, a = .again) :
    decodeAudio false (as ++ [.failed]) = some .silence := by
  rw [decodeAudio_again h, decodeAudio]
  exact decodeAudio_ended []

end

/-! ## The calls of a run -/

structure Heard (σ : Type) where
  codec : σ
  /-- `audioOutputEnded` when the last call began. -/
  began : Bool
  /-- The answers the last call has got. -/
  call : List AudioAnswer
  /-- What the calls left that have returned. -/
  results : List (Option DecodeResult)

namespace Heard

variable {σ : Type}

def begins (l : Heard σ) (audioOutputEnded : Bool) : Heard σ := { l with began := audioOutputEnded, call := [] }

def returns (l : Heard σ) : Heard σ := { l with results := l.results ++ [decodeAudio l.began l.call] }

def asks (codec : Transducer σ (Option (Demuxed π)) (Receive Resampled)) (l : Heard σ) : Heard σ :=
  let l' := { l with codec := (codec.ask l.codec).2, call := l.call ++ [(codec.ask l.codec).1.audioAnswer] }
  match (codec.ask l.codec).1 with
  | .frame _ => l'.returns
  | _ => l'

/-- A step of `decodeAudio` from the place `pc`: the loop ends, or the codec is fed. -/
def steps (codec : Transducer σ (Option (Demuxed π)) (Receive Resampled)) (audioOutputEnded : Bool) (l : Heard σ) :
    AudioPc π → Heard σ
  | .testEnded => if audioOutputEnded then l.returns else l
  | .fetch (.send p) => { l with codec := codec.feed l.codec (p.map AVPacket.content) }
  | _ => l

/-- A step in the state `s`. -/
def next (codec : Transducer σ (Option (Demuxed π)) (Receive Resampled)) (s : State φ π) (a : Action φ)
    (l : Heard σ) : Heard σ :=
  match a with
  | ⟨.audio, .decodeAudio⟩ => l.begins s.shared.audioOutputEnded
  | ⟨.audio, .receive _⟩ => l.asks codec
  | ⟨.audio, .step⟩ => l.steps codec s.shared.audioOutputEnded s.audio
  | _ => l

end Heard

def heard {σ : Type} (codec : Transducer σ (Option (Demuxed π)) (Receive Resampled))
    (h : List (State φ π × Action φ)) : Heard σ :=
  h.foldl (fun l p => l.next codec p.1 p.2) ⟨codec.start, false, [], []⟩

def soundExchanges {σ : Type} (codec : Transducer σ (Option (Demuxed π)) (Receive Resampled))
    (h : List (State φ π × Action φ)) : List (Exchange (Option (Demuxed π)) (Receive Resampled)) :=
  codec.replay codec.start (exchanges .audio h)

section
variable {σ : Type} {codec : Transducer σ (Option (Demuxed π)) (Receive Resampled)}

theorem heard_snoc (h : List (State φ π × Action φ)) (s : State φ π) (a : Action φ) :
    heard codec (h ++ [(s, a)]) = (heard codec h).next codec s a := by
  rw [heard, List.foldl_append]
  rfl

theorem Heard.asks_codec (l : Heard σ) : (l.asks codec).codec = (codec.ask l.codec).2 := by
  unfold asks
  cases (codec.ask l.codec).1 <;> rfl

theorem Heard.steps_codec (l : Heard σ) (ended : Bool) (pc : AudioPc π) : (l.steps codec ended pc).codec =
    (codec.map Receive.erase).afterAll l.codec ((pc.loop.bind PacketLoop.sends).map .fed).toList := by
  cases pc with
  | testEnded => cases ended <;> rfl
  | fetch f => cases f <;> rfl
  | idle | receive | setEnded => rfl

theorem Heard.next_codec (l : Heard σ) (s : State φ π) (a : Action φ) :
    (l.next codec s a).codec = (codec.map Receive.erase).afterAll l.codec (exchange .audio s a).toList := by
  obtain ⟨t, a⟩ := a
  cases t with
  | run | consumer => rfl
  | audio =>
      cases a with
      | decodeAudio | callback => rfl
      | receive ret => exact l.asks_codec
      | step => exact l.steps_codec _ s.audio

theorem heard_codec (h : List (State φ π × Action φ)) :
    (heard codec h).codec = (codec.map Receive.erase).afterAll codec.start (exchanges .audio h) := by
  induction h using List.reverseRecOn with
  | nil => rfl
  | append_singleton h p ih =>
      obtain ⟨s, a⟩ := p
      rw [heard_snoc, Heard.next_codec, ih, exchanges_snoc, Transducer.afterAll, Transducer.afterAll,
        Transducer.afterAll, List.foldl_append]

theorem soundExchanges_snoc (h : List (State φ π × Action φ)) (s : State φ π) (a : Action φ) :
    soundExchanges codec (h ++ [(s, a)]) =
      soundExchanges codec h ++ codec.replay (heard codec h).codec (exchange .audio s a).toList := by
  rw [soundExchanges, exchanges_snoc, Transducer.replay_append codec Receive.erase, ← heard_codec]
  rfl

end

/-! ## What the calls are told -/

def Heard.Fetching {σ : Type} (l : Heard σ) : Prop := l.began = false ∧ ∀ a ∈ l.call, a = .again

def AudioPc.Hears {σ : Type} (ended : Bool) (l : Heard σ) : AudioPc π → Prop
  | .idle => True
  | .testEnded => if ended then decodeAudio l.began l.call = some .silence else l.Fetching
  | .receive | .fetch _ => ended = false ∧ l.Fetching
  | .setEnded => ended = false ∧ decodeAudio l.began l.call = some .silence

/-- The calls that have returned left the frames, and silence after the end. -/
structure SoundInv {σ : Type} (ended : Bool) (es : List (Exchange (Option (Demuxed π)) (Receive Resampled)))
    (l : Heard σ) (pc : AudioPc π) : Prop where
  hears : pc.Hears ended l
  results : ∃ k, l.results = ((frames es).map Resampled.result ++ List.replicate k DecodeResult.silence).map some ∧
    (ended = false → k = 0)

section
variable {σ : Type} {codec : Transducer σ (Option (Demuxed π)) (Receive Resampled)} {ended ended' : Bool}
  {es es' : List (Exchange (Option (Demuxed π)) (Receive Resampled))} {l l' : Heard σ} {pc pc' : AudioPc π}

theorem SoundInv.quiet (hI : SoundInv ended es l pc) (hframes : frames es' = []) (hresults : l'.results = l.results)
    (hended : ended' = false → ended = false) (hears : pc'.Hears ended' l') : SoundInv ended' (es ++ es') l' pc' := by
  obtain ⟨k, hk, hzero⟩ := hI.results
  refine ⟨hears, k, ?_, fun he => hzero (hended he)⟩
  rw [frames_append, hframes, List.append_nil, hresults, hk]

theorem SoundInv.frame (hI : SoundInv false es l pc) {f : Resampled}
    (hresults : l'.results = l.results ++ [some f.result]) : SoundInv false (es ++ [.asked (.frame f)]) l' .idle := by
  obtain ⟨k, hk, hzero⟩ := hI.results
  obtain rfl := hzero rfl
  refine ⟨trivial, 0, ?_, fun _ => rfl⟩
  rw [hresults, hk, frames_append]
  simp [frames, Exchange.answers, Exchange.answer, Receive.frame?]

theorem SoundInv.silence (hI : SoundInv true es l pc) (hresults : l'.results = l.results ++ [some .silence]) :
    SoundInv true (es ++ []) l' .idle := by
  obtain ⟨k, hk, -⟩ := hI.results
  refine ⟨trivial, k + 1, ?_, fun he => absurd he (by simp)⟩
  rw [hresults, hk, List.append_nil, List.replicate_succ']
  simp only [List.map_append, List.append_assoc, List.map_cons, List.map_nil]

theorem Heard.steps_fetch (codec : Transducer σ (Option (Demuxed π)) (Receive Resampled)) (ended : Bool) (l : Heard σ)
    (f : PacketLoop π) : (l.steps codec ended (.fetch f)).results = l.results ∧
    (l.steps codec ended (.fetch f)).began = l.began ∧ (l.steps codec ended (.fetch f)).call = l.call := by
  cases f <;> exact ⟨rfl, rfl, rfl⟩

theorem Heard.Fetching.again (h : l.Fetching) (hask : (codec.ask l.codec).1 = .eagain) :
    (l.asks codec).Fetching ∧ (l.asks codec).results = l.results := by
  unfold Heard.asks
  rw [hask]
  refine ⟨⟨h.1, fun a ha => ?_⟩, rfl⟩
  rcases List.mem_append.mp ha with ha | ha
  · exact h.2 a ha
  · exact List.mem_singleton.mp ha

theorem Heard.Fetching.frame (h : l.Fetching) {f : Resampled} (hask : (codec.ask l.codec).1 = .frame f) :
    (l.asks codec).results = l.results ++ [some f.result] := by
  unfold Heard.asks
  rw [hask]
  change l.results ++ [decodeAudio l.began _] = _
  rw [h.1, decodeAudio_frame h.2]

theorem Heard.Fetching.failed (h : l.Fetching) (hnext : (codec.ask l.codec).1.next = .stopped) :
    decodeAudio (l.asks codec).began (l.asks codec).call = some .silence ∧ (l.asks codec).results = l.results := by
  unfold Heard.asks
  cases hask : (codec.ask l.codec).1 with
  | frame | eagain => rw [hask] at hnext; cases hnext
  | eof | error =>
      refine ⟨?_, rfl⟩
      change decodeAudio l.began (l.call ++ [.failed]) = _
      rw [h.1, decodeAudio_failed h.2]

theorem SoundInv.begins (hI : SoundInv ended es l pc) :
    SoundInv ended (es ++ []) (l.begins ended) (.testEnded : AudioPc π) := by
  refine hI.quiet rfl rfl id ?_
  cases ended with
  | true => exact decodeAudio_ended []
  | false => exact ⟨rfl, fun _ ha => absurd ha List.not_mem_nil⟩

/-- The call returns silence when the stream has ended, and goes on when it has not. -/
theorem SoundInv.tests (hI : SoundInv ended es l (.testEnded : AudioPc π)) :
    SoundInv ended (es ++ []) (l.steps codec ended (.testEnded : AudioPc π))
      (if ended then (.idle : AudioPc π) else .receive) := by
  have hears := hI.hears
  cases ended with
  | true =>
      refine SoundInv.silence hI (?_ : l.returns.results = _)
      unfold Heard.returns
      rw [show decodeAudio l.began l.call = some DecodeResult.silence from hears]
  | false => exact hI.quiet rfl rfl id ⟨rfl, hears⟩

theorem SoundInv.asks_frame (hI : SoundInv ended es l (.receive : AudioPc π)) {f : Resampled}
    (hans : (codec.ask l.codec).1 = .frame f) :
    SoundInv ended (es ++ [.asked (codec.ask l.codec).1]) (l.asks codec) (.idle : AudioPc π) := by
  obtain ⟨rfl, hfetching⟩ := hI.hears
  rw [hans]
  exact hI.frame (hfetching.frame hans)

theorem SoundInv.asks_again (hI : SoundInv ended es l (.receive : AudioPc π))
    (hans : (codec.ask l.codec).1 = .eagain) :
    SoundInv ended (es ++ [.asked (codec.ask l.codec).1]) (l.asks codec) (.fetch .lock : AudioPc π) := by
  obtain ⟨hended, hfetching⟩ := hI.hears
  obtain ⟨hfetching, hresults⟩ := hfetching.again hans
  rw [hans]
  exact hI.quiet rfl hresults id ⟨hended, hfetching⟩

theorem SoundInv.asks_stop (hI : SoundInv ended es l (.receive : AudioPc π))
    (hnext : (codec.ask l.codec).1.next = .stopped) :
    SoundInv ended (es ++ [.asked (codec.ask l.codec).1]) (l.asks codec) (.setEnded : AudioPc π) := by
  obtain ⟨hended, hfetching⟩ := hI.hears
  obtain ⟨hsilence, hresults⟩ := hfetching.failed hnext
  refine hI.quiet ?_ hresults id ⟨hended, hsilence⟩
  cases hans : (codec.ask l.codec).1 with
  | frame | eagain => rw [hans] at hnext; cases hnext
  | eof | error => rfl

theorem SoundInv.fetches {f : PacketLoop π} (hI : SoundInv ended es l (.fetch f)) (f' : Option (PacketLoop π)) :
    SoundInv ended (es ++ codec.replay l.codec ((f.sends.map .fed).toList : List (Exchange _ (Receive Unit))))
      (l.steps codec ended (.fetch f)) (f'.elim .testEnded .fetch) := by
  obtain ⟨hended, hfetching⟩ := hI.hears
  obtain ⟨hresults, hbegan, hcall⟩ := l.steps_fetch codec ended f
  have hfetching' : (l.steps codec ended (.fetch f)).Fetching := by
    unfold Heard.Fetching
    rw [hbegan, hcall]
    exact hfetching
  refine hI.quiet ?_ hresults id ?_
  · cases f <;> rfl
  · cases f' with
    | none =>
        subst hended
        exact hfetching'
    | some f' => exact ⟨hended, hfetching'⟩

/-- **The steps of `decodeAudio`.** -/
theorem SoundInv.move {c : Container} {a : AudioAct} {d d' : VideoDecoder φ π} (h : AudioMove c a pc d pc' d')
    {s : State φ π} (hpc : s.audio = pc) (hd : s.shared = d) (hI : SoundInv d.audioOutputEnded es l pc)
    (hask : ∀ ret, a = .receive ret → ret = (codec.ask l.codec).1.erase) :
    SoundInv d'.audioOutputEnded (es ++ codec.replay l.codec (exchange .audio s ⟨.audio, a⟩).toList)
      (l.next codec s ⟨.audio, a⟩) pc' := by
  have hstep : a = .step → exchange .audio s ⟨.audio, a⟩ = (pc.loop.bind PacketLoop.sends).map .fed ∧
      l.next codec s ⟨.audio, a⟩ = l.steps codec d.audioOutputEnded pc := by
    rintro rfl
    subst hpc hd
    exact ⟨rfl, rfl⟩
  cases h with
  | decodeAudio =>
      subst hd
      exact hI.begins
  | testEnded =>
      obtain ⟨hex, hnext⟩ := hstep rfl
      rw [hex, hnext]
      exact hI.tests
  | frame =>
      have hret := hask _ rfl
      cases hans : (codec.ask l.codec).1 with
      | frame f => exact hI.asks_frame hans
      | eagain | eof | error => rw [hans] at hret; cases hret
  | eagain =>
      have hret := hask _ rfl
      cases hans : (codec.ask l.codec).1 with
      | eagain => exact hI.asks_again hans
      | frame | eof | error => rw [hans] at hret; cases hret
  | eof | error =>
      have hret := hask _ rfl
      refine hI.asks_stop ?_
      rw [← Receive.next_erase, ← hret]
      rfl
  | @fetch _ f f' =>
      obtain ⟨hex, hnext⟩ := hstep rfl
      rw [hex, hnext]
      exact hI.fetches f'
  | callback => exact hI.quiet rfl rfl id hI.hears
  | setEnded =>
      obtain ⟨hex, hnext⟩ := hstep rfl
      rw [hex, hnext]
      exact hI.quiet rfl rfl (fun he => absurd he Bool.true_eq_false.mp) hI.hears.2

end

/-! ## The runs -/

theorem ConsumerMove.not_deleting {a : ConsumerAct} {l l' : ConsumerPc} {d d' : VideoDecoder φ π}
    (h : ConsumerMove a l d l' d') (hdel : l'.deleting = false) : l.deleting = false := by
  by_contra hd
  have hd' := h.deleting.1 (Bool.eq_true_of_not_eq_false hd)
  exact absurd (hdel.symm.trans hd') Bool.false_ne_true

theorem ConsumerMove.audioOutputEnded_eq {a : ConsumerAct} {l l' : ConsumerPc} {d d' : VideoDecoder φ π}
    (h : ConsumerMove a l d l' d') (hdel : l'.deleting = false) : d'.audioOutputEnded = d.audioOutputEnded := by
  cases h with
  | delAudio => cases hdel
  | _ => rfl

theorem AudioMove.sets {c : Container} {a : AudioAct} {l l' : AudioPc π} {d d' : VideoDecoder φ π}
    (h : AudioMove c a l d l' d') (hd : ¬d.audioOutputEnded = true) (hd' : d'.audioOutputEnded = true) :
    a = .step ∧ l = .setEnded := by
  cases h with
  | setEnded => exact ⟨rfl, rfl⟩
  | _ => exact absurd hd' hd

section
variable {c : Container} {file : List (Demuxed π)} {h : List (State φ π × Action φ)} {s : State φ π}

/-- Before the destructor only the end of the stream stops the audio. -/
theorem audio_stopped (hr : (decoder φ c file).Run h s) (he : s.shared.audioOutputEnded = true)
    (hdel : s.consumer.deleting = false) : (user Receive.next).feed .asking (exchanges .audio h) = some .stopped := by
  refine System.RunWhen.induction (P := fun h s => s.shared.audioOutputEnded = true → s.consumer.deleting = false →
    (user Receive.next).feed .asking (exchanges .audio h) = some .stopped) ?_ ?_ hr he hdel
  · rintro _ rfl he -
    cases he
  · rintro h s ⟨t, a⟩ s' hr ih - hstep he hdel
    obtain ⟨l, d, hs, rfl⟩ := Program.next_eq_some hstep
    rw [exchanges_snoc, Automaton.feed_append]
    cases t with
    | run =>
        rw [ih ((run_move hs).audioOutputEnded_eq ▸ he) hdel]
        rfl
    | consumer =>
        have hbefore := (consumer_move hs).not_deleting hdel
        rw [ih ((consumer_move hs).audioOutputEnded_eq hdel ▸ he) hbefore]
        rfl
    | audio =>
        obtain ⟨q, hq, hphase⟩ := audio_used hr
        obtain ⟨q', hq', -⟩ := (audio_move hs).inPhase rfl hphase
        by_cases hbefore : s.shared.audioOutputEnded = true
        · rw [ih hbefore hdel] at hq ⊢
          obtain rfl := Option.some.inj hq
          rw [Option.bind_some, hq', (user_stopped hq').2]
        · obtain ⟨rfl, hl⟩ := (audio_move hs).sets hbefore he
          have hphase' : s.audio.InPhase s.shared.audioOutputEnded q := hphase
          rw [show s.audio = .setEnded from hl] at hphase'
          obtain rfl : q = .stopped := hphase'
          rw [hq, Option.bind_some, hq', (user_stopped hq').2]

variable {σ : Type} {codec : Transducer σ (Option (Demuxed π)) (Receive Resampled)}

/-- **What the calls return**, in every run. -/
theorem sound_inv (hr : (decoder φ c file).Run h s)
    (hg : (codec.map Receive.erase).Gives codec.start (exchanges .audio h)) (hdel : s.consumer.deleting = false) :
    SoundInv s.shared.audioOutputEnded (soundExchanges codec h) (heard codec h) s.audio := by
  refine System.RunWhen.induction (P := fun h s => (codec.map Receive.erase).Gives codec.start (exchanges .audio h) →
    s.consumer.deleting = false →
      SoundInv s.shared.audioOutputEnded (soundExchanges codec h) (heard codec h) s.audio) ?_ ?_ hr hg hdel
  · rintro _ rfl - -
    exact ⟨trivial, 0, rfl, fun _ => rfl⟩
  · rintro h s ⟨t, a⟩ s' hr ih - hstep hg hdel
    obtain ⟨l, d, hs, rfl⟩ := Program.next_eq_some hstep
    rw [exchanges_snoc, Transducer.gives_append, ← heard_codec] at hg
    rw [soundExchanges_snoc, heard_snoc]
    cases t with
    | run =>
        have hI := ih hg.1 hdel
        exact hI.quiet rfl rfl ((run_move hs).audioOutputEnded_eq ▸ id) ((run_move hs).audioOutputEnded_eq ▸ hI.hears)
    | consumer =>
        have hbefore := (consumer_move hs).not_deleting hdel
        have hsame := (consumer_move hs).audioOutputEnded_eq hdel
        have hI := ih hg.1 hbefore
        exact hI.quiet rfl rfl (hsame ▸ id) (hsame ▸ hI.hears)
    | audio =>
        refine SoundInv.move (audio_move hs) rfl rfl (ih hg.1 hdel) ?_
        rintro ret rfl
        exact hg.2.1

end

/-! ## The sound track -/

def soundEnds (es : List (Exchange (Option (Demuxed π)) (Receive Resampled))) : Bool :=
  (Exchange.answers es).any fun a => decide (a.next = .stopped)

def soundBytes (es : List (Exchange (Option (Demuxed π)) (Receive Resampled))) (z : Nat) : List UInt8 :=
  (frames es).flatMap (fun f => f.result.bytes) ++ if soundEnds es then List.replicate z 0 else []

/-- The sound of sequential decoding, of its first `n` exchanges with the audio codec. -/
def soundTrack {σ : Type} (codec : Transducer σ (Option (Demuxed π)) (Receive Resampled)) (c : Container)
    (file : List (Demuxed π)) (n z : Nat) : List UInt8 :=
  soundBytes (codec.sequential Receive.next (c.inputs file .audio) n) z

theorem flatMap_silence (k : Nat) :
    (List.replicate k DecodeResult.silence).flatMap DecodeResult.bytes = List.replicate (k * 1024) 0 := by
  induction k with
  | zero => rfl
  | succ k ih =>
      rw [List.replicate_succ, List.flatMap_cons, ih, DecodeResult.bytes_silence, ← List.replicate_add,
        Nat.succ_mul, Nat.add_comm]

theorem isPrefix_silence {bs l : List UInt8} {k z : Nat} (h : bs <+: l ++ List.replicate k 0) (hz : bs.length ≤ z) :
    bs <+: l ++ List.replicate z 0 := by
  have hlen := h.length_le
  rw [List.length_append, List.length_replicate] at hlen
  rw [List.prefix_iff_eq_take, List.take_append, List.take_replicate] at h ⊢
  rwa [Nat.min_eq_left (by omega)] at h ⊢

theorem joined_eq {rs : List DecodeResult} {results : Nat → DecodeResult}
    (hres : ∀ i r, rs[i]? = some r → results i = r) {k : Nat} (hk : k ≤ rs.length) :
    (chunks results).joined k = (rs.take k).flatMap DecodeResult.bytes := by
  induction k with
  | zero => rfl
  | succ k ih =>
      have hr := hres k rs[k] (List.getElem?_eq_getElem hk)
      rw [Chunks.joined_succ, ih (by omega), List.take_succ_eq_append_getElem hk, List.flatMap_append,
        List.flatMap_singleton]
      exact congrArg (fun r => _ ++ DecodeResult.bytes r) hr

theorem decoded_le {results : Nat → DecodeResult} {secPerKbBlock : ℚ} {m k : Nat} {bs : List (List UInt8)}
    {d : AudioDecoder} (hu : (AudioDecoder.loaded secPerKbBlock).updates results m = some (bs, d))
    (hk : m * 1024 ≤ ((chunks results).joined k).length) : d.decoded ≤ k := by
  obtain ⟨bs', d', hu', hlen, hI⟩ := AudioDecoder.updates_induction (fun _ _ h => h.step)
    (blocksInv_loaded secPerKbBlock : BlocksInv results [] _) m
  obtain ⟨rfl, rfl⟩ := Prod.mk.inj (Option.some.inj (hu.symm.trans hu'))
  by_contra hlt
  have hout := (hI.audio.read.lt_next_iff hI.audio.only_needed k).mp (Nat.not_le.mp hlt)
  rw [hI.length_flatten, hlen] at hout
  omega

section
variable {c : Container} {file : List (Demuxed π)} {h : List (State φ π × Action φ)} {s : State φ π}
  {σ : Type} {codec : Transducer σ (Option (Demuxed π)) (Receive Resampled)}

/-- The frames so far are the first of the track, and all of them once the stream has ended. -/
theorem soundExchanges_sequential (hr : (decoder φ c file).Run h s)
    (hg : (codec.map Receive.erase).Gives codec.start (exchanges .audio h)) {n : Nat}
    (hn : (exchanges .audio h).length ≤ n) :
    soundExchanges codec h <+: codec.sequential Receive.next (c.inputs file .audio) n ∧
      (s.shared.audioOutputEnded = true → s.consumer.deleting = false → soundEnds (soundExchanges codec h) = true ∧
        codec.sequential Receive.next (c.inputs file .audio) n = soundExchanges codec h) := by
  obtain ⟨q, hu, -⟩ := audio_used hr
  have hin := inputs_isPrefix hr .audio
  rw [← Transducer.inputs_replay codec codec.start] at hin
  have hgives := Transducer.gives_replay codec codec.start (exchanges .audio h)
  have hlen : (soundExchanges codec h).length ≤ n := by
    rw [soundExchanges, Transducer.length_replay]
    exact hn
  refine ⟨?_, fun he hdel => ?_⟩
  · have huse := Transducer.user_replay Receive.next_erase hu hg
    rw [soundExchanges, Transducer.eq_drive huse hgives hin]
    exact Transducer.drive_mono (by rwa [Transducer.length_replay]) _ _ _
  · have huse := Transducer.user_replay Receive.next_erase (audio_stopped hr he hdel) hg
    refine ⟨?_, Transducer.stopped_drive huse hgives hin hlen⟩
    obtain ⟨a, ha, hnext⟩ := user_told huse nofun
    exact List.any_eq_true.mpr ⟨a, ha, decide_eq_true hnext⟩

/-- **The sound does not depend on the schedule**: in every run, before the decoder is destroyed, the calls of
`decodeAudio` return, and any number of blocks that `updateAudioBuffer` makes of what they left is the beginning of the
sound of a program that decodes the audio stream alone; once the stream has ended, all of it and then silence. -/
theorem sound_sequential (hr : (decoder φ c file).Run h s)
    (hg : (codec.map Receive.erase).Gives codec.start (exchanges .audio h)) (hdel : s.consumer.deleting = false) :
    ∃ rs : List DecodeResult, (heard codec h).results = rs.map some ∧ ∀ results : Nat → DecodeResult,
      (∀ i r, rs[i]? = some r → results i = r) → ∀ (secPerKbBlock : ℚ) (m : Nat), ∃ bs d,
        (AudioDecoder.loaded secPerKbBlock).updates results m = some (bs, d) ∧ bs.length = m ∧
        (d.decoded ≤ rs.length → ∃ n₀, ∀ n, n₀ ≤ n → bs.flatten <+: soundTrack codec c file n (m * 1024)) := by
  obtain ⟨-, k, hresults, hzero⟩ := sound_inv hr hg hdel
  refine ⟨_, hresults, fun results hres secPerKbBlock m => ?_⟩
  obtain ⟨bs, d, hu, hlen, hI⟩ := AudioDecoder.updates_induction (fun _ _ h => h.step)
    (blocksInv_loaded secPerKbBlock : BlocksInv results [] _) m
  refine ⟨bs, d, hu, hlen, fun hle => ⟨(exchanges .audio h).length, fun n hn => ?_⟩⟩
  obtain ⟨hpre, hwhole⟩ := soundExchanges_sequential hr hg hn
  have hread : bs.flatten <+: (frames (soundExchanges codec h)).flatMap (fun f => f.result.bytes) ++
      List.replicate (k * 1024) 0 := by
    rw [hI.audio.read.eq_take (Nat.le_refl _), joined_eq hres hle]
    refine (List.take_prefix _ _).trans (((List.take_prefix _ _).flatMap _).trans ?_)
    rw [List.flatMap_append, flatMap_silence, List.flatMap_map]
  unfold soundTrack soundBytes
  by_cases he : s.shared.audioOutputEnded = true
  · obtain ⟨hends, heq⟩ := hwhole he hdel
    rw [heq, hends, if_pos rfl]
    exact isPrefix_silence hread (by rw [hI.length_flatten, hlen])
  · obtain rfl := hzero (Bool.eq_false_iff.mpr he)
    rw [Nat.zero_mul, List.replicate_zero, List.append_nil] at hread
    exact (hread.trans ((frames_isPrefix hpre).flatMap _)).trans (List.prefix_append _ _)

end

def clickFrame : Resampled := ⟨1, ⟨1, [1, 2, 3, 4], by decide, by decide⟩⟩

/-- A codec that makes one stereo sample of its packet. -/
def clickCodec : Transducer Nat (Option (Demuxed Nat)) (Receive Resampled) where
  start := 0
  ask
    | 1 => (.frame clickFrame, 2)
    | 3 => (.eof, 3)
    | s => (.eagain, s)
  feed s _ := s + 1

/-- The first call returns the sample, the second one silence; the block is the sample and silence. -/
theorem sound_sequential_click : ∃ h s, (decoder Nat (Container.videoAndAudio false) [⟨1, 6⟩]).Run h s ∧
    s.shared.audioOutputEnded = true ∧ ∃ rs : List DecodeResult, rs.map DecodeResult.ret = [4, 0] ∧
      ∀ results : Nat → DecodeResult, (∀ i r, rs[i]? = some r → results i = r) → ∃ bs d,
        (AudioDecoder.loaded 1).updates results 1 = some (bs, d) ∧ bs.length = 1 ∧ ∃ n₀, ∀ n, n₀ ≤ n →
          bs.flatten <+: soundTrack clickCodec (Container.videoAndAudio false) [⟨1, 6⟩] n 1024 := by
  have he : ∃ r, (decoder Nat (Container.videoAndAudio false) [⟨1, 6⟩]).exec (State.start Nat [⟨1, 6⟩])
      ([⟨.audio, .decodeAudio⟩] ++ Action.decodesAudio 1 ++ [⟨.audio, .receive .eagain⟩] ++ Action.decodesAudio 12 ++
        [⟨.audio, .receive (.frame ())⟩, ⟨.audio, .decodeAudio⟩] ++ Action.decodesAudio 1 ++
        [⟨.audio, .receive .eagain⟩] ++ Action.decodesAudio 8 ++ [⟨.audio, .receive .eof⟩] ++ Action.decodesAudio 2) =
        some r ∧
      exchanges .audio r.1 = [.asked .eagain, .fed (some ⟨1, 6⟩), .asked (.frame ()), .asked .eagain, .fed none,
        .asked .eof] ∧
      r.2.shared.audioOutputEnded = true ∧ r.2.consumer.deleting = false ∧
      (heard clickCodec r.1).results.length = 2 := ⟨_, rfl, rfl, rfl, rfl, rfl⟩
  obtain ⟨⟨h, s⟩, he, hex, hend, hdel, htwo⟩ := he
  have hr := System.run_of_exec rfl he
  have hg : (clickCodec.map Receive.erase).Gives clickCodec.start (exchanges .audio h) := by
    rw [hex]
    exact ⟨rfl, rfl, rfl, rfl, trivial⟩
  obtain ⟨rs, hrs, hblocks⟩ := sound_sequential hr hg hdel
  -- one frame was received, so that the second call left silence
  have hrs' : rs = [clickFrame.result, .silence] := by
    obtain ⟨-, k, hresults, -⟩ := sound_inv hr hg hdel
    have hframes : frames (soundExchanges clickCodec h) = [clickFrame] := by
      rw [soundExchanges, hex]
      rfl
    rw [hframes] at hresults
    rw [hresults] at htwo
    obtain rfl : k = 1 := by simpa using htwo
    exact List.map_injective_iff.mpr (Option.some_injective _) (hrs.symm.trans hresults)
  subst hrs'
  refine ⟨h, s, hr, hend, [clickFrame.result, .silence], rfl, fun results hres => ?_⟩
  obtain ⟨bs, d, hu, hlen, hsound⟩ := hblocks results hres 1 1
  refine ⟨bs, d, hu, hlen, hsound ?_⟩
  -- the sample and one block of silence are enough
  refine decoded_le hu ?_
  rw [joined_eq hres (Nat.le_refl _), List.take_of_length_le (Nat.le_refl _), List.flatMap_cons, List.flatMap_cons,
    DecodeResult.bytes_silence, List.length_append, List.length_append, List.length_replicate]
  omega

end ArcVideo
