import Mathlib.Data.List.Nodup
import ArcVideo.Decoder.Routing

/-!
# Packet ownership

Where the packets are that `readPacket` has allocated.

* `Place`, `inPlace` : inside a call of `readPacket` (or left behind by one), in a queue, held by a decoding loop,
  freed;
* `tallied` : each packet allocated is in one place, once;
* `readCalls`, `askedFor` : how often `av_read_frame` was called, and how many packets a codec has asked for;
* `packets_owned` : so no packet is freed twice. `~VideoDecoder` frees no packet: those of failed reads and those still
  queued are lost with it. There are none if and only if the packets read are those asked for (`AllAskedFor`).
-/

namespace ArcVideo
open Conc

variable {φ π : Type}

/-! ## The places of a packet -/

inductive Place
  | allocated | videoPackets | audioPackets | held | freed

def PacketLoop.allocated : PacketLoop π → List Nat
  | .read id => [id]
  | .route p => [p.id]
  | _ => []

/-- The packet a decoding loop has taken and not yet freed. -/
def PacketLoop.held : PacketLoop π → List Nat
  | .unlock p _ | .send p | .free p => (p.map AVPacket.id).toList
  | _ => []

/-- The packets in a place; `lost` are those of failed reads. -/
def inPlace (lost : List Nat) (x : Loops π) (m : Demuxer π) : Place → List Nat
  | .allocated =>
      lost ++ (x .video).toList.flatMap PacketLoop.allocated ++ (x .audio).toList.flatMap PacketLoop.allocated
  | .videoPackets => m.videoPackets.map AVPacket.id
  | .audioPackets => m.audioPackets.map AVPacket.id
  | .held => (x .video).toList.flatMap PacketLoop.held ++ (x .audio).toList.flatMap PacketLoop.held
  | .freed => m.freed

/-- How often a packet is found in the places of stream `k`: its loop and its queue. -/
def share (id : Nat) (x : Option (PacketLoop π)) (q : List (AVPacket π)) : Nat :=
  (x.toList.flatMap PacketLoop.allocated).count id + (x.toList.flatMap PacketLoop.held).count id +
    (q.map AVPacket.id).count id

def tally (id : Nat) (lost : List Nat) (x : Loops π) (m : Demuxer π) : Nat :=
  lost.count id + share id (x .video) (m.packets .video) + share id (x .audio) (m.packets .audio) + m.freed.count id

theorem tally_eq_sum (id : Nat) (lost : List Nat) (x : Loops π) (m : Demuxer π) :
    tally id lost x m = (inPlace lost x m .allocated).count id + (inPlace lost x m .videoPackets).count id +
      (inPlace lost x m .audioPackets).count id + (inPlace lost x m .held).count id +
        (inPlace lost x m .freed).count id := by
  simp only [tally, share, inPlace, Demuxer.videoPackets, Demuxer.audioPackets, List.count_append]
  omega

/-- Every packet allocated is in one place, once. -/
def Tallied (lost : List Nat) (x : Loops π) (m : Demuxer π) : Prop :=
  ∀ id, tally id lost x m = (List.range m.allocated).count id

theorem Tallied.move {c : Container} {lost : List Nat} {x : Loops π} {m m' : Demuxer π} {k : Stream}
    {f : PacketLoop π} {f' : Option (PacketLoop π)} (hI : Tallied lost x m) (hx : x k = some f)
    (h : f.Move c k m f' m') : Tallied (lost ++ (f.failing m).toList) (Function.update x k f') m' := by
  intro id
  have hid := hI id
  cases h with
  | take hq =>
      cases k <;> simp [tally, share, hx, hq, PacketLoop.allocated, PacketLoop.held, PacketLoop.failing] at hid ⊢ <;>
        omega
  | alloc =>
      rw [List.range_succ, List.count_append]
      cases k <;> simp [tally, share, hx, PacketLoop.allocated, PacketLoop.held, PacketLoop.failing] at hid ⊢ <;> omega
  | readFrame hu | readFail hu =>
      cases k <;> simp [tally, share, hx, hu, PacketLoop.allocated, PacketLoop.held, PacketLoop.failing] at hid ⊢ <;>
        omega
  | route =>
      -- queued for either stream, or freed
      rw [Demuxer.route]
      split_ifs <;> cases k <;>
        simp [tally, share, hx, PacketLoop.allocated, PacketLoop.held, PacketLoop.failing, Demuxer.pushFront,
          Demuxer.freePacket, List.count_cons] at hid ⊢ <;> omega
  | send | free =>
      cases k <;>
        simp [tally, share, hx, PacketLoop.allocated, PacketLoop.held, PacketLoop.failing, Demuxer.sendPacket,
          Demuxer.freePacket] at hid ⊢ <;> omega
  | _ =>
      cases k <;> simp [tally, share, hx, PacketLoop.allocated, PacketLoop.held, PacketLoop.failing] at hid ⊢ <;> omega

theorem Tallied.step {c : Container} {lost : List Nat} {x : Loops π} {m m' : Demuxer π} {k : Stream}
    {x' : Option (PacketLoop π)} {o : Option Nat} (hI : Tallied lost x m) (h : LoopStep c k (x k) m x' m' o) :
    Tallied (lost ++ o.toList) (Function.update x k x') m' := by
  generalize hx : x k = y at h
  cases h with
  | same =>
      rw [← hx, Function.update_eq_self, Option.toList_none, List.append_nil]
      exact hI
  | enter =>
      intro id
      have hid := hI id
      cases k <;> simpa [tally, share, hx, PacketLoop.allocated, PacketLoop.held] using hid
  | move hmv => exact hI.move hx hmv

/-! ## The destructor -/

def ConsumerPc.joined : ConsumerPc → Bool
  | .delFree | .deleted => true
  | _ => false

theorem ConsumerMove.joins {a : ConsumerAct} {l l' : ConsumerPc} {d d' : VideoDecoder φ π}
    (h : ConsumerMove a l d l' d') :
    d'.runReturned = d.runReturned ∧ (l'.joined = true → l.joined = true ∨ d.runReturned = true) := by
  cases h with
  | delJoin hj => exact ⟨rfl, fun _ => Or.inr hj⟩
  | delFree => exact ⟨rfl, fun _ => Or.inl rfl⟩
  | bufFull | bufEnded => exact ⟨rfl, by split_ifs <;> exact nofun⟩
  | _ => exact ⟨rfl, nofun⟩

theorem RunMove.returns {c : Container} {a : RunAct φ} {l l' : RunPc φ π} {d d' : VideoDecoder φ π}
    (h : RunMove c a l d l' d') :
    l ≠ .returned ∧ (d'.runReturned = true → d.runReturned = true ∨ l' = .returned) := by
  cases h with
  | ret => exact ⟨nofun, fun _ => Or.inr rfl⟩
  | _ => exact ⟨nofun, Or.inl⟩

theorem AudioMove.runReturned_eq {c : Container} {a : AudioAct} {l l' : AudioPc π} {d d' : VideoDecoder φ π}
    (h : AudioMove c a l d l' d') : d'.runReturned = d.runReturned := by
  cases h <;> rfl

section
variable {c : Container} {file : List (Demuxed π)} {h : List (State φ π × Action φ)} {s : State φ π}

theorem returned_of_joined (hr : (decoder φ c file).Run h s) (hj : s.consumer.joined = true) : s.run = .returned := by
  have hinv : (s.shared.runReturned = true → s.run = .returned) ∧
      (s.consumer.joined = true → s.shared.runReturned = true) := by
    refine System.RunWhen.induction (P := fun _ s => (s.shared.runReturned = true → s.run = .returned) ∧
      (s.consumer.joined = true → s.shared.runReturned = true)) ?_ ?_ hr
    · rintro _ rfl
      exact ⟨nofun, nofun⟩
    · rintro h s ⟨t, a⟩ s' - ⟨hret, hjoin⟩ - hstep
      obtain ⟨l, d, hs, rfl⟩ := Program.next_eq_some hstep
      cases t with
      | run =>
          obtain ⟨hne, hset⟩ := (run_move hs).returns
          refine ⟨fun h' => ?_, fun h' => ?_⟩
          · exact (hset h').resolve_left fun hd => hne (hret hd)
          · exact absurd (hret (hjoin h')) hne
      | consumer =>
          obtain ⟨heq, hset⟩ := (consumer_move hs).joins
          exact ⟨fun h' => hret (heq ▸ h'), fun h' => heq.trans ((hset h').elim hjoin id)⟩
      | audio =>
          have heq := (audio_move hs).runReturned_eq
          exact ⟨fun h' => hret (heq ▸ h'), fun h' => heq.trans (hjoin h')⟩
  exact hinv.1 (hinv.2 hj)

theorem tallied (hr : (decoder φ c file).Run h s) : Tallied (failedReads h) s.loops s.shared.demuxer := by
  refine packets_induction ?_ (fun _ _ _ _ _ _ _ hI hstep => hI.step hstep) hr
  intro id
  simp [tally, share, Demuxer.start]

def placeOf (h : List (State φ π × Action φ)) (s : State φ π) : Place → List Nat :=
  inPlace (failedReads h) s.loops s.shared.demuxer

theorem count_places (hr : (decoder φ c file).Run h s) (id : Nat) :
    (placeOf h s .allocated).count id + (placeOf h s .videoPackets).count id + (placeOf h s .audioPackets).count id +
      (placeOf h s .held).count id + (placeOf h s .freed).count id =
        if id < s.shared.demuxer.allocated then 1 else 0 := by
  have ht := tallied hr id
  rw [tally_eq_sum, List.count_range] at ht
  exact ht

theorem count_place_le (hr : (decoder φ c file).Run h s) (p : Place) (id : Nat) : (placeOf h s p).count id ≤ 1 := by
  have hsum := count_places hr id
  split_ifs at hsum <;> cases p <;> omega

theorem lt_of_mem_place (hr : (decoder φ c file).Run h s) {p : Place} {id : Nat} (hp : id ∈ placeOf h s p) :
    id < s.shared.demuxer.allocated := by
  have hsum := count_places hr id
  have hpos := List.count_pos_iff.mpr hp
  by_contra hlt
  rw [if_neg hlt] at hsum
  cases p <;> omega

theorem place_unique (hr : (decoder φ c file).Run h s) {p q : Place} {id : Nat} (hp : id ∈ placeOf h s p)
    (hq : id ∈ placeOf h s q) : p = q := by
  have hsum := count_places hr id
  have hp' := List.count_pos_iff.mpr hp
  have hq' := List.count_pos_iff.mpr hq
  rw [if_pos (lt_of_mem_place hr hp)] at hsum
  cases p <;> cases q <;> first | rfl | omega

theorem place_exists (hr : (decoder φ c file).Run h s) {id : Nat} (hid : id < s.shared.demuxer.allocated) :
    ∃ p, id ∈ placeOf h s p := by
  have hsum := count_places hr id
  rw [if_pos hid] at hsum
  by_contra hno
  have hzero := fun p => List.count_eq_zero.mpr fun hp => hno ⟨p, hp⟩
  simp only [hzero] at hsum
  cases hsum

def AudioPc.owned (l : AudioPc π) : List Nat := l.loop.toList.flatMap fun f => f.allocated ++ f.held

/-- After the destructor, the packets not freed are those of failed reads, those queued, and one in the hand of the
audio thread. -/
theorem places_deleted (hr : (decoder φ c file).Run h s) (hdel : s.consumer = .deleted) :
    (∀ p, p ≠ .freed → placeOf h s p = []) ↔ failedReads h = [] ∧ s.shared.demuxer.videoPackets = [] ∧
      s.shared.demuxer.audioPackets = [] ∧ s.audio.owned = [] := by
  have hvideo : s.loops .video = none := by
    rw [State.loops, returned_of_joined hr (by rw [hdel]; rfl)]
    rfl
  have howned : s.audio.owned = [] ↔ (s.loops .audio).toList.flatMap PacketLoop.allocated = [] ∧
      (s.loops .audio).toList.flatMap PacketLoop.held = [] := by
    rw [AudioPc.owned, State.loops]
    cases s.audio.loop <;> simp
  rw [howned]
  constructor
  · intro hall
    have halloc := hall .allocated nofun
    have hheld := hall .held nofun
    simp only [placeOf, inPlace, hvideo, Option.toList_none, List.flatMap_nil, List.append_nil, List.nil_append,
      List.append_eq_nil_iff] at halloc hheld
    exact ⟨halloc.1, List.map_eq_nil_iff.mp (hall .videoPackets nofun),
      List.map_eq_nil_iff.mp (hall .audioPackets nofun), halloc.2, hheld⟩
  · rintro ⟨hlost, hv, ha, halloc, hheld⟩ p hp
    cases p with
    | allocated =>
        simp only [placeOf, inPlace, hvideo, hlost, halloc, Option.toList_none, List.flatMap_nil, List.append_nil]
    | videoPackets => exact List.map_eq_nil_iff.mpr hv
    | audioPackets => exact List.map_eq_nil_iff.mpr ha
    | held => simp only [placeOf, inPlace, hvideo, hheld, Option.toList_none, List.flatMap_nil, List.append_nil]
    | freed => exact absurd rfl hp

end

/-! ## The packets read and the packets asked for -/

def PacketLoop.reads : PacketLoop π → Bool
  | .read _ => true
  | _ => false

/-- The step is a call of `av_read_frame`. -/
def readsFrame (s : State φ π) : Action φ → Bool
  | ⟨.run, .step⟩ => s.run.loop.any PacketLoop.reads
  | ⟨.audio, .step⟩ => s.audio.loop.any PacketLoop.reads
  | _ => false

/-- The codec of stream `k` answers `AVERROR(EAGAIN)`: it asks for a packet. -/
def Action.asks (k : Stream) : Action φ → Bool
  | ⟨.run, .receive .eagain⟩ => k = .video
  | ⟨.audio, .receive .eagain⟩ => k = .audio
  | _ => false

def readCalls (h : List (State φ π × Action φ)) : Nat := h.countP fun p => readsFrame p.1 p.2

/-- The packets that the codec of stream `k` has asked for in a run. -/
def askedFor (k : Stream) (h : List (State φ π × Action φ)) : Nat := h.countP fun p => p.2.asks k

/-- 1 from an `AVERROR(EAGAIN)` to the next `avcodec_send_packet`. -/
def unsent (x : Option (PacketLoop π)) : Nat := (x.any PacketLoop.sending).toNat

/-- What a step of the thread of stream `k` does to the file and the codecs. -/
structure LoopCount (k : Stream) (x : Option (PacketLoop π)) (m : Demuxer π) (x' : Option (PacketLoop π))
    (m' : Demuxer π) (reads asks : Bool) (failed : Option Nat) : Prop where
  unread : m'.unread = m.unread.drop reads.toNat
  failed : failed = none ↔ reads.toNat ≤ m.unread.length
  asked : (m'.codec k).sent.length + unsent x' = (m.codec k).sent.length + unsent x + asks.toNat
  other : ∀ j, j ≠ k → m'.codec j = m.codec j

theorem LoopCount.same {k : Stream} {x : Option (PacketLoop π)} {m : Demuxer π} :
    LoopCount k x m x m false false none :=
  ⟨rfl, iff_of_true rfl (Nat.zero_le _), rfl, fun _ _ => rfl⟩

theorem PacketLoop.Move.count {c : Container} {k : Stream} {f : PacketLoop π} {f' : Option (PacketLoop π)}
    {m m' : Demuxer π} (h : f.Move c k m f' m') : LoopCount k (some f) m f' m' f.reads false (f.failing m) := by
  refine ⟨?_, ?_, ?_, fun j hj => h.codec_of_ne hj⟩
  · cases h with
    | readFrame hu | readFail hu => simp [hu, PacketLoop.reads]
    | route => simp [PacketLoop.reads]
    | _ => rfl
  · cases h with
    | readFrame hu | readFail hu => simp [hu, PacketLoop.reads, PacketLoop.failing]
    | _ => exact iff_of_true rfl (Nat.zero_le _)
  · cases h with
    | send => simp [unsent, PacketLoop.sending, Demuxer.sendPacket]
    | route => simp [unsent, PacketLoop.sending]
    | _ => rfl

theorem RunMove.count {c : Container} {l l' : RunPc φ π} {d d' : VideoDecoder φ π} {a : RunAct φ}
    (h : RunMove c a l d l' d') {s : State φ π} (hl : s.run = l) (hd : s.shared = d) :
    LoopCount .video l.loop d.demuxer l'.loop d'.demuxer (readsFrame s ⟨.run, a⟩) (Action.asks .video ⟨.run, a⟩)
      (failedRead s ⟨.run, a⟩) := by
  subst hd
  cases h with
  | eagain => exact ⟨rfl, iff_of_true rfl (Nat.zero_le _), rfl, fun _ _ => rfl⟩
  | @fetch _ f f' _ hf =>
      rw [readsFrame, failedRead, hl]
      cases f' <;> exact hf.count
  | callback | frame | eof | error | spurious => exact .same
  | has =>
      rw [readsFrame, failedRead, hl]
      split_ifs <;> exact .same
  | _ =>
      rw [readsFrame, failedRead, hl]
      exact .same

theorem AudioMove.count {c : Container} {l l' : AudioPc π} {d d' : VideoDecoder φ π} {a : AudioAct}
    (h : AudioMove c a l d l' d') {s : State φ π} (hl : s.audio = l) (hd : s.shared = d) :
    LoopCount .audio l.loop d.demuxer l'.loop d'.demuxer (readsFrame s ⟨.audio, a⟩)
      (Action.asks .audio (⟨.audio, a⟩ : Action φ)) (failedRead s ⟨.audio, a⟩) := by
  subst hd
  cases h with
  | eagain => exact ⟨rfl, iff_of_true rfl (Nat.zero_le _), rfl, fun _ _ => rfl⟩
  | @fetch _ f f' _ hf =>
      rw [readsFrame, failedRead, hl]
      cases f' <;> exact hf.count
  | decodeAudio | callback | frame | eof | error => exact .same
  | testEnded =>
      rw [readsFrame, failedRead, hl]
      split_ifs <;> exact .same
  | setEnded =>
      rw [readsFrame, failedRead, hl]
      exact .same

/-- The file, the failed reads and the packets asked for, by the steps of the run. -/
structure ReadsCounted (file : List (Demuxed π)) (h : List (State φ π × Action φ)) (s : State φ π) : Prop where
  unread : s.shared.demuxer.unread = file.drop (readCalls h)
  failed : failedReads h = [] ↔ readCalls h ≤ file.length
  asked : ∀ k, askedFor k h = (s.shared.demuxer.codec k).sent.length + unsent (s.loops k)

section
variable {c : Container} {file : List (Demuxed π)} {h : List (State φ π × Action φ)} {s : State φ π}

theorem ReadsCounted.count {s' : State φ π} {a : Action φ} {k : Stream} (hI : ReadsCounted file h s)
    (hc : LoopCount k (s.loops k) s.shared.demuxer (s'.loops k) s'.shared.demuxer (readsFrame s a) (a.asks k)
      (failedRead s a)) (hother : ∀ j, j ≠ k → s'.loops j = s.loops j ∧ a.asks j = false) :
    ReadsCounted file (h ++ [(s, a)]) s' := by
  have hreads : readCalls (h ++ [(s, a)]) = readCalls h + (readsFrame s a).toNat := by
    rw [readCalls, List.countP_append, List.countP_singleton, readCalls]
    cases readsFrame s a <;> rfl
  have hasked : ∀ j, askedFor j (h ++ [(s, a)]) = askedFor j h + (a.asks j).toNat := fun j => by
    rw [askedFor, List.countP_append, List.countP_singleton, askedFor]
    cases a.asks j <;> rfl
  refine ⟨?_, ?_, fun j => ?_⟩
  · rw [hc.unread, hI.unread, hreads, List.drop_drop]
  · rw [failedReads_snoc, List.append_eq_nil_iff, hI.failed, Option.toList_eq_nil_iff, hc.failed, hI.unread, hreads,
      List.length_drop]
    omega
  · rw [hasked, hI.asked]
    by_cases hj : j = k
    · subst hj
      exact hc.asked.symm
    · obtain ⟨hloop, hno⟩ := hother j hj
      rw [hc.other j hj, hloop, hno]
      rfl

theorem reads_counted (hr : (decoder φ c file).Run h s) : ReadsCounted file h s := by
  refine System.RunWhen.induction (P := fun h s => ReadsCounted file h s) ?_ ?_ hr
  · rintro _ rfl
    exact ⟨rfl, iff_of_true rfl (Nat.zero_le _), fun k => by cases k <;> rfl⟩
  · rintro h s ⟨t, a⟩ s' - hI - hstep
    obtain ⟨l, d, hs, rfl⟩ := Program.next_eq_some hstep
    cases t with
    | run =>
        refine hI.count (k := .video) ((run_move hs).count rfl rfl) fun j hj => ?_
        cases j with
        | video => exact absurd rfl hj
        | audio => exact ⟨rfl, by cases a <;> first | rfl | (rename_i ret; cases ret <;> rfl)⟩
    | audio =>
        refine hI.count (k := .audio) ((audio_move hs).count rfl rfl) fun j hj => ?_
        cases j with
        | audio => exact absurd rfl hj
        | video => exact ⟨rfl, by cases a <;> first | rfl | (rename_i ret; cases ret <;> rfl)⟩
    | consumer =>
        refine hI.count (k := .video) ?_ fun j _ => ⟨by cases j <;> rfl, by cases a <;> rfl⟩
        rw [Config.put_shared, (consumer_move hs).demuxer_eq]
        exact .same

/-- A codec was sent packets only, and its loop does not bring NULL. -/
def PacketsOnly (x : Option (PacketLoop π)) (m : Demuxer π) (k : Stream) : Prop :=
  (m.codec k).sent.all Option.isSome = true ∧ ∀ f, x = some f → f.draining = false

theorem PacketLoop.Move.packetsOnly {k : Stream} {f : PacketLoop π} {f' : Option (PacketLoop π)} {m m' : Demuxer π}
    (h : f.Move c k m f' m') (hI : PacketsOnly (some f) m k) (hlost : f.failing m = none) : PacketsOnly f' m' k := by
  obtain ⟨hall, hdr⟩ := hI
  cases h with
  | readFail hu => simp [PacketLoop.failing, hu] at hlost
  | drain => exact absurd (hdr _ rfl) Bool.false_ne_true.symm
  | @send _ p =>
      cases p with
      | none => exact absurd (hdr _ rfl) Bool.false_ne_true.symm
      | some p => exact ⟨by simpa [Demuxer.sendPacket] using hall, fun f hf => by cases hf; rfl⟩
  | route => exact ⟨by rwa [Demuxer.route_codec], fun f hf => by cases hf; rfl⟩
  | free => exact ⟨hall, fun f hf => by cases hf⟩
  | _ => exact ⟨hall, fun f hf => by cases hf; rfl⟩

theorem LoopStep.codec_of_ne {k : Stream} {x x' : Option (PacketLoop π)} {m m' : Demuxer π} {o : Option Nat}
    (h : LoopStep c k x m x' m' o) {j : Stream} (hj : j ≠ k) : m'.codec j = m.codec j := by
  cases h with
  | same | enter => rfl
  | move hmv => exact hmv.codec_of_ne hj

theorem packetsOnly (hr : (decoder φ c file).Run h s) (hlost : failedReads h = []) (k : Stream) :
    PacketsOnly (s.loops k) s.shared.demuxer k := by
  refine packets_induction (I := fun lost x m => lost = [] → ∀ k, PacketsOnly (x k) m k)
    (fun _ k => ⟨rfl, nofun⟩) ?_ hr hlost k
  intro lost x m k x' m' o hI hstep hlost
  obtain ⟨hnil, ho⟩ := List.append_eq_nil_iff.mp hlost
  have hown : PacketsOnly x' m' k := by
    have hk := hI hnil k
    generalize x k = y at hstep hk
    cases hstep with
    | same => exact hk
    | enter => exact ⟨hk.1, by rintro _ ⟨⟩; rfl⟩
    | move hmv => exact hmv.packetsOnly hk (Option.toList_eq_nil_iff.mp ho)
  intro j
  by_cases hj : j = k
  · subst hj
    rwa [Function.update_self]
  · rw [Function.update_of_ne hj, PacketsOnly, hstep.codec_of_ne hj]
    exact hI hnil j

/-- The places from `av_packet_alloc` to the end of `readPacket`, and from `pop_back` to `av_packet_free`. -/
def PacketLoop.hasPacket : PacketLoop π → Bool
  | .read _ | .route _ => true
  | .unlock p _ | .send p | .free p => p.isSome
  | _ => false

/-- The packets read are those asked for: no `av_read_frame` was called at the end of the file, and each codec has asked
for as many packets as were read of its stream, one more when a call of `decodeAudio` has yet to send its packet. No
call of `decodeAudio` stands where it has a packet. -/
structure AllAskedFor (c : Container) (file : List (Demuxed π)) (h : List (State φ π × Action φ)) (s : State φ π) :
    Prop where
  within : readCalls h ≤ file.length
  video : (file.take (readCalls h)).countP (c.ofStream .video) = askedFor .video h
  audio : (file.take (readCalls h)).countP (c.ofStream .audio) + unsent s.audio.loop = askedFor .audio h
  hand : s.audio.loop.any PacketLoop.hasPacket = false

theorem AudioPc.owned_eq_nil_iff (l : AudioPc π) : l.owned = [] ↔ l.loop.any PacketLoop.hasPacket = false := by
  rw [AudioPc.owned]
  cases l.loop with
  | none => exact iff_of_true rfl rfl
  | some f =>
      cases f with
      | unlock p | send p | free p => cases p <;> simp [PacketLoop.allocated, PacketLoop.held, PacketLoop.hasPacket]
      | _ => simp [PacketLoop.allocated, PacketLoop.held, PacketLoop.hasPacket]

theorem PacketLoop.empty_hand {f : PacketLoop π} (h : f.allocated ++ f.held = []) : f.routing = [] ∧ f.toSend = [] := by
  cases f with
  | unlock p check => exact ⟨rfl, by cases p <;> first | rfl | cases h⟩
  | send p => exact ⟨rfl, by cases p <;> first | rfl | cases h⟩
  | route p => cases h
  | _ => exact ⟨rfl, rfl⟩

theorem loops_empty (hret : s.run = .returned) (hhand : s.audio.owned = []) (k : Stream) :
    (s.loops k).toList.flatMap PacketLoop.routing = [] ∧ (s.loops k).toList.flatMap PacketLoop.toSend = [] := by
  cases k with
  | video =>
      rw [State.loops, hret]
      exact ⟨rfl, rfl⟩
  | audio =>
      rw [State.loops]
      rw [AudioPc.owned] at hhand
      cases hx : s.audio.loop with
      | none => exact ⟨rfl, rfl⟩
      | some f =>
          rw [hx] at hhand
          have hf := PacketLoop.empty_hand (f := f) (by simpa using hhand)
          simpa using hf

theorem queue_eq (hr : (decoder φ c file).Run h s) (hret : s.run = .returned) (hhand : s.audio.owned = [])
    (hlost : failedReads h = []) (k : Stream) :
    askedFor k h + (s.shared.demuxer.packets k).length =
      (file.take (readCalls h)).countP (c.ofStream k) + unsent (s.loops k) := by
  have hA := reads_counted hr
  have hsent := congrArg List.length (AVCodecContext.sent_eq (packetsOnly hr hlost k).1)
  have hrouting : s.loops.routing = [] := by
    rw [Loops.routing, (loops_empty hret hhand .video).1, (loops_empty hret hhand .audio).1, List.append_nil]
  have hflow := congrArg List.length ((routed hr).flow_eq k)
  have hfile : file.countP (c.ofStream k) = (file.take (readCalls h)).countP (c.ofStream k) +
      (file.drop (readCalls h)).countP (c.ofStream k) := by
    rw [← List.countP_append, List.take_append_drop]
  rw [flow, pending, (loops_empty hret hhand k).2, hrouting, hA.unread, List.map_nil, List.nil_append, List.nil_append,
    List.length_append, List.length_append, List.length_map, List.length_reverse, ← List.countP_eq_length_filter,
    ← List.countP_eq_length_filter, hfile] at hflow
  rw [hA.asked, hsent, List.length_map]
  omega

/-- After the destructor nothing is left of the packets if and only if those read are those asked for. -/
theorem emptied_iff (hr : (decoder φ c file).Run h s) (hret : s.run = .returned) :
    (failedReads h = [] ∧ s.shared.demuxer.videoPackets = [] ∧ s.shared.demuxer.audioPackets = [] ∧
      s.audio.owned = []) ↔ AllAskedFor c file h s := by
  have hfailed := (reads_counted hr).failed
  have hvideo : unsent (s.loops .video) = 0 := by
    rw [State.loops, hret]
    rfl
  constructor
  · rintro ⟨hlost, hv, ha, hhand⟩
    have hqv := queue_eq hr hret hhand hlost .video
    have hqa := queue_eq hr hret hhand hlost .audio
    rw [Demuxer.videoPackets] at hv
    rw [Demuxer.audioPackets] at ha
    rw [hv, hvideo, List.length_nil] at hqv
    rw [ha, List.length_nil] at hqa
    exact ⟨hfailed.mp hlost, by omega, hqa.symm, (AudioPc.owned_eq_nil_iff s.audio).mp hhand⟩
  · rintro ⟨hle, hv, ha, hhand⟩
    have hhand := (AudioPc.owned_eq_nil_iff s.audio).mpr hhand
    have hlost := hfailed.mpr hle
    have hqv := queue_eq hr hret hhand hlost .video
    have hqa := queue_eq hr hret hhand hlost .audio
    rw [hvideo] at hqv
    refine ⟨hlost, List.eq_nil_of_length_eq_zero (by rw [Demuxer.videoPackets]; omega),
      List.eq_nil_of_length_eq_zero ?_, hhand⟩
    rw [show s.loops .audio = s.audio.loop from rfl] at hqa
    rw [Demuxer.audioPackets]
    omega

/-- **Packet ownership**, in every run: a packet `readPacket` has allocated is in exactly one place and is freed at most
once; and when the destructor has ended, all are freed if and only if the packets read are those asked for. -/
theorem packets_owned (hr : (decoder φ c file).Run h s) :
    (∀ id < s.shared.demuxer.allocated, ∃! p, id ∈ placeOf h s p) ∧ s.shared.demuxer.freed.Nodup ∧
    (s.consumer = .deleted → ((∀ id < s.shared.demuxer.allocated, id ∈ s.shared.demuxer.freed) ↔
      AllAskedFor c file h s)) := by
  refine ⟨fun id hid => ?_, List.nodup_iff_count_le_one.mpr fun id => count_place_le hr .freed id, fun hdel => ?_⟩
  · obtain ⟨p, hp⟩ := place_exists hr hid
    exact ⟨p, hp, fun q hq => place_unique hr hq hp⟩
  · rw [← emptied_iff hr (returned_of_joined hr (by rw [hdel]; rfl)), ← places_deleted hr hdel]
    constructor
    · intro hall p hp
      refine List.eq_nil_iff_forall_not_mem.mpr fun id hid => hp ?_
      exact place_unique hr hid (hall id (lt_of_mem_place hr hid))
    · intro hnone id hid
      obtain ⟨p, hp⟩ := place_exists hr hid
      by_contra hne
      have hpf : p ≠ .freed := by
        rintro rfl
        exact hne hp
      rw [hnone p hpf] at hp
      exact List.not_mem_nil hp

end

/-- Two packets of a file of three are read and asked for, by the audio thread and by `run`, and a third is dropped; the
destructor comes before the fourth. -/
theorem packets_owned_freed : ∃ h s,
    (decoder Nat (Container.videoAndAudio false) [⟨1, 4⟩, ⟨3, 5⟩, ⟨0, 6⟩, ⟨0, 7⟩]).Run h s ∧
    s.consumer = .deleted ∧ readCalls h = 3 ∧ s.shared.demuxer.allocated = 3 ∧
      ∀ id < s.shared.demuxer.allocated, id ∈ s.shared.demuxer.freed := by
  obtain ⟨h, s, hr, hdel, hreads, halloc, hvideo, haudio, hhand⟩ :=
    (decoder Nat (Container.videoAndAudio false) [⟨1, 4⟩, ⟨3, 5⟩, ⟨0, 6⟩, ⟨0, 7⟩]).exists_run rfl
      ([⟨.audio, .decodeAudio⟩] ++ Action.decodesAudio 1 ++ [⟨.audio, .receive .eagain⟩] ++ Action.decodesAudio 12 ++
        [⟨.audio, .receive (.frame ())⟩] ++ Action.runs 5 ++ Action.receives .eagain ++ Action.runs 19 ++
        Action.calls .delete 5 ++ Action.runs 5 ++ Action.consumes 2)
      (fun h s => s.consumer = .deleted ∧ readCalls h = 3 ∧ s.shared.demuxer.allocated = 3 ∧
        (([⟨1, 4⟩, ⟨3, 5⟩, ⟨0, 6⟩, ⟨0, 7⟩] : List (Demuxed Nat)).take (readCalls h)).countP
          ((Container.videoAndAudio false).ofStream .video) = askedFor .video h ∧
        (([⟨1, 4⟩, ⟨3, 5⟩, ⟨0, 6⟩, ⟨0, 7⟩] : List (Demuxed Nat)).take (readCalls h)).countP
          ((Container.videoAndAudio false).ofStream .audio) + unsent s.audio.loop = askedFor .audio h ∧
        s.audio.loop.any PacketLoop.hasPacket = false) (by decide +kernel)
  exact ⟨h, s, hr, hdel, hreads, halloc, ((packets_owned hr).2.2 hdel).mpr
    ⟨by rw [hreads]; decide, hvideo, haudio, hhand⟩⟩

/-- The destructor ends with an audio packet in its queue and a packet for which `av_read_frame` failed. -/
theorem packets_leaked : ∃ h s, (decoder Nat (Container.videoAndAudio false) [⟨1, 6⟩]).Run h s ∧
    s.consumer = .deleted ∧ s.shared.demuxer.allocated = 2 ∧ failedReads h = [1] ∧
      s.shared.demuxer.audioPackets = [⟨0, (⟨1, 6⟩ : Demuxed Nat)⟩] ∧ s.shared.demuxer.freed = [] ∧
      ¬ ∀ id < s.shared.demuxer.allocated, id ∈ s.shared.demuxer.freed := by
  obtain ⟨h, s, hr, hdel, halloc, hlost, hqueue, hfreed⟩ :=
    (decoder Nat (Container.videoAndAudio false) [⟨1, 6⟩]).exists_run rfl
      (Action.runs 5 ++ Action.receives .eagain ++ Action.runs 17 ++ Action.receives .eof ++ Action.runs 5 ++
        Action.calls .delete 7)
      (fun h s => s.consumer = .deleted ∧ s.shared.demuxer.allocated = 2 ∧ failedReads h = [1] ∧
        s.shared.demuxer.audioPackets = [⟨0, (⟨1, 6⟩ : Demuxed Nat)⟩] ∧ s.shared.demuxer.freed = [])
      (by decide +kernel)
  refine ⟨h, s, hr, hdel, halloc, hlost, hqueue, hfreed, fun hall => ?_⟩
  have hmem := hall 0 (by rw [halloc]; decide)
  rw [hfreed] at hmem
  exact List.not_mem_nil hmem

end ArcVideo
