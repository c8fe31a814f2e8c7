import ArcVideo.Decoder.PacketLoops

/-!
# Packet routing

Both decoding loops pull packets through `readPacket`, each on behalf of the other too. What a codec is sent does not
depend on how they interleave.

* `MutexHeld` : only one loop is between `packetMutex.lock()` and `packetMutex.unlock()`;
* `pending` : the packets of a stream on their way to its codec, oldest first;
* `Routed` : the packets sent and the packets pending are the packets of the stream, in file order;
* `routing_lossless` : each codec is sent a prefix of its packets, then NULL.
-/

namespace ArcVideo
open Conc

variable {φ π : Type}

/-! ## Packets on their way -/

def PacketLoop.routing : PacketLoop π → List (AVPacket π)
  | .route p => [p]
  | _ => []

def PacketLoop.toSend : PacketLoop π → List (AVPacket π)
  | .unlock p _ | .send p => p.toList
  | _ => []

def PacketLoop.inside : PacketLoop π → Bool
  | .test | .alloc | .read _ | .route _ | .unlock _ _ => true
  | _ => false

def Container.ofStream (c : Container) (k : Stream) (q : Demuxed π) : Bool := q.streamIndex == c.index k

def Loops.routing (x : Loops π) : List (AVPacket π) :=
  (x .video).toList.flatMap PacketLoop.routing ++ (x .audio).toList.flatMap PacketLoop.routing

/-- The packets of stream `k` on their way to its codec, oldest first. -/
def pending (c : Container) (x : Loops π) (m : Demuxer π) (k : Stream) : List (Demuxed π) :=
  (((x k).toList.flatMap PacketLoop.toSend ++ (m.packets k).reverse).map AVPacket.content) ++
    (x.routing.map AVPacket.content ++ m.unread).filter (c.ofStream k)

def AVCodecContext.sentPackets (x : AVCodecContext π) : List (Demuxed π) := x.sent.filterMap id

theorem Demuxer.route_packets (c : Container) (m : Demuxer π) (p : AVPacket π) (k : Stream) :
    (m.route c p).packets k = if c.ofStream k p.content then p :: m.packets k else m.packets k := by
  have hne := c.index_ne
  rw [Demuxer.route]
  split_ifs with hv ha hk hk <;> cases k <;>
    simp_all [Demuxer.pushFront, Demuxer.freePacket, Container.ofStream, Container.index]

@[simp] theorem Demuxer.route_unread (c : Container) (m : Demuxer π) (p : AVPacket π) :
    (m.route c p).unread = m.unread := by
  rw [Demuxer.route]
  split_ifs <;> rfl

@[simp] theorem Demuxer.route_codec (c : Container) (m : Demuxer π) (p : AVPacket π) :
    (m.route c p).codec = m.codec := by
  rw [Demuxer.route]
  split_ifs <;> rfl

@[simp] theorem Demuxer.route_packetMutex (c : Container) (m : Demuxer π) (p : AVPacket π) :
    (m.route c p).packetMutex = m.packetMutex := by
  rw [Demuxer.route]
  split_ifs <;> rfl

/-! ## The packet mutex -/

/-- A loop between lock and unlock is the one inside `packetMutex`. -/
def MutexHeld (x : Loops π) (m : Demuxer π) : Prop := ∀ k f, x k = some f → f.inside = true → m.packetMutex = some k

theorem PacketLoop.Move.mutex {c : Container} {k : Stream} {f : PacketLoop π} {f' : Option (PacketLoop π)}
    {m m' : Demuxer π} (h : f.Move c k m f' m') (hm : f.inside = true → m.packetMutex = some k) :
    (∀ g, f' = some g → g.inside = true → m'.packetMutex = some k) ∧
      ∀ j, j ≠ k → m.packetMutex = some j → m'.packetMutex = some j := by
  cases h with
  | lock hn => exact ⟨fun _ _ _ => rfl, fun j _ hj => by rw [hn] at hj; cases hj⟩
  | again | taken | drain =>
      have hk := hm rfl
      refine ⟨?_, fun j hne hj => absurd (Option.some.inj (hj.symm.trans hk)) hne⟩
      rintro _ ⟨⟩ hin
      cases hin
  | send =>
      refine ⟨?_, fun _ _ hj => hj⟩
      rintro _ ⟨⟩ hin
      cases hin
  | free => exact ⟨nofun, fun _ _ hj => hj⟩
  | route => exact ⟨fun _ _ _ => by rw [Demuxer.route_packetMutex]; exact hm rfl, fun _ _ hj => by simpa using hj⟩
  | _ => exact ⟨fun _ _ _ => hm rfl, fun _ _ hj => hj⟩

theorem MutexHeld.step {c : Container} {x : Loops π} {m m' : Demuxer π} {k : Stream} {x' : Option (PacketLoop π)}
    (hm : MutexHeld x m) {o : Option Nat} (h : LoopStep c k (x k) m x' m' o) :
    MutexHeld (Function.update x k x') m' := by
  generalize hx : x k = y at h
  cases h with
  | same =>
      rw [← hx, Function.update_eq_self]
      exact hm
  | enter =>
      intro j g hg hin
      by_cases hj : j = k
      · subst hj
        rw [Function.update_self] at hg
        cases hg
        cases hin
      · rw [Function.update_of_ne hj] at hg
        exact hm j g hg hin
  | move hmv =>
      obtain ⟨hown, hother⟩ := hmv.mutex (hm k _ hx)
      intro j g hg hin
      by_cases hj : j = k
      · subst hj
        rw [Function.update_self] at hg
        exact hown g hg hin
      · rw [Function.update_of_ne hj] at hg
        exact hother j hj (hm j g hg hin)

/-- The other loop is not reading a packet while this one is inside the mutex. -/
theorem MutexHeld.alone {x : Loops π} {m : Demuxer π} (hm : MutexHeld x m) {k : Stream} {f : PacketLoop π}
    (hx : x k = some f) (hin : f.inside = true) {j : Stream} (hj : j ≠ k) :
    (x j).toList.flatMap PacketLoop.routing = [] := by
  cases hxj : x j with
  | none => rfl
  | some g =>
      cases g with
      | route p => exact absurd (Option.some.inj ((hm j _ hxj rfl).symm.trans (hm k f hx hin))) hj
      | _ => rfl

/-! ## The flow of packets -/

theorem Loops.routing_alone {x : Loops π} {k : Stream}
    (h : ∀ j, j ≠ k → (x j).toList.flatMap PacketLoop.routing = []) :
    x.routing = (x k).toList.flatMap PacketLoop.routing := by
  cases k with
  | video => rw [Loops.routing, h .audio nofun, List.append_nil]
  | audio => rw [Loops.routing, h .video nofun, List.nil_append]

theorem Loops.routing_update {x : Loops π} {k : Stream} {x' : Option (PacketLoop π)}
    (h : x'.toList.flatMap PacketLoop.routing = (x k).toList.flatMap PacketLoop.routing) :
    Loops.routing (Function.update x k x') = x.routing := by
  cases k with
  | video => exact congrArg (· ++ (x .audio).toList.flatMap PacketLoop.routing) h
  | audio => exact congrArg ((x .video).toList.flatMap PacketLoop.routing ++ ·) h

/-- All the packets of stream `k` that were demuxed or will be, in the order they reach its codec. -/
def flow (c : Container) (x : Loops π) (m : Demuxer π) (k : Stream) : List (Demuxed π) :=
  (m.codec k).sentPackets ++ pending c x m k

theorem flow_congr {c : Container} {x : Loops π} {m m' : Demuxer π} {k : Stream} {x' : Option (PacketLoop π)}
    (hsend : x'.toList.flatMap PacketLoop.toSend = (x k).toList.flatMap PacketLoop.toSend)
    (hrout : x'.toList.flatMap PacketLoop.routing = (x k).toList.flatMap PacketLoop.routing)
    (hpack : m'.packets = m.packets) (hunread : m'.unread = m.unread) (hcodec : m'.codec = m.codec) (j : Stream) :
    flow c (Function.update x k x') m' j = flow c x m j := by
  have htake : (Function.update x k x' j).toList.flatMap PacketLoop.toSend =
      (x j).toList.flatMap PacketLoop.toSend := by
    by_cases hj : j = k
    · subst hj
      rw [Function.update_self, hsend]
    · rw [Function.update_of_ne hj]
  rw [flow, flow, pending, pending, htake, Loops.routing_update hrout, hpack, hunread, hcodec]

theorem Loops.routing_update_alone {x : Loops π} {k : Stream} (x' : Option (PacketLoop π))
    (h : ∀ j, j ≠ k → (x j).toList.flatMap PacketLoop.routing = []) :
    Loops.routing (Function.update x k x') = x'.toList.flatMap PacketLoop.routing := by
  rw [Loops.routing_alone fun j hj => by rw [Function.update_of_ne hj]; exact h j hj, Function.update_self]

theorem flow_move {c : Container} {x : Loops π} {m m' : Demuxer π} {k : Stream} {f : PacketLoop π}
    {f' : Option (PacketLoop π)} (hm : MutexHeld x m) (hx : x k = some f) (h : f.Move c k m f' m') (j : Stream) :
    flow c (Function.update x k f') m' j = flow c x m j := by
  cases h with
  | take hq =>
      rw [flow, flow, pending, pending, Loops.routing_update (by rw [hx]; rfl)]
      by_cases hj : j = k
      · subst hj
        simp [hx, hq, PacketLoop.toSend]
      · simp only [Function.update_of_ne hj]
  | @readFrame _ id q rest hu =>
      have hold : x.routing = [] := by
        rw [Loops.routing_alone fun j hj => hm.alone hx rfl hj, hx]
        rfl
      have hnew := Loops.routing_update_alone (some (.route ⟨id, q⟩)) fun j hj => hm.alone hx rfl hj
      rw [flow, flow, pending, pending, hold, hnew, hu]
      by_cases hj : j = k
      · subst hj
        simp [hx, PacketLoop.toSend, PacketLoop.routing]
      · simp [Function.update_of_ne hj, PacketLoop.routing]
  | @route _ p =>
      have hold : x.routing = [p] := by
        rw [Loops.routing_alone fun j hj => hm.alone hx rfl hj, hx]
        rfl
      have hnew := Loops.routing_update_alone (some (.unlock none true)) fun j hj => hm.alone hx rfl hj
      have htake : (Function.update x k (some (.unlock none true)) j).toList.flatMap PacketLoop.toSend =
          (x j).toList.flatMap PacketLoop.toSend := by
        by_cases hj : j = k
        · subst hj
          rw [Function.update_self, hx]
          rfl
        · rw [Function.update_of_ne hj]
      rw [flow, flow, pending, pending, hold, hnew, htake, Demuxer.route_packets, Demuxer.route_unread,
        Demuxer.route_codec]
      by_cases hp : c.ofStream j p.content = true <;> simp [hp, PacketLoop.routing]
  | @send _ p =>
      rw [flow, flow, pending, pending, Loops.routing_update (by rw [hx]; rfl)]
      by_cases hj : j = k
      · subst hj
        cases p <;> simp [hx, PacketLoop.toSend, Demuxer.sendPacket, AVCodecContext.sentPackets]
      · simp [Function.update_of_ne hj, Demuxer.sendPacket]
  | _ => exact flow_congr (by rw [hx]; rfl) (by rw [hx]; rfl) rfl rfl rfl j

theorem flow_step {c : Container} {x : Loops π} {m m' : Demuxer π} {k : Stream} {x' : Option (PacketLoop π)}
    (hm : MutexHeld x m) {o : Option Nat} (h : LoopStep c k (x k) m x' m' o) (j : Stream) :
    flow c (Function.update x k x') m' j = flow c x m j := by
  generalize hx : x k = y at h
  cases h with
  | same => rw [← hx, Function.update_eq_self]
  | enter => exact flow_congr (by rw [hx]; rfl) (by rw [hx]; rfl) rfl rfl rfl j
  | move hmv => exact flow_move hm hx hmv j

/-! ## What the codecs are sent -/

def PacketLoop.reading : PacketLoop π → Bool
  | .alloc | .read _ => true
  | _ => false

def PacketLoop.draining : PacketLoop π → Bool
  | .unlock none false | .send none => true
  | _ => false

def PacketLoop.sending : PacketLoop π → Bool
  | .free _ => false
  | _ => true

/-- The packets `file` on their way through the loops and the queues. -/
structure Routed (c : Container) (file : List (Demuxed π)) (x : Loops π) (m : Demuxer π) : Prop where
  mutex : MutexHeld x m
  flow_eq : ∀ k, flow c x m k = file.filter (c.ofStream k)
  empty : ∀ k f, x k = some f → f.reading = true → m.packets k = []
  drained : ∀ k f, x k = some f → f.draining = true → (m.codec k).sentPackets = file.filter (c.ofStream k)
  undrained : ∀ k f, x k = some f → f.sending = true → (m.codec k).sent.all Option.isSome = true
  sent : ∀ k, (m.codec k).sent.all Option.isSome = true ∨
    (m.codec k).sent = (file.filter (c.ofStream k)).map some ++ [none]

theorem PacketLoop.Move.codec_of_ne {c : Container} {k : Stream} {f : PacketLoop π} {f' : Option (PacketLoop π)}
    {m m' : Demuxer π} (h : f.Move c k m f' m') {j : Stream} (hj : j ≠ k) : m'.codec j = m.codec j := by
  cases h with
  | send => exact Function.update_of_ne hj _ _
  | route => rw [Demuxer.route_codec]
  | _ => rfl

theorem Routed.empty_move {c : Container} {file : List (Demuxed π)} {x : Loops π} {m m' : Demuxer π} {k : Stream}
    {f : PacketLoop π} {f' : Option (PacketLoop π)} (hI : Routed c file x m) (hx : x k = some f)
    (h : f.Move c k m f' m') {j : Stream} {g : PacketLoop π} (hg : Function.update x k f' j = some g)
    (hread : g.reading = true) : m'.packets j = [] := by
  by_cases hj : j = k
  · subst hj
    rw [Function.update_self] at hg
    subst hg
    cases h with
    | empty hq => exact hq
    | alloc => exact hI.empty j _ hx rfl
    | _ => cases hread
  · rw [Function.update_of_ne hj] at hg
    have hq := hI.empty j g hg hread
    have hin : g.inside = true := by
      cases g <;> first | rfl | cases hread
    cases h with
    | take => exact (Function.update_of_ne hj _ _).trans hq
    | route => exact absurd (Option.some.inj ((hI.mutex j g hg hin).symm.trans (hI.mutex k _ hx rfl))) hj
    | _ => exact hq

theorem Routed.drained_move {c : Container} {file : List (Demuxed π)} {x : Loops π} {m m' : Demuxer π} {k : Stream}
    {f : PacketLoop π} {f' : Option (PacketLoop π)} (hI : Routed c file x m) (hx : x k = some f)
    (h : f.Move c k m f' m') {j : Stream} {g : PacketLoop π} (hg : Function.update x k f' j = some g)
    (hdr : g.draining = true) : (m'.codec j).sentPackets = file.filter (c.ofStream j) := by
  by_cases hj : j = k
  · subst hj
    rw [Function.update_self] at hg
    subst hg
    cases h with
    | readFail hu =>
        have hflow := hI.flow_eq j
        have hrout : x.routing = [] := by
          rw [Loops.routing_alone fun i hi => hI.mutex.alone hx rfl hi, hx]
          rfl
        rw [flow, pending, hI.empty j _ hx rfl, hrout, hu, hx] at hflow
        simpa [PacketLoop.toSend] using hflow
    | drain => exact hI.drained j _ hx rfl
    | _ => cases hdr
  · rw [Function.update_of_ne hj] at hg
    rw [h.codec_of_ne hj]
    exact hI.drained j g hg hdr

theorem PacketLoop.Move.undrained {c : Container} {k : Stream} {f g : PacketLoop π} {f' : Option (PacketLoop π)}
    {m m' : Demuxer π} (h : f.Move c k m f' m') (hg : f' = some g) (hs : g.sending = true) :
    f.sending = true ∧ m'.codec = m.codec := by
  subst hg
  cases h with
  | send => cases hs
  | route => exact ⟨rfl, Demuxer.route_codec c m _⟩
  | _ => exact ⟨rfl, rfl⟩

theorem AVCodecContext.sent_eq {x : AVCodecContext π} (h : x.sent.all Option.isSome = true) :
    x.sent = x.sentPackets.map some := by
  rw [AVCodecContext.sentPackets]
  generalize x.sent = l at h
  induction l with
  | nil => rfl
  | cons o l ih =>
      rw [List.all_cons, Bool.and_eq_true] at h
      obtain ⟨q, rfl⟩ := Option.isSome_iff_exists.mp h.1
      exact congrArg (some q :: ·) (ih h.2)

theorem Routed.sent_move {c : Container} {file : List (Demuxed π)} {x : Loops π} {m m' : Demuxer π} {k : Stream}
    {f : PacketLoop π} {f' : Option (PacketLoop π)} (hI : Routed c file x m) (hx : x k = some f)
    (h : f.Move c k m f' m') : (m'.codec k).sent.all Option.isSome = true ∨
      (m'.codec k).sent = (file.filter (c.ofStream k)).map some ++ [none] := by
  cases h with
  | @send _ p =>
      have hall := hI.undrained k _ hx rfl
      have hsent : ((m.sendPacket k p).codec k).sent = (m.codec k).sent ++ [p.map AVPacket.content] := by
        simp [Demuxer.sendPacket]
      rw [hsent]
      cases p with
      | some p => exact Or.inl (by simpa using hall)
      | none =>
          right
          rw [← hI.drained k _ hx rfl, ← AVCodecContext.sent_eq hall]
          rfl
  | route =>
      rw [Demuxer.route_codec]
      exact hI.sent k
  | _ => exact hI.sent k

theorem Routed.step {c : Container} {file : List (Demuxed π)} {x : Loops π} {m m' : Demuxer π} {k : Stream}
    {x' : Option (PacketLoop π)} (hI : Routed c file x m) {o : Option Nat} (h : LoopStep c k (x k) m x' m' o) :
    Routed c file (Function.update x k x') m' := by
  have hmutex := hI.mutex.step h
  have hflow := fun j => (flow_step hI.mutex h j).trans (hI.flow_eq j)
  generalize hx : x k = y at h
  cases h with
  | same =>
      rw [← hx, Function.update_eq_self]
      exact hI
  | enter hopen =>
      have hlock : ∀ j g, Function.update x k (some .lock) j = some g → x j = some g ∨ j = k ∧ g = .lock := by
        intro j g hg
        by_cases hj : j = k
        · subst hj
          rw [Function.update_self] at hg
          exact Or.inr ⟨rfl, (Option.some.inj hg).symm⟩
        · rw [Function.update_of_ne hj] at hg
          exact Or.inl hg
      refine ⟨hmutex, hflow, fun j g hg hp => ?_, fun j g hg hp => ?_, fun j g hg hp => ?_, hI.sent⟩ <;>
        rcases hlock j g hg with hg | ⟨rfl, rfl⟩
      · exact hI.empty j g hg hp
      · cases hp
      · exact hI.drained j g hg hp
      · cases hp
      · exact hI.undrained j g hg hp
      · exact hopen
  | move hmv =>
      refine ⟨hmutex, hflow, fun j g hg hread => hI.empty_move hx hmv hg hread,
        fun j g hg hdr => hI.drained_move hx hmv hg hdr, fun j g hg hs => ?_, fun j => ?_⟩ <;> by_cases hj : j = k
      · subst hj
        rw [Function.update_self] at hg
        obtain ⟨hf, hcodec⟩ := hmv.undrained hg hs
        rw [hcodec]
        exact hI.undrained j _ hx hf
      · rw [Function.update_of_ne hj] at hg
        rw [hmv.codec_of_ne hj]
        exact hI.undrained j g hg hs
      · subst hj
        exact hI.sent_move hx hmv
      · rw [hmv.codec_of_ne hj]
        exact hI.sent j

theorem routed {c : Container} {file : List (Demuxed π)} {h : List (State φ π × Action φ)} {s : State φ π}
    (hr : (decoder φ c file).Run h s) : Routed c file s.loops s.shared.demuxer := by
  refine packets_induction (I := fun _ => Routed c file) ?_ (fun _ _ _ _ _ _ _ hI hstep => hI.step hstep) hr
  refine ⟨nofun, fun k => ?_, nofun, nofun, nofun, fun k => Or.inl rfl⟩
  simp [flow, pending, Demuxer.start, AVCodecContext.sentPackets, Loops.routing]

theorem Routed.sent_isPrefix {c : Container} {file : List (Demuxed π)} {x : Loops π} {m : Demuxer π}
    (hI : Routed c file x m) (k : Stream) :
    (m.codec k).sent <+: (file.filter (c.ofStream k)).map some ++ [none] := by
  rcases hI.sent k with hall | hdrained
  · rw [AVCodecContext.sent_eq hall, ← hI.flow_eq k, flow, List.map_append, List.append_assoc]
    exact List.prefix_append _ _
  · rw [hdrained]

section
variable {c : Container} {file : List (Demuxed π)} {h : List (State φ π × Action φ)} {s : State φ π}

/-- **Packet routing is lossless, in order and independent of the schedule**: at every moment of every run, what a codec
was sent is a prefix of the packets of its stream in file order, or all of them and then NULL; so any two runs on a
file send a codec the same packets, one of them possibly more. -/
theorem routing_lossless (hr : (decoder φ c file).Run h s) (k : Stream) :
    ((∃ n, (s.shared.demuxer.codec k).sent = ((file.filter (c.ofStream k)).take n).map some) ∨
      (s.shared.demuxer.codec k).sent = (file.filter (c.ofStream k)).map some ++ [none]) ∧
    ∀ h' s', (decoder φ c file).Run h' s' →
      (s.shared.demuxer.codec k).sent <+: (s'.shared.demuxer.codec k).sent ∨
        (s'.shared.demuxer.codec k).sent <+: (s.shared.demuxer.codec k).sent := by
  have hI := routed hr
  refine ⟨?_, fun h' s' hr' => List.prefix_or_prefix_of_prefix (hI.sent_isPrefix k) ((routed hr').sent_isPrefix k)⟩
  rcases hI.sent k with hall | hdrained
  · refine Or.inl ⟨(s.shared.demuxer.codec k).sentPackets.length, ?_⟩
    rw [← hI.flow_eq k, flow, List.take_left, ← AVCodecContext.sent_eq hall]
  · exact Or.inr hdrained

end

/-- The audio thread reads the first video packet, `run` takes it from its queue. -/
theorem routing_lossless_video : ∃ s : State Nat Nat,
    (s.shared.demuxer.codec .video).sent = [some ⟨0, 5⟩] ∧ (s.shared.demuxer.codec .audio).sent = [some ⟨1, 6⟩] ∧
    ∀ h' s', (decoder Nat (Container.videoAndAudio false) [⟨0, 5⟩, ⟨1, 6⟩, ⟨0, 7⟩]).Run h' s' →
      [some (⟨0, 5⟩ : Demuxed Nat)] <+: (s'.shared.demuxer.codec .video).sent ∨
        (s'.shared.demuxer.codec .video).sent <+: [some ⟨0, 5⟩] := by
  have he : ∃ r, (decoder Nat (Container.videoAndAudio false) [⟨0, 5⟩, ⟨1, 6⟩, ⟨0, 7⟩]).exec
      (State.start Nat [⟨0, 5⟩, ⟨1, 6⟩, ⟨0, 7⟩]) ([⟨.audio, .decodeAudio⟩] ++ Action.decodesAudio 1 ++
        [⟨.audio, .receive .eagain⟩] ++ Action.decodesAudio 16 ++ Action.runs 5 ++ Action.receives .eagain ++
        Action.runs 4) = some r ∧
      (r.2.shared.demuxer.codec .video).sent = [some ⟨0, 5⟩] ∧
      (r.2.shared.demuxer.codec .audio).sent = [some ⟨1, 6⟩] := ⟨_, rfl, rfl, rfl⟩
  obtain ⟨⟨h, s⟩, he, hv, ha⟩ := he
  refine ⟨s, hv, ha, fun h' s' hr' => ?_⟩
  have hcmp := (routing_lossless (System.run_of_exec rfl he) .video).2 h' s' hr'
  rwa [hv] at hcmp

end ArcVideo
