import ArcVideo.Decoder.Sequential

/-!
# The timestamp of the picture shown

`getCurrentFrameTimestamp` reads the slot of the read index, long after `nextVideoFrame` has returned its picture, while
the decoding thread fills the other slots. The player paces the video with it.

* `slot_delivered` : between the calls of `nextVideoFrame`, the slot holds the frame delivered last;
* `shown_sequential` : after k frames, the k-th frame of sequential decoding, picture and timestamp.
-/

namespace ArcVideo
open Conc

variable {φ π : Type}

def RgbFrame.empty (φ : Type) : RgbFrame φ := ⟨none, 0⟩

/-- The frame delivered last, or what the slots hold at the start. -/
def lastDelivered (h : List (State φ π × Action φ)) : RgbFrame φ := (framesDelivered h).getLast?.getD (.empty φ)

theorem lastDelivered_snoc (h : List (State φ π × Action φ)) (s : State φ π) (a : Action φ) :
    lastDelivered (h ++ [(s, a)]) = (delivered s a).getD (lastDelivered h) := by
  rw [lastDelivered, framesDelivered_snoc, lastDelivered]
  cases delivered s a with
  | none => rw [Option.toList_none, List.append_nil, Option.getD_none]
  | some f => rw [Option.toList_some, List.getLast?_concat, Option.getD_some, Option.getD_some]

theorem ConsumerMove.delivers {a : ConsumerAct} {l l' : ConsumerPc} {d d' : VideoDecoder φ π}
    (h : ConsumerMove a l d l' d') (ht : l'.taken = false) :
    (l.taken = true ∧ l.delivers d a = some (d.rgbFrames d.getReadIndex) ∨ l.taken = false ∧ l.delivers d a = none) ∧
      d'.currentFrameDisplayed = d.currentFrameDisplayed ∧ d'.rgbFrames = d.rgbFrames := by
  cases h with
  | advance | signal | unlock => cases ht
  | @returnFrame d b =>
      cases b with
      | true => exact ⟨Or.inl ⟨rfl, rfl⟩, rfl, rfl⟩
      | false => exact ⟨Or.inr ⟨rfl, rfl⟩, rfl, rfl⟩
  | _ => exact ⟨Or.inr ⟨rfl, rfl⟩, rfl, rfl⟩

section
variable {c : Container} {file : List (Demuxed π)} {h : List (State φ π × Action φ)} {s : State φ π}

/-- **Between the calls of `nextVideoFrame` the slot of the read index holds the frame delivered last**, whatever the
decoding thread writes meanwhile. -/
theorem slot_delivered (hr : (decoder φ c file).Run h s) (ht : s.consumer.taken = false) :
    s.shared.rgbFrames s.shared.getReadIndex = lastDelivered h := by
  refine System.RunWhen.induction (P := fun h s => s.consumer.taken = false →
    s.shared.rgbFrames s.shared.getReadIndex = lastDelivered h) ?_ ?_ hr ht
  · rintro _ rfl -
    rfl
  · rintro h s ⟨t, a⟩ s' hr ih - hstep ht
    have hshown := step_shown hr hstep
    rw [lastDelivered_snoc]
    obtain ⟨l, d, hs, rfl⟩ := Program.next_eq_some hstep
    by_cases hc : t = .consumer
    · subst hc
      obtain ⟨hdel, hcur, hslots⟩ := (consumer_move hs).delivers (by rwa [State.consumer, Config.put_loc_self] at ht)
      have hsame : d.rgbFrames d.getReadIndex = s.shared.rgbFrames s.shared.getReadIndex := by
        rw [VideoDecoder.getReadIndex, hcur, hslots, VideoDecoder.getReadIndex]
      change d.rgbFrames d.getReadIndex = (ConsumerPc.delivers s.shared (s.loc .consumer) a).getD (lastDelivered h)
      rw [hsame]
      rcases hdel with ⟨-, hdel⟩ | ⟨hl, hdel⟩
      · rw [hdel, Option.getD_some]
      · rw [hdel, Option.getD_none]
        exact ih hl
    · have hcur := (step_effect hs).displayed_eq hc
      have hnone : delivered s ⟨t, a⟩ = none := by
        cases t with
        | consumer => exact absurd rfl hc
        | run | audio => rfl
      have hidx : d.getReadIndex = s.shared.getReadIndex := by
        rw [VideoDecoder.getReadIndex, hcur, VideoDecoder.getReadIndex]
      rw [hnone, Option.getD_none, Config.put_shared, hidx]
      refine hshown.trans (ih ?_)
      rwa [State.consumer, Config.put_loc_of_ne _ (Ne.symm hc)] at ht

theorem displayed_eq_delivered (hr : (decoder φ c file).Run h s) (ht : s.consumer.taken = false) :
    s.shared.currentFrameDisplayed = (framesDelivered h).length := by
  have hfrom := queueFrom_eq hr
  rw [queueFrom, ht, if_neg Bool.false_ne_true] at hfrom
  exact Nat.succ_injective hfrom

variable {σ : Type} {codec : Transducer σ (Option (Demuxed π)) (Receive (AVFrame φ))}

/-- **`getCurrentFrameTimestamp` is about the picture shown**: at any time between the calls of `nextVideoFrame`, after
`k + 1` frames, the slot it reads holds the picture and the timestamp of frame `k` of sequential decoding; before the
first frame it holds no picture and the timestamp 0. -/
theorem shown_sequential (hr : (decoder φ c file).Run h s) (hg : codec.Gives codec.start (exchanges .video h))
    (ht : s.consumer.taken = false) :
    (s.shared.currentFrameDisplayed = 0 → s.shared.rgbFrames s.shared.getReadIndex = .empty φ) ∧
    ∃ m, ∀ n, m ≤ n → ∀ k, s.shared.currentFrameDisplayed = k + 1 →
      ((decodeVideo codec c file n)[k]?).map AVFrame.toRgb = some (s.shared.rgbFrames s.shared.getReadIndex) := by
  have hslot := slot_delivered hr ht
  have hlen := displayed_eq_delivered hr ht
  refine ⟨fun hz => first_slot_empty hr hz, (exchanges .video h).length, fun n hn k hk => ?_⟩
  obtain ⟨t, heq⟩ := delivered_isPrefix hr hg hn
  have hlast : (framesDelivered h).getLast? = (framesDelivered h)[k]? := by
    rw [List.getLast?_eq_getElem?]
    congr 1
    omega
  have hk' : k < (framesDelivered h).length := by omega
  have hsome : (framesDelivered h)[k]? = some (framesDelivered h)[k] := List.getElem?_eq_getElem hk'
  rw [hslot, lastDelivered, hlast, hsome, Option.getD_some, ← List.getElem?_map, ← heq,
    List.getElem?_append_left (by omega), hsome]

end

/-- The first of two frames has been delivered, the decoding thread writes the second. -/
theorem shown_sequential_ahead : ∃ h s,
    (decoder Nat (Container.videoOnly false) [⟨0, 7⟩, ⟨0, 8⟩]).Run h s ∧ s.run = .writePts ⟨8, 0⟩ ∧
    s.shared.rgbFrames s.shared.getReadIndex = ⟨some 7, 0⟩ ∧
    ∃ m, ∀ n, m ≤ n → ((decodeVideo (plainCodec []) (Container.videoOnly false) [⟨0, 7⟩, ⟨0, 8⟩] n)[0]?).map
      AVFrame.toRgb = some ⟨some 7, 0⟩ := by
  obtain ⟨h, s, hr, hrun, ht, hcur, hslot, hex⟩ :=
    (decoder Nat (Container.videoOnly false) [⟨0, 7⟩, ⟨0, 8⟩]).exists_run rfl
      (Action.decodes ⟨7, 0⟩ ++ Action.runs 4 ++ Action.calls .nextVideoFrame 7 ++ Action.decodes ⟨8, 0⟩ ++
        Action.runs 2)
      (fun h s => s.run = .writePts ⟨8, 0⟩ ∧ s.consumer.taken = false ∧ s.shared.currentFrameDisplayed = 0 + 1 ∧
        s.shared.rgbFrames s.shared.getReadIndex = ⟨some 7, 0⟩ ∧
        exchanges .video h = [.asked .eagain, .fed (some ⟨0, 7⟩), .asked (.frame ⟨7, 0⟩), .asked .eagain,
          .fed (some ⟨0, 8⟩), .asked (.frame ⟨8, 0⟩)]) (by decide +kernel)
  have hg : (plainCodec []).Gives (plainCodec []).start (exchanges .video h) := by
    rw [hex]
    exact ⟨rfl, rfl, rfl, rfl, trivial⟩
  obtain ⟨m, hm⟩ := (shown_sequential hr hg ht).2
  exact ⟨h, s, hr, hrun, hslot, m, fun n hn => hslot ▸ hm n hn 0 hcur⟩

end ArcVideo
