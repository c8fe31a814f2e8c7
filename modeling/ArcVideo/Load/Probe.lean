import ArcVideo.Conc.Best
import ArcVideo.Load.Stream
import Mathlib.Data.Int.Order.Basic

/-!
# Which format a stream has

`avformat_open_input` finds out by reading the beginning of the stream into a buffer of its own, twice as much at each
attempt, and then puts what it has read back in front of FFmpeg's buffer.

* `InputFormat`, `avProbeInputFormat3`, `avProbeInputFormat2` : the demuxers' opinions, and the one that wins;
* `rewindWithProbeData`, `avProbeInputBuffer2` : the attempts on the stream;
* `probeFile` : the attempts on the file;
* `format3_eq_some_iff` : the format returned is the only one with the best score;
* `probe_rewinds` : the attempts end as those on the file do, and the demuxer then reads the file from its beginning;
* `short_needs_score` : a file that is no longer than half the most that is read is never opened with a low score.
-/

namespace ArcVideo
open Conc

def PROBE_BUF_MIN : Nat := 2048
def PROBE_BUF_MAX : Nat := 1048576
def AVPROBE_SCORE_MAX : Int := 100
def AVPROBE_SCORE_EXTENSION : Int := 50
def AVPROBE_SCORE_RETRY : Int := AVPROBE_SCORE_MAX / 4
def ID3v2_HEADER_SIZE : Nat := 10
def AVERROR_INVALIDDATA : Int := -1094995529

/-! ## The demuxers -/

/-- A demuxer, as the probe sees it. -/
structure InputFormat where
  /-- `AVFMT_EXPERIMENTAL`. -/
  experimental : Bool
  /-- `AVFMT_NOFILE`. -/
  nofile : Bool
  /-- The name is "image2". -/
  image2 : Bool
  readProbe : Option (List UInt8 → Int)

def ffId3v2Match (buf : List UInt8) : Bool :=
  buf.getD 0 0 == 0x49 && buf.getD 1 0 == 0x44 && buf.getD 2 0 == 0x33 && buf.getD 3 0 != 0xff &&
    buf.getD 4 0 != 0xff && buf.getD 6 0 < 0x80 && buf.getD 7 0 < 0x80 && buf.getD 8 0 < 0x80 && buf.getD 9 0 < 0x80

def ffId3v2TagLen (buf : List UInt8) : Nat :=
  let seven (i : Nat) := (buf.getD i 0).toNat % 128
  seven 6 * 2097152 + seven 7 * 16384 + seven 8 * 128 + seven 9 + ID3v2_HEADER_SIZE +
    if (buf.getD 5 0).toNat / 16 % 2 = 1 then ID3v2_HEADER_SIZE else 0

/-- How much of the buffer the tag takes, and whether it goes beyond (`ID3_GREATER_PROBE`). -/
def id3Skip (buf : List UInt8) : Nat × Bool :=
  if 10 < buf.length ∧ ffId3v2Match buf = true then
    let id3len := ffId3v2TagLen buf
    if id3len + 16 < buf.length then (id3len, false)
    else if PROBE_BUF_MAX ≤ id3len then (0, false)
    else (0, true)
  else (0, false)

def InputFormat.asked (isOpened : Bool) (f : InputFormat) : Bool :=
  !f.experimental && !((!isOpened == !f.nofile) && !f.image2)

/-- The file name of a stream has no extension, and there is no mime type. -/
def InputFormat.score (buf : List UInt8) (f : InputFormat) : Int :=
  match f.readProbe with
  | some probe => probe buf
  | none => 0

/-- The formats by their numbers in the list of demuxers. -/
def avProbeInputFormat3 (formats : List InputFormat) (isOpened : Bool) (buf : List UInt8) : Option Nat × Int :=
  let (skip, greater) := id3Skip buf
  let (scoreMax, fmt) := formats.zipIdx.foldl (fun best f =>
    if f.1.asked isOpened then pickSole best (f.2, f.1.score (buf.drop skip)) else best) (0, none)
  (fmt, if greater then min (AVPROBE_SCORE_EXTENSION / 2 - 1) scoreMax else scoreMax)

/-- The format, and what is left in `score_max`. -/
def avProbeInputFormat2 (formats : List InputFormat) (isOpened : Bool) (buf : List UInt8) (scoreMax : Int) :
    Option Nat × Int :=
  let (fmt, score) := avProbeInputFormat3 formats isOpened buf
  if scoreMax < score then (fmt, score) else (none, scoreMax)

/-! ## The attempts -/

namespace AVIOContext

variable {σ : Type} {file : List UInt8} (S : PacketSource file σ)

/-- `ffio_rewind_with_probe_data`, for the bytes `buf` that have been read; memory can be allocated. -/
def rewindWithProbeData (s : AVIOContext σ) (buf : List UInt8) : Int × AVIOContext σ :=
  -- the buffers must touch or overlap
  if buf.length < s.start then (Avio.AVERROR_EINVAL, s)
  else
    let overlap := buf.length - s.start
    let newSize := buf.length + s.bufEnd - overlap
    let allocSize := max s.bufferSize newSize
    let buf := if buf.length < newSize then buf ++ s.buffer.drop overlap else buf
    (0, { s with buffer := buf, bufPtr := 0, bufferSize := allocSize, pos := buf.length, eofReached := false })

end AVIOContext

/-- What the attempts leave: the format, the score and what `ret` is, and the bytes read. -/
structure Probed where
  fmt : Option Nat
  score : Int
  ret : Int
  buf : List UInt8

section
variable {σ : Type} {file : List UInt8} (S : PacketSource file σ)
variable (formats : List InputFormat) (offset maxProbeSize : Nat)

/-- The loop of `av_probe_input_buffer2`. -/
def probeLoop : Nat → Nat → Probed → AVIOContext σ → Option (Probed × AVIOContext σ)
  | 0, _, _, _ => none
  | fuel + 1, probeSize, p, s =>
    if probeSize ≤ maxProbeSize ∧ p.fmt = none then
      let score := if probeSize < maxProbeSize then AVPROBE_SCORE_RETRY else 0
      (s.avioRead S (probeSize - p.buf.length)).bind fun ((ret, data), s) =>
        -- fail if error was not end of file, otherwise, lower score
        if ret < 0 ∧ ret ≠ AVERROR_EOF then some ({ p with score := score, ret := ret }, s)
        else
          let score := if ret < 0 then 0 else score
          let buf := p.buf ++ data
          let next := min (2 * probeSize) (max maxProbeSize (probeSize + 1))
          if buf.length < offset then probeLoop fuel next { p with score := score, ret := max ret 0, buf := buf } s
          else
            let (fmt, score) := avProbeInputFormat2 formats true (buf.drop offset) score
            probeLoop fuel next { fmt := fmt, score := score, ret := max ret 0, buf := buf } s
    else some (if p.fmt = none then { p with ret := AVERROR_INVALIDDATA } else p, s)

/-- `av_probe_input_buffer2`: what it returns, and the format. -/
def avProbeInputBuffer2 (s : AVIOContext σ) : Option ((Int × Option Nat) × AVIOContext σ) :=
  let maxProbeSize := if maxProbeSize = 0 then PROBE_BUF_MAX else maxProbeSize
  if maxProbeSize < PROBE_BUF_MIN ∨ maxProbeSize ≤ offset then some ((Avio.AVERROR_EINVAL, none), s)
  else
    (probeLoop S formats offset maxProbeSize (maxProbeSize + 2) PROBE_BUF_MIN ⟨none, 0, 0, []⟩ s).map fun (p, s) =>
      let (ret2, s) := s.rewindWithProbeData p.buf
      let ret := if 0 ≤ p.ret then ret2 else p.ret
      ((if ret < 0 then ret else p.score, p.fmt), s)

end

/-! ## The best format -/

theorem format3_fst (formats : List InputFormat) (isOpened : Bool) (buf : List UInt8) :
    (avProbeInputFormat3 formats isOpened buf).1 =
      (((formats.zipIdx.filter fun f => f.1.asked isOpened).map fun f =>
        (f.2, f.1.score (buf.drop (id3Skip buf).1))).foldl pickSole (0, none)).2 := by
  rw [List.foldl_map, List.foldl_filter]
  rfl

/-- **The format found** is the only one with the best score, which is positive. -/
theorem format3_eq_some_iff (formats : List InputFormat) (isOpened : Bool) (buf : List UInt8) (i : Nat) :
    (avProbeInputFormat3 formats isOpened buf).1 = some i ↔
      ∃ f, formats[i]? = some f ∧ f.asked isOpened = true ∧ 0 < f.score (buf.drop (id3Skip buf).1) ∧
        ∀ j g, j ≠ i → formats[j]? = some g → g.asked isOpened = true →
          g.score (buf.drop (id3Skip buf).1) < f.score (buf.drop (id3Skip buf).1) := by
  generalize hskip : buf.drop (id3Skip buf).1 = rest
  have hmem : ∀ j k, (j, k) ∈ ((formats.zipIdx.filter fun f => f.1.asked isOpened).map fun f => (f.2, f.1.score rest)) ↔
      ∃ g, formats[j]? = some g ∧ g.asked isOpened = true ∧ g.score rest = k := by
    intro j k
    rw [List.mem_map]
    constructor
    · rintro ⟨⟨g, n⟩, hg, heq⟩
      obtain ⟨hg, hasked⟩ := List.mem_filter.mp hg
      obtain ⟨rfl, rfl⟩ := Prod.mk.inj heq
      exact ⟨g, List.mk_mem_zipIdx_iff_getElem?.mp hg, hasked, rfl⟩
    · rintro ⟨g, hg, hasked, rfl⟩
      exact ⟨(g, j), List.mem_filter.mpr ⟨List.mk_mem_zipIdx_iff_getElem?.mpr hg, hasked⟩, rfl⟩
  have hnodup : (((formats.zipIdx.filter fun f => f.1.asked isOpened).map fun f =>
      (f.2, f.1.score rest)).map Prod.fst).Nodup := by
    rw [List.map_map]
    have hall : (formats.zipIdx.map Prod.snd).Nodup := by
      rw [List.zipIdx_map_snd]
      exact List.nodup_range'
    exact hall.sublist (List.filter_sublist.map _)
  rw [format3_fst, hskip, pickSole_eq_some_iff]
  simp only [sole_iff_of_nodup hnodup, hmem]
  constructor
  · rintro ⟨k, hpos, ⟨f, hf, hasked, rfl⟩, hlt⟩
    exact ⟨f, hf, hasked, hpos, fun j g hj hg hg' => hlt (j, g.score rest) ⟨g, hg, hg', rfl⟩ hj⟩
  · rintro ⟨f, hf, hasked, hpos, hlt⟩
    refine ⟨_, hpos, ⟨f, hf, hasked, rfl⟩, ?_⟩
    rintro ⟨j, k⟩ ⟨g, hg, hg', rfl⟩ hj
    exact hlt j g hj hg hg'

theorem format2_score {formats : List InputFormat} {isOpened : Bool} {buf : List UInt8} {scoreMax : Int} {i : Nat}
    (h : (avProbeInputFormat2 formats isOpened buf scoreMax).1 = some i) :
    scoreMax < (avProbeInputFormat2 formats isOpened buf scoreMax).2 := by
  unfold avProbeInputFormat2 at h ⊢
  generalize avProbeInputFormat3 formats isOpened buf = r at h ⊢
  obtain ⟨fmt, score⟩ := r
  by_cases hlt : scoreMax < score
  · simp only [if_pos hlt]
    exact hlt
  · simp only [if_neg hlt] at h
    exact absurd h (by simp)

/-! ## Putting back -/

namespace AVIOContext

variable {σ : Type} {file : List UInt8} {S : PacketSource file σ} {s : AVIOContext σ}

/-- **`ffio_rewind_with_probe_data`** goes back to the beginning of the file, when what it is given is all that has been
read. -/
theorem rewind_eq (h : Follows S s) : ∃ s', s.rewindWithProbeData (file.take s.avioTell) = (0, s') ∧ Follows S s' ∧
    s'.avioTell = 0 ∧ s'.eofReached = false := by
  have htell := h.tell_le
  have hpos := h.pos_le
  have hadd := h.start_add
  have hstart : s.start ≤ s.avioTell := Nat.le_add_right _ _
  have hlen : (file.take s.avioTell).length = s.avioTell := by
    rw [List.length_take]
    omega
  have hnew : s.avioTell + s.bufEnd - (s.avioTell - s.start) = s.pos := by omega
  -- the bytes read, and those still in the buffer
  have hbuf : (if s.avioTell < s.pos then file.take s.avioTell ++ s.buffer.drop (s.avioTell - s.start)
      else file.take s.avioTell) = file.extract 0 s.pos := by
    have hdrop : s.buffer.drop (s.avioTell - s.start) = file.extract s.avioTell s.pos := by
      rw [show s.avioTell - s.start = s.bufPtr from Nat.add_sub_cancel_left _ _, h.unread]
    split
    · rw [hdrop, ← extract_zero, extract_append _ (Nat.zero_le _) htell]
    · rw [extract_zero, show s.avioTell = s.pos by omega]
  have hfull : (file.extract 0 s.pos).length = s.pos := by
    rw [length_extract]
    omega
  unfold rewindWithProbeData
  rw [hlen, if_neg (by omega)]
  simp only [hnew, hbuf, hfull]
  refine ⟨_, rfl, ?_, ?_⟩
  · have hend : bufEnd { s with
      buffer := file.extract 0 s.pos
      bufPtr := 0
      bufferSize := max s.bufferSize s.pos
      eofReached := false } = s.pos := hfull
    exact { h with
      ptr := Nat.zero_le _
      fits := hend.le.trans (le_max_right _ _)
      orig_le := h.orig_le.trans (le_max_left _ _)
      bufEnd_le := hend.le
      window := by
        unfold start
        rw [hend]
        dsimp only
        rw [Nat.sub_self]
      ended := fun he => absurd he Bool.false_ne_true }
  · refine ⟨?_, rfl⟩
    unfold avioTell start bufEnd
    dsimp only
    rw [hfull, Nat.sub_self]

end AVIOContext

/-! ## The attempts on the file -/

section
variable (formats : List InputFormat) (offset maxProbeSize : Nat)

/-- How much is looked at, attempt by attempt. -/
def probeSizes : Nat → Nat → List Nat
  | 0, _ => []
  | fuel + 1, probeSize =>
    if probeSize ≤ maxProbeSize then
      probeSize :: probeSizes fuel (min (2 * probeSize) (max maxProbeSize (probeSize + 1)))
    else []

/-- The attempts on a file of which `read` bytes have been looked at: what is returned, and the format. There is no
attempt without new bytes. -/
def attempts (file : List UInt8) (endCode : Int) : List Nat → Nat → Int × Option Nat
  | [], _ => (AVERROR_INVALIDDATA, none)
  | probeSize :: rest, read =>
    if file.length ≤ read then (endCode, none)
    else
      let beginning := file.take probeSize
      if beginning.length < offset then attempts file endCode rest beginning.length
      else
        let score := if probeSize < maxProbeSize then AVPROBE_SCORE_RETRY else 0
        match avProbeInputFormat2 formats true (beginning.drop offset) score with
        | (some fmt, score) => (score, some fmt)
        | (none, _) => attempts file endCode rest beginning.length

/-- **The attempts on a file.** -/
def probeFile (file : List UInt8) (endCode : Int) : Int × Option Nat :=
  let maxProbeSize := if maxProbeSize = 0 then PROBE_BUF_MAX else maxProbeSize
  if maxProbeSize < PROBE_BUF_MIN ∨ maxProbeSize ≤ offset then (Avio.AVERROR_EINVAL, none)
  else
    attempts formats offset maxProbeSize file endCode (probeSizes maxProbeSize (maxProbeSize + 2) PROBE_BUF_MIN) 0

end

section
variable {σ : Type} {file : List UInt8} {S : PacketSource file σ} {formats : List InputFormat}
  {offset maxProbeSize : Nat}

/-- What `av_probe_input_buffer2` returns when putting back succeeds. -/
def Probed.result (p : Probed) : Int × Option Nat := (if p.ret < 0 then p.ret else p.score, p.fmt)

theorem probeLoop_found {fuel probeSize : Nat} {p : Probed} {s : AVIOContext σ} (h : p.fmt ≠ none) :
    probeLoop S formats offset maxProbeSize (fuel + 1) probeSize p s = some (p, s) := by
  rw [probeLoop, if_neg fun hp => h hp.2, if_neg h]

/-- A read of the loop: the bytes up to `probeSize`, or the code of the end where there are no new ones. -/
theorem probe_read {s : AVIOContext σ} {probeSize : Nat} (h : s.Follows S) (hread : s.avioTell < probeSize) :
    ∃ ret t, s.avioRead S (probeSize - s.avioTell) = some ((ret, file.extract s.avioTell probeSize), t) ∧
      t.Follows S ∧ t.avioTell = min probeSize file.length ∧ (file.length ≤ s.avioTell → ret = S.endCode) ∧
      (s.avioTell < file.length → 0 ≤ ret) := by
  obtain ⟨ret, t, heq, hc, hret⟩ := AVIOContext.avioRead_eq h (probeSize - s.avioTell)
  have htell : t.avioTell = min (s.avioTell + (probeSize - s.avioTell)) file.length := hc.after.tell
  rw [Nat.add_sub_cancel' hread.le] at heq htell hret
  unfold AVIOContext.ReadReturn at hret
  refine ⟨ret, t, heq, hc.follows, htell, fun hend => ?_, fun hlt => ?_⟩
  · rw [extract_of_length_le hend] at hret
    exact hret.resolve_right fun hz => by omega
  · have hpos : (file.extract s.avioTell probeSize).length ≠ 0 := by
      rw [length_extract]
      omega
    rw [if_neg hpos] at hret
    omega

/-- **The loop of `av_probe_input_buffer2`** ends as the attempts on the file do. -/
theorem probeLoop_eq (formats : List InputFormat) (offset maxProbeSize : Nat) (hcode : S.endCode ≠ AVERROR_EOF)
    (fuel : Nat) : ∀ (probeSize : Nat) (p : Probed) (s : AVIOContext σ),
    s.Follows S → p.buf = file.take s.avioTell → s.avioTell < probeSize → p.fmt = none →
    probeSize ≤ maxProbeSize + 1 → maxProbeSize + 1 < probeSize + fuel →
    ∃ p' s', probeLoop S formats offset maxProbeSize fuel probeSize p s = some (p', s') ∧ s'.Follows S ∧
      p'.buf = file.take s'.avioTell ∧
      p'.result = attempts formats offset maxProbeSize file S.endCode (probeSizes maxProbeSize fuel probeSize)
        s.avioTell := by
  induction fuel with
  | zero =>
      intro probeSize p s h hbuf hread hfmt hbound hfuel
      omega
  | succ fuel ih =>
      intro probeSize p s h hbuf hread hfmt hbound hfuel
      have hle := h.tell_le_length
      rw [probeLoop, probeSizes]
      by_cases hsize : probeSize ≤ maxProbeSize
      · have hlen : p.buf.length = s.avioTell := by
          rw [hbuf, List.length_take]
          omega
        obtain ⟨ret, t, hread', ht, htell, hatEnd, hbefore⟩ := probe_read h hread
        rw [if_pos ⟨hsize, hfmt⟩, if_pos hsize, attempts, hlen, hread', Option.bind_some]
        dsimp only
        by_cases hend : file.length ≤ s.avioTell
        · obtain rfl := hatEnd hend
          rw [if_pos ⟨S.endCode_neg, hcode⟩, if_pos hend]
          refine ⟨_, t, rfl, ht, ?_, ?_⟩
          · rw [htell, hbuf]
            congr 1
            omega
          · unfold Probed.result
            rw [if_pos S.endCode_neg, hfmt]
        · have hnonneg : ¬ret < 0 := Int.not_lt.mpr (hbefore (Nat.lt_of_not_le hend))
          have hjoin : p.buf ++ file.extract s.avioTell probeSize = file.take probeSize := by
            rw [hbuf, ← extract_zero, extract_append _ (Nat.zero_le _) hread.le, extract_zero]
          have htaken : (file.take probeSize).length = t.avioTell := by
            rw [List.length_take, htell]
          have htake : file.take probeSize = file.take t.avioTell := by
            rw [htell, List.take_eq_take_iff]
            omega
          have hnext : t.avioTell < min (2 * probeSize) (max maxProbeSize (probeSize + 1)) := by omega
          have hbound' : min (2 * probeSize) (max maxProbeSize (probeSize + 1)) ≤ maxProbeSize + 1 := by omega
          have hgo : maxProbeSize + 1 < min (2 * probeSize) (max maxProbeSize (probeSize + 1)) + fuel := by omega
          simp only [if_neg hend, hjoin, htaken, hnonneg, false_and, if_false]
          by_cases hoffset : t.avioTell < offset
          · simp only [if_pos hoffset]
            exact ih _ _ t ht htake hnext hfmt hbound' hgo
          · simp only [if_neg hoffset]
            generalize avProbeInputFormat2 formats true ((file.take probeSize).drop offset)
              (if probeSize < maxProbeSize then AVPROBE_SCORE_RETRY else 0) = r
            obtain ⟨fmt, score⟩ := r
            cases fmt with
            | none => exact ih _ _ t ht htake hnext rfl hbound' hgo
            | some fmt =>
                obtain ⟨fuel, rfl⟩ := Nat.exists_eq_succ_of_ne_zero (show fuel ≠ 0 by omega)
                refine ⟨_, t, probeLoop_found (by simp), ht, htake, ?_⟩
                unfold Probed.result
                rw [if_neg (by dsimp only; omega)]
      · rw [if_neg fun hp => hsize hp.1, if_neg hsize, if_pos hfmt, attempts]
        refine ⟨_, s, rfl, h, hbuf, ?_⟩
        unfold Probed.result
        rw [if_pos (show AVERROR_INVALIDDATA < 0 by decide), hfmt]

/-- **`av_probe_input_buffer2`** returns what the attempts on the file do, and goes back to its beginning. -/
theorem avProbeInputBuffer2_eq (formats : List InputFormat) (offset maxProbeSize : Nat)
    (hcode : S.endCode ≠ AVERROR_EOF) {s : AVIOContext σ} (h : s.Follows S) (htell : s.avioTell = 0)
    (hended : s.eofReached = false) : ∃ s', avProbeInputBuffer2 S formats offset maxProbeSize s =
      some (probeFile formats offset maxProbeSize file S.endCode, s') ∧ s'.Follows S ∧ s'.avioTell = 0 ∧
        s'.eofReached = false := by
  unfold avProbeInputBuffer2 probeFile
  generalize (if maxProbeSize = 0 then PROBE_BUF_MAX else maxProbeSize) = most
  by_cases hbad : most < PROBE_BUF_MIN ∨ most ≤ offset
  · simp only [if_pos hbad]
    exact ⟨s, rfl, h, htell, hended⟩
  simp only [if_neg hbad]
  have hmost := Nat.not_lt.mp fun hlt => hbad (Or.inl hlt)
  have hmin : 0 < PROBE_BUF_MIN := by decide
  obtain ⟨p, t, hloop, ht, hbuf, hresult⟩ := probeLoop_eq formats offset most hcode (most + 2) PROBE_BUF_MIN
    ⟨none, 0, 0, []⟩ s h (by rw [htell, List.take_zero]) (by rw [htell]; exact hmin) rfl
    (hmost.trans (Nat.le_succ _)) (by omega)
  obtain ⟨u, hrewind, hu, hbegin⟩ := AVIOContext.rewind_eq ht
  rw [← hbuf] at hrewind
  rw [hloop, Option.map_some]
  simp only [hrewind]
  refine ⟨u, ?_, hu, hbegin⟩
  rw [htell] at hresult
  rw [← hresult]
  unfold Probed.result
  by_cases hret : p.ret < 0
  · rw [if_neg (Int.not_le.mpr hret), if_pos hret]
  · rw [if_pos (Int.not_lt.mp hret), if_neg hret, if_neg (Int.lt_irrefl 0)]

end

/-- **The format is found as on the file, and nothing is lost by it**: in whatever pieces the channel delivers the
stream, `av_probe_input_buffer2` returns, its result is that of the attempts on the file, and afterwards every sequence
of calls of the demuxer is answered as the file answers it from its beginning. -/
theorem probe_rewinds (file : List UInt8) (ready : Nat → Nat) (formats : List InputFormat) (offset maxProbeSize : Nat)
    (calls : List StreamCall) : ∃ s answers s',
    avProbeInputBuffer2 (playerSource file ready) formats offset maxProbeSize
      (avioAllocContext CUSTOMIO_BUFFER_SIZE ⟨0, 0⟩) =
        some (probeFile formats offset maxProbeSize file (-1), s) ∧
    s.cursor.tell = 0 ∧ s.cursor.ended = false ∧
    perform (AVIOContext.call (playerSource file ready)) s calls = some (answers, s') ∧
    Runs (FileStep file (-1)) s.cursor calls answers s'.cursor := by
  have h : AVIOContext.Follows (playerSource file ready) (avioAllocContext CUSTOMIO_BUFFER_SIZE ⟨0, 0⟩) :=
    AVIOContext.follows_alloc rfl (by decide)
  have hcode : (playerSource file ready).endCode ≠ AVERROR_EOF := show (-1 : Int) ≠ AVERROR_EOF by decide
  obtain ⟨s, hprobe, hs, htell, hended⟩ := avProbeInputBuffer2_eq formats offset maxProbeSize hcode h rfl rfl
  obtain ⟨answers, s', heq, hruns, -⟩ := AVIOContext.perform_eq hs calls
  exact ⟨s, answers, s', hprobe, htell, hended, heq, hruns⟩

/-! ## Low scores -/

theorem attempts_score {formats : List InputFormat} {offset maxProbeSize : Nat} {file : List UInt8} {endCode : Int}
    (hshort : 2 * file.length ≤ maxProbeSize) (fuel : Nat) : ∀ (probeSize read : Nat),
    probeSize < maxProbeSize ∨ file.length ≤ read → ∀ {score : Int} {fmt : Nat},
    attempts formats offset maxProbeSize file endCode (probeSizes maxProbeSize fuel probeSize) read =
      (score, some fmt) → AVPROBE_SCORE_RETRY < score := by
  induction fuel with
  | zero =>
      intro probeSize read _ score fmt h
      exact absurd h (by simp [probeSizes, attempts])
  | succ fuel ih =>
      intro probeSize read hsize score fmt h
      rw [probeSizes] at h
      split at h
      next hle =>
        rw [attempts] at h
        split at h
        next => exact absurd h (by simp)
        next hread =>
          have hlt : probeSize < maxProbeSize := hsize.resolve_right hread
          have hnext : min (2 * probeSize) (max maxProbeSize (probeSize + 1)) < maxProbeSize ∨
              file.length ≤ (file.take probeSize).length := by
            rw [List.length_take]
            omega
          dsimp only at h
          rw [if_pos hlt] at h
          split at h
          next => exact ih _ _ hnext h
          next =>
            generalize hformat : avProbeInputFormat2 formats true ((file.take probeSize).drop offset)
              AVPROBE_SCORE_RETRY = r at h
            obtain ⟨found, best⟩ := r
            cases found with
            | none => exact ih _ _ hnext h
            | some i =>
                obtain ⟨rfl, -⟩ := Prod.mk.inj h
                have hscore := format2_score (congrArg Prod.fst hformat)
                rwa [hformat] at hscore
      next => exact absurd h (by simp [attempts])

/-- **A short stream needs a good score**: `readFunction` never tells that the file has ended, so that the attempt which
accepts any score fails, unless it still finds new bytes. -/
theorem short_needs_score {file : List UInt8} {ready : Nat → Nat} {formats : List InputFormat}
    {offset maxProbeSize fmt : Nat} {ret : Int} {s : AVIOContext Channel} (hmin : PROBE_BUF_MIN < maxProbeSize)
    (hshort : 2 * file.length ≤ maxProbeSize)
    (h : avProbeInputBuffer2 (playerSource file ready) formats offset maxProbeSize
      (avioAllocContext CUSTOMIO_BUFFER_SIZE ⟨0, 0⟩) = some ((ret, some fmt), s)) : AVPROBE_SCORE_RETRY < ret := by
  have hfollows : AVIOContext.Follows (playerSource file ready) (avioAllocContext CUSTOMIO_BUFFER_SIZE ⟨0, 0⟩) :=
    AVIOContext.follows_alloc rfl (by decide)
  have hcode : (playerSource file ready).endCode ≠ AVERROR_EOF := show (-1 : Int) ≠ AVERROR_EOF by decide
  obtain ⟨s', hprobe, -⟩ := avProbeInputBuffer2_eq formats offset maxProbeSize hcode hfollows rfl rfl
  have hresult := congrArg Prod.fst (Option.some.inj (hprobe.symm.trans h))
  unfold probeFile at hresult
  rw [if_neg (show maxProbeSize ≠ 0 by omega)] at hresult
  dsimp only at hresult
  split at hresult
  next => exact absurd hresult (by simp)
  next => exact attempts_score hshort _ _ _ (Or.inl hmin) hresult

/-- A format that any file has, with the score 50. -/
def anyFormat : InputFormat := ⟨false, false, false, some fun _ => 50⟩

theorem short_needs_score_one : ∃ s,
    avProbeInputBuffer2 (playerSource [7] fun _ => 0) [anyFormat] 0 4096
      (avioAllocContext CUSTOMIO_BUFFER_SIZE ⟨0, 0⟩) = some ((50, some 0), s) ∧ AVPROBE_SCORE_RETRY < 50 := by
  have he : ∃ s, avProbeInputBuffer2 (playerSource [7] fun _ => 0) [anyFormat] 0 4096
      (avioAllocContext CUSTOMIO_BUFFER_SIZE ⟨0, 0⟩) = some ((50, some 0), s) := ⟨_, rfl⟩
  obtain ⟨s, hs⟩ := he
  exact ⟨s, hs, short_needs_score (by decide) (by decide) hs⟩

end ArcVideo
