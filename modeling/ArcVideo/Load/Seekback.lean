import ArcVideo.Load.Stream

/-!
# Seeking back in a stream

There is no `seek`, so a demuxer that wants to look ahead first asks `ffio_ensure_seekback` for room.

* `readAt` : a seek to a place and a read there; `fileAt` : what the file has there;
* `readAt_eq` : inside what is kept, every one of them is answered as the file answers it, and as much is kept;
* `seekback_random_access` : after `ffio_ensure_seekback`, from the place on and as far as it was asked for, the stream
  is a file in which every place can be read at any time.
-/

namespace ArcVideo
open Conc

/-- `avio_seek` to a place, and `avio_read` there unless it fails: what the seek returns, and the bytes. -/
def AVIOContext.readAt {σ : Type} {file : List UInt8} (S : PacketSource file σ) (s : AVIOContext σ) (r : Nat × Nat) :
    Option ((Int × List UInt8) × AVIOContext σ) :=
  (s.avioSeek S r.1 .set).bind fun (ret, s) =>
    if ret < 0 then some ((ret, []), s) else (s.avioRead S r.2).map fun (a, s) => ((ret, a.2), s)

def fileAt (file : List UInt8) (r : Nat × Nat) : Int × List UInt8 :=
  if file.length < r.1 then (AVERROR_EOF, []) else (r.1, file.extract r.1 (r.1 + r.2))

namespace AVIOContext

variable {σ : Type} {file : List UInt8} {S : PacketSource file σ} {s : AVIOContext σ}

/-- The bytes from `a` on are in the buffer, and those before `b` are or there is room for them. -/
def Kept (a b : Nat) (s : AVIOContext σ) : Prop := s.start ≤ a ∧ b ≤ s.kept

theorem Kept.of_keeps {t : AVIOContext σ} {a b upto : Nat} (hk : s.Kept a b) (hupto : upto ≤ b)
    (h : s.cursor.Keeps t.cursor upto) : t.Kept a b := by
  obtain ⟨hstart, hkept⟩ := h.kept (hupto.trans hk.2)
  exact ⟨hstart.trans_le hk.1, hk.2.trans hkept⟩

theorem seek_kept (h : Follows S s) {a b place : Nat} (hk : s.Kept a b) (ha : a ≤ place) (hb : place ≤ b) :
    ∃ ret t, s.seekTo S place = some (ret, t) ∧ Follows S t ∧ t.Kept a b ∧
      (file.length < place ∧ ret = AVERROR_EOF ∨ place ≤ file.length ∧ ret = place ∧ t.avioTell = place) := by
  obtain ⟨ret, t, hseek, ht, hstep⟩ := seekTo_eq h (place : Int)
  refine ⟨ret, t, hseek, ht, ?_⟩
  have hle := h.tell_le_length
  have hstart := hk.1
  generalize hc : t.cursor = c at hstep
  cases hstep with
  | invalid hneg => exact absurd hneg (by omega)
  | behind _ hlt =>
      have hlt' : (place : Int) < s.start := hlt
      omega
  | back _ hback htell _ hstart' hkept' =>
      have hback' : (place : Int) ≤ s.avioTell := hback
      subst hc
      refine ⟨⟨hstart'.trans_le hstart, hk.2.trans_eq hkept'.symm⟩, Or.inr ⟨by omega, rfl, Int.ofNat_inj.mp htell⟩⟩
  | ahead _ hlen htell _ hkeeps =>
      subst hc
      exact ⟨hk.of_keeps hb hkeeps, Or.inr ⟨Int.ofNat_le.mp hlen, rfl, Int.ofNat_inj.mp htell⟩⟩
  | past hlen _ _ _ hkeeps =>
      subst hc
      exact ⟨hk.of_keeps hb hkeeps, Or.inl ⟨Int.ofNat_lt.mp hlen, rfl⟩⟩

/-- **Inside what is kept** a place can be read, and as much is kept as before. -/
theorem readAt_eq (h : Follows S s) {a b : Nat} (hk : s.Kept a b) {r : Nat × Nat} (ha : a ≤ r.1) (hb : r.1 + r.2 ≤ b) :
    ∃ s', s.readAt S r = some (fileAt file r, s') ∧ Follows S s' ∧ s'.Kept a b := by
  obtain ⟨place, size⟩ := r
  obtain ⟨ret, t, hseek, ht, hkt, hend⟩ := seek_kept h hk ha (Nat.le_of_add_right_le hb)
  unfold readAt fileAt
  rw [show s.avioSeek S (place : Int) .set = some (ret, t) from hseek, Option.bind_some]
  dsimp only
  rcases hend with ⟨hpast, rfl⟩ | ⟨hlen, rfl, rfl⟩
  · rw [if_pos hpast, if_pos (by decide)]
    exact ⟨t, rfl, ht, hkt⟩
  · rw [if_neg (Nat.not_lt.mpr hlen), if_neg (Int.not_lt.mpr (Int.natCast_nonneg _))]
    obtain ⟨ret, s', hread, hc, -⟩ := avioRead_eq ht size
    rw [hread, Option.map_some]
    exact ⟨s', rfl, hc.follows, hkt.of_keeps hb hc.after.keeps⟩

theorem perform_readAt_eq {a b : Nat} : ∀ (requests : List (Nat × Nat)) (s : AVIOContext σ), Follows S s → s.Kept a b →
    (∀ r ∈ requests, a ≤ r.1 ∧ r.1 + r.2 ≤ b) →
    ∃ s', perform (readAt S) s requests = some (requests.map (fileAt file), s')
  | [], s, _, _, _ => ⟨s, rfl⟩
  | r :: rest, s, h, hk, hr => by
      obtain ⟨ha, hb⟩ := hr r List.mem_cons_self
      obtain ⟨t, hread, ht, hkt⟩ := readAt_eq h hk ha hb
      obtain ⟨u, hrest⟩ := perform_readAt_eq rest t ht hkt fun q hq => hr q (List.mem_cons_of_mem _ hq)
      refine ⟨u, ?_⟩
      rw [perform, hread, Option.bind_some, hrest, Option.map_some, List.map_cons]

end AVIOContext

/-- **The stream as a file**: when `n` bytes have been asked for, they can be read in any order and any number of times,
whatever the demuxer has read before and in whatever pieces the channel delivers. -/
theorem seekback_random_access {file : List UInt8} {ready : Nat → Nat} {calls : List StreamCall}
    {answers : List StreamAnswer} {s : AVIOContext Channel}
    (hcalls : perform (AVIOContext.call (playerSource file ready))
      (avioAllocContext CUSTOMIO_BUFFER_SIZE ⟨0, 0⟩) calls = some (answers, s))
    (n : Int) (hn : n ≤ Avio.INT_MAX - IO_BUFFER_SIZE) (requests : List (Nat × Nat))
    (hr : ∀ r ∈ requests, s.avioTell ≤ r.1 ∧ (r.1 + r.2 : Int) ≤ s.avioTell + n) :
    (s.ensureSeekback n).1 = 0 ∧ ∃ s',
      perform (AVIOContext.readAt (playerSource file ready)) (s.ensureSeekback n).2 requests =
        some (requests.map (fileAt file), s') := by
  have h₀ : AVIOContext.Follows (playerSource file ready) (avioAllocContext CUSTOMIO_BUFFER_SIZE ⟨0, 0⟩) :=
    AVIOContext.follows_alloc rfl (by decide)
  obtain ⟨answers', s', hcalls', -, h⟩ := AVIOContext.perform_eq h₀ calls
  obtain ⟨rfl, rfl⟩ := Prod.mk.inj (Option.some.inj (hcalls.symm.trans hcalls'))
  obtain ⟨t, hensure, ht, hensured⟩ :=
    (AVIOContext.ensureSeekback_eq h n).resolve_right fun hbad => absurd hbad.2 (by omega)
  have hk : t.Kept s.avioTell (s.avioTell + n.toNat) := ⟨t.cursor.start_le.trans_eq hensured.tell, hensured.kept⟩
  rw [hensure]
  refine ⟨rfl, AVIOContext.perform_readAt_eq requests t ht hk fun r hmem => ?_⟩
  obtain ⟨ha, hb⟩ := hr r hmem
  exact ⟨ha, by omega⟩

/-- After one byte, the three that follow are read, and then the last two of them again. -/
theorem seekback_random_access_three : ∃ s : AVIOContext Channel,
    perform (AVIOContext.call (playerSource [7, 8, 9, 10] fun _ => 0)) (avioAllocContext CUSTOMIO_BUFFER_SIZE ⟨0, 0⟩)
      [.r8] = some ([.byte 7], s) ∧
    (s.ensureSeekback 3).1 = 0 ∧ ∃ s',
      perform (AVIOContext.readAt (playerSource [7, 8, 9, 10] fun _ => 0)) (s.ensureSeekback 3).2 [(1, 3), (2, 2)] =
        some ([(1, [8, 9, 10]), (2, [9, 10])], s') := by
  have he : ∃ s, perform (AVIOContext.call (playerSource [7, 8, 9, 10] fun _ => 0))
      (avioAllocContext CUSTOMIO_BUFFER_SIZE ⟨0, 0⟩) [.r8] = some ([.byte 7], s) ∧ s.avioTell = 1 := ⟨_, rfl, rfl⟩
  obtain ⟨s, hs, htell⟩ := he
  refine ⟨s, hs, seekback_random_access hs 3 (by decide) [(1, 3), (2, 2)] ?_⟩
  rw [htell]
  decide

end ArcVideo
