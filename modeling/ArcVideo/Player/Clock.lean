import ArcVideo.Conc.Stopwatch
import ArcVideo.Player.Playback

/-!
# The clock of a playback

* `ClockRun`, `playerClock` : the updates, pauses and resumes of a playback, from a successful play on a new player, at
  clock readings that do not go back, beside a stopwatch that is started, paused and resumed by the same calls;
* `KeepsPosition` : the player's `startTime` and `timeBeforePause` tell the time of the stopwatch, and a frame fetched
  while paused is the first one;
* `Advances` : what an update that does not restart the video does to the player;
* `keeps_position` : the position is kept in every run, and a clock that was started stays so.
-/

namespace ArcVideo
open Conc

variable {φ : Type}

/-! ## The updates, pauses and resumes of a playback -/

structure ClockRun where
  player : Player
  /-- The stopwatch the same calls go to. -/
  watch : Stopwatch
  /-- For each frame fetched, whether the player was paused. -/
  frames : List Bool

inductive ClockAct (φ : Type)
  | update (e : UpdateEnv φ)
  | pause (now : Int)
  | resume (now : Int)

namespace ClockRun

/-- A call at clock readings that do not go back; a restart of the video ends the playback. -/
def step (s : ClockRun) : ClockAct φ → Option ClockRun
  | .update e =>
    if s.watch.last ≤ e.now ∧ e.now ≤ e.later ∧ ¬ (s.player.restarts = true ∧ e.videoData.isNone = true) then
      some ⟨(s.player.update e).player, (s.watch.start e.now).read e.later,
        s.frames ++ (s.player.update e).uploads.map fun _ => s.player.paused⟩
    else none
  | .pause now =>
    if s.watch.last ≤ now then some ⟨(s.player.pause (φ := φ) now).1, s.watch.pause now, s.frames⟩ else none
  | .resume now =>
    if s.watch.last ≤ now then some ⟨(s.player.resume (φ := φ) now).1, s.watch.resume now, s.frames⟩ else none

end ClockRun

/-- **A playback of a new player**, at positive clock readings. -/
def playerClock (φ : Type) : System ClockRun (ClockAct φ) where
  init s := ∃ looping sizeListener completionListener file e now,
    ((Player.new looping sizeListener completionListener).play (φ := φ) file e).result = .ok true ∧ 0 < now ∧
      s = ⟨((Player.new looping sizeListener completionListener).play (φ := φ) file e).player, .reset now, []⟩
  step := ClockRun.step

/-- The player tells the time of the stopwatch, and fetches a frame while paused only if it is the first. -/
structure KeepsPosition (s : ClockRun) : Prop where
  paused : s.player.paused = s.watch.paused
  started : s.player.startTime ≠ 0 ↔ s.watch.started = true
  running : s.player.paused = false → s.player.startTime ≠ 0 → ∀ now, now - s.player.startTime = s.watch.elapsed now
  held : s.player.paused = true → s.player.timeBeforePause = s.watch.atPause
  first : true ∉ s.frames.tail
  once : s.frames.count true ≤ 1

/-! ## What an update does to the clock -/

namespace Player

structure Advances (p : Player) (e : UpdateEnv φ) (q : Player) : Prop where
  paused : q.paused = p.paused
  timeBeforePause : q.timeBeforePause = p.timeBeforePause
  decoder : q.decoder = p.decoder
  startTime : q.startTime = if p.active && !p.paused && p.startTime == 0 then e.now else p.startTime
  playing : q.playing = p.playing ∨ p.active = true ∧ p.isFirstFrame = false
  isFirstFrame : p.isFirstFrame = false → q.isFirstFrame = false

theorem update_advances {p : Player} {e : UpdateEnv φ} (h : ¬ (p.restarts = true ∧ e.videoData.isNone = true)) :
    p.Advances e (p.update e).player := by
  have hu : Updated p e _ _ := p.update_cases e
  generalize (p.update e).player = q at hu ⊢
  generalize (p.update e).result = r at hu
  have hclock : ∀ ha : p.active = true, (if !p.paused && p.startTime == 0 then e.now else p.startTime) =
      if p.active && !p.paused && p.startTime == 0 then e.now else p.startTime := by
    intro ha
    rw [ha, Bool.true_and]
  cases hu with
  | inactive ha => exact ⟨rfl, rfl, rfl, by simp [ha], Or.inl rfl, id⟩
  | shown v t ha =>
      rw [startClock_eq]
      exact ⟨rfl, rfl, rfl, hclock ha, Or.inl rfl, fun _ => rfl⟩
  | starved ha =>
      rw [startClock_eq]
      exact ⟨rfl, rfl, rfl, hclock ha, Or.inl rfl, id⟩
  | restarted ha hs hv hf hl =>
      exact absurd ⟨by simp [restarts, fetches, ha, hs, hf, hl], by rw [hv]; rfl⟩ h
  | ended ha _ _ hf =>
      rw [startClock_eq]
      exact ⟨rfl, rfl, rfl, hclock ha, Or.inr ⟨ha, hf⟩, id⟩
  | again ha =>
      rw [startClock_eq]
      exact ⟨rfl, rfl, rfl, hclock ha, Or.inl rfl, fun _ => rfl⟩

theorem first_of_paused {p : Player} (hf : p.fetches = true) (hp : p.paused = true) : p.isFirstFrame = true := by
  have ha := (active_of_fetches hf).1
  simp only [active, Bool.and_eq_true, Bool.or_eq_true, hp, Bool.not_true, Bool.false_eq_true, false_or] at ha
  exact ha.1.2

/-- An update that uploads a picture fetched it, and the next will not be the first. -/
theorem uploads_one {p : Player} {e : UpdateEnv φ} (hu : (p.update e).uploads ≠ []) :
    p.fetches = true ∧ ∃ v, (p.update e).uploads = [v] ∧ (p.update e).player.isFirstFrame = false := by
  rw [update_uploads] at hu ⊢
  cases hf : p.fetches with
  | false => simp [hf] at hu
  | true =>
      obtain ⟨ha, hs⟩ := active_of_fetches hf
      cases hv : e.videoData with
      | none => simp [hf, hv] at hu
      | some v =>
          obtain ⟨t, ht⟩ := update_shown ha hs hv
          refine ⟨rfl, v, rfl, ?_⟩
          rw [ht]
          rfl

end Player

/-! ## The player and the stopwatch -/

/-- The fields of `p` tell the time of `w`. -/
structure Tells (p : Player) (w : Stopwatch) : Prop where
  paused : p.paused = w.paused
  started : p.startTime ≠ 0 ↔ w.started = true
  running : w.runs = true → p.startTime = w.anchor
  held : w.paused = true → p.timeBeforePause = w.atPause ∧ w.atPause = w.total
  fresh : w.started = false → w.total = 0 ∧ p.decoder.isSome = true ∧ p.playing = true
  positive : 0 < w.anchor

namespace Tells

variable {p : Player} {w : Stopwatch} {now : Int}

theorem read (h : Tells p w) (hle : w.last ≤ now) : Tells p (w.read now) := by
  have hpos := h.positive.trans_le (Stopwatch.anchor_read hle)
  refine ⟨h.paused, h.started, fun hr => ?_, fun hp => ?_, fun hn => ?_, hpos⟩
  · have hruns : w.runs = true := hr
    rw [Stopwatch.anchor_read_of_runs hruns]
    exact h.running hruns
  · have hpaused : w.paused = true := hp
    rw [Stopwatch.total_read (Stopwatch.not_runs_of_paused hpaused)]
    exact h.held hpaused
  · have hnew : w.started = false := hn
    rw [Stopwatch.total_read (Stopwatch.not_runs_of_not_started hnew)]
    exact h.fresh hnew

theorem congr {q : Player} (h : Tells p w) (hp : q.paused = p.paused) (ht : q.startTime = p.startTime)
    (hb : q.timeBeforePause = p.timeBeforePause) (hd : q.decoder = p.decoder)
    (hplay : w.started = false → q.playing = p.playing) : Tells q w := by
  refine ⟨hp.trans h.paused, ?_, ?_, ?_, fun hn => ?_, h.positive⟩
  · rw [ht]
    exact h.started
  · rw [ht]
    exact h.running
  · rw [hb]
    exact h.held
  · rw [hd, hplay hn]
    exact h.fresh hn

/-- The first update that is not paused starts the clock. -/
theorem update (h : Tells p w) {e : UpdateEnv φ} {q : Player} (hq : p.Advances e q) (hle : w.last ≤ e.now) :
    Tells q (w.start e.now) := by
  have hread := h.read hle
  have hstart : w.start e.now = { w.read e.now with started := w.started || !w.paused } := rfl
  cases hs : w.started with
  | true =>
      have hrunning : p.startTime ≠ 0 := h.started.mpr hs
      rw [hstart, hs, Bool.true_or, ← hs]
      refine hread.congr hq.paused ?_ hq.timeBeforePause hq.decoder fun hn => ?_
      · rw [hq.startTime, beq_false_of_ne hrunning, Bool.and_false, if_neg Bool.false_ne_true]
      · exact absurd (hn.symm.trans hs) Bool.false_ne_true
  | false =>
      have hzero : p.startTime = 0 := by
        by_contra hne
        exact absurd (hs.symm.trans (h.started.mp hne)) Bool.false_ne_true
      obtain ⟨htotal, hdecoder, hplaying⟩ := h.fresh hs
      cases hw : w.paused with
      | true =>
          have hpaused : p.paused = true := h.paused.trans hw
          rw [hstart, hs, hw, Bool.not_true, Bool.or_false, ← hs]
          refine hread.congr hq.paused ?_ hq.timeBeforePause hq.decoder fun _ => ?_
          · rw [hq.startTime, hpaused, Bool.not_true, Bool.and_false, Bool.false_and, if_neg Bool.false_ne_true]
          · -- a paused player does not come to the end
            rcases hq.playing with hsame | ⟨hactive, hnot⟩
            · exact hsame
            · simp [Player.active, hpaused, hnot] at hactive
      | false =>
          have hpaused : p.paused = false := h.paused.trans hw
          have hactive : p.active = true := by simp [Player.active, hdecoder, hplaying, hpaused]
          have htime : q.startTime = e.now := by simp [hq.startTime, hactive, hpaused, hzero]
          have hrun : (w.read e.now).total = 0 := (hread.fresh hs).1
          have hanchor : (w.read e.now).anchor = e.now := by
            show e.now - (w.read e.now).total = e.now
            omega
          have hpos := hread.positive
          rw [hanchor] at hpos
          rw [hstart, hs, hw]
          refine ⟨hq.paused.trans h.paused, ?_, fun _ => htime.trans hanchor.symm, fun hp => ?_,
            fun hstopped => absurd hstopped Bool.false_ne_true.symm, hread.positive⟩
          · rw [htime]
            exact iff_of_true hpos.ne' rfl
          · exact absurd (hw.symm.trans hp) Bool.false_ne_true

theorem pause (h : Tells p w) (hle : w.last ≤ now) : Tells (p.pause (φ := φ) now).1 (w.pause now) := by
  have hread := h.read hle
  unfold Player.pause Stopwatch.pause
  cases hw : w.paused with
  | true =>
      rw [if_pos (h.paused.trans hw), if_pos rfl]
      exact hread
  | false =>
      rw [if_neg (by rw [h.paused, hw]; exact Bool.false_ne_true), if_neg Bool.false_ne_true]
      refine ⟨rfl, h.started, fun hr => ?_, fun _ => ?_, hread.fresh, hread.positive⟩
      · exact absurd hr (Bool.eq_false_iff.mp (Stopwatch.not_runs_of_paused rfl))
      · cases hs : w.started with
        | true =>
            have hruns : w.runs = true := by rw [Stopwatch.runs, hs, hw, Bool.not_false, Bool.and_self]
            have hheld : now - p.startTime = w.elapsed now := by
              rw [Stopwatch.elapsed_of_runs hruns, h.running hruns]
            simp only [if_pos (h.started.mpr hs), if_true]
            exact ⟨hheld, rfl⟩
        | false =>
            have hzero : ¬ p.startTime ≠ 0 := fun hne => absurd (hs.symm.trans (h.started.mp hne)) Bool.false_ne_true
            refine ⟨?_, (hread.fresh hs).1.symm⟩
            show (if p.startTime ≠ 0 then now - p.startTime else 0) = 0
            rw [if_neg hzero]

theorem resume (h : Tells p w) (hle : w.last ≤ now) : Tells (p.resume (φ := φ) now).1 (w.resume now) := by
  have hread := h.read hle
  unfold Player.resume Stopwatch.resume
  cases hw : w.paused with
  | true =>
      rw [if_pos (h.paused.trans hw), if_pos rfl]
      obtain ⟨hheld, hpause⟩ := hread.held hw
      have hanchor : now - p.timeBeforePause = (w.read now).anchor := by
        show now - p.timeBeforePause = now - (w.read now).total
        rw [hheld, hpause]
      refine ⟨rfl, ?_, fun _ => hanchor, nofun, nofun, hread.positive⟩
      refine iff_of_true ?_ rfl
      show now - p.timeBeforePause ≠ 0
      rw [hanchor]
      exact hread.positive.ne'
  | false =>
      rw [if_neg (by rw [h.paused, hw]; exact Bool.false_ne_true), if_neg Bool.false_ne_true]
      exact hread

end Tells

/-! ## Every run -/

/-- The fields tell the time, and a frame was fetched while paused only if it was the first. -/
structure ClockInvariant (s : ClockRun) : Prop where
  tells : Tells s.player s.watch
  shown : s.frames ≠ [] → s.player.isFirstFrame = false
  first : true ∉ s.frames.tail

theorem ClockInvariant.started {file : Option Fi} {e : PlayEnv} {looping size completion : Bool}
    (h : ((Player.new looping size completion).play (φ := φ) file e).result = .ok true) {now : Int} (hnow : 0 < now) :
    ClockInvariant ⟨((Player.new looping size completion).play (φ := φ) file e).player, .reset now, []⟩ := by
  obtain ⟨f, stream, decoder, b, t, -, -, -, -, hplayer⟩ := Player.play_started h
  rw [hplayer]
  refine ⟨⟨rfl, ?_, nofun, nofun, fun _ => ⟨rfl, rfl, rfl⟩, ?_⟩, fun hne => absurd rfl hne, List.not_mem_nil⟩
  · exact iff_of_false (fun hne => hne rfl) Bool.false_ne_true
  · show 0 < now - 0
    omega

theorem ClockInvariant.frames {s : ClockRun} (h : ClockInvariant s) {e : UpdateEnv φ}
    (hplay : s.player.Advances e (s.player.update e).player) :
    ((s.frames ++ (s.player.update e).uploads.map fun _ => s.player.paused) ≠ [] →
        (s.player.update e).player.isFirstFrame = false) ∧
      true ∉ (s.frames ++ (s.player.update e).uploads.map fun _ => s.player.paused).tail := by
  by_cases hu : (s.player.update e).uploads = []
  · rw [hu, List.map_nil, List.append_nil]
    exact ⟨fun hne => hplay.isFirstFrame (h.shown hne), h.first⟩
  · obtain ⟨hf, v, hone, hnot⟩ := Player.uploads_one hu
    rw [hone]
    refine ⟨fun _ => hnot, fun hmem => ?_⟩
    by_cases hframes : s.frames = []
    · rw [hframes] at hmem
      exact absurd hmem List.not_mem_nil
    · rw [List.tail_append_of_ne_nil hframes] at hmem
      rcases List.mem_append.mp hmem with hmem | hmem
      · exact h.first hmem
      · have hpaused : s.player.paused = true := (List.mem_singleton.mp hmem).symm
        have hfirst := Player.first_of_paused hf hpaused
        exact absurd (hfirst.symm.trans (h.shown hframes)) Bool.false_ne_true.symm

theorem ClockInvariant.step {s t : ClockRun} {a : ClockAct φ} (h : ClockInvariant s) (hs : s.step a = some t) :
    ClockInvariant t := by
  cases a with
  | update e =>
      obtain ⟨⟨hnow, hlater, hplay⟩, hs⟩ := Option.ite_none_right_eq_some.mp hs
      cases hs
      have hadvances := Player.update_advances hplay
      obtain ⟨hshown, hfirst⟩ := h.frames hadvances
      exact ⟨(h.tells.update hadvances hnow).read hlater, hshown, hfirst⟩
  | pause now =>
      obtain ⟨hnow, hs⟩ := Option.ite_none_right_eq_some.mp hs
      cases hs
      refine ⟨h.tells.pause hnow, ?_, h.first⟩
      show s.frames ≠ [] → (s.player.pause (φ := φ) now).1.isFirstFrame = false
      unfold Player.pause
      split
      · exact h.shown
      · exact h.shown
  | resume now =>
      obtain ⟨hnow, hs⟩ := Option.ite_none_right_eq_some.mp hs
      cases hs
      refine ⟨h.tells.resume hnow, ?_, h.first⟩
      show s.frames ≠ [] → (s.player.resume (φ := φ) now).1.isFirstFrame = false
      unfold Player.resume
      split
      · exact h.shown
      · exact h.shown

theorem ClockRun.started_step {s t : ClockRun} {a : ClockAct φ} (hs : s.step a = some t)
    (h : s.watch.started = true) : t.watch.started = true := by
  cases a with
  | update e =>
      obtain ⟨-, hs⟩ := Option.ite_none_right_eq_some.mp hs
      cases hs
      show (s.watch.started || !s.watch.paused) = true
      rw [h, Bool.true_or]
  | pause now =>
      obtain ⟨-, hs⟩ := Option.ite_none_right_eq_some.mp hs
      cases hs
      show (s.watch.pause now).started = true
      unfold Stopwatch.pause
      split
      · exact h
      · exact h
  | resume now =>
      obtain ⟨-, hs⟩ := Option.ite_none_right_eq_some.mp hs
      cases hs
      show (s.watch.resume now).started = true
      unfold Stopwatch.resume
      split
      · rfl
      · exact h

theorem clockInvariant_of_run {h : List (ClockRun × ClockAct φ)} {s : ClockRun} (hr : (playerClock φ).Run h s) :
    ClockInvariant s := by
  refine System.RunWhen.induction (P := fun _ s => ClockInvariant s) ?_ ?_ hr
  · rintro s ⟨looping, size, completion, file, e, now, hplay, hnow, rfl⟩
    exact .started hplay hnow
  · rintro h s a t - hs - hstep
    exact hs.step hstep

theorem count_le_one {l : List Bool} (h : true ∉ l.tail) : l.count true ≤ 1 := by
  cases l with
  | nil => exact Nat.zero_le _
  | cons b bs =>
      have hzero : bs.count true = 0 := List.count_eq_zero.mpr h
      rw [List.count_cons, hzero]
      split
      · exact le_rfl
      · exact Nat.zero_le _

/-- **Pause and resume keep the position**: in every run the fields tell the time of the stopwatch, a frame is fetched
while paused at most once and only as the first, and a `startTime` that is not 0 never becomes 0 again. -/
theorem keeps_position {h : List (ClockRun × ClockAct φ)} {s : ClockRun} (hr : (playerClock φ).Run h s) :
    KeepsPosition s ∧ ∀ p ∈ h, p.1.player.startTime ≠ 0 → s.player.startTime ≠ 0 := by
  have hs := clockInvariant_of_run hr
  have hpaused := hs.tells.paused
  refine ⟨⟨hpaused, hs.tells.started, fun hp ht now => ?_, fun hp => ?_, hs.first, count_le_one hs.first⟩, ?_⟩
  · have hruns : s.watch.runs = true := by
      rw [Stopwatch.runs, hs.tells.started.mp ht, ← hpaused, hp]
      rfl
    rw [Stopwatch.elapsed_of_runs hruns, hs.tells.running hruns]
  · exact (hs.tells.held (hpaused.symm.trans hp)).1
  · intro p hp hne
    obtain ⟨g, -, -, hg, -⟩ := hr.prefix_of_mem hp
    have hbefore : p.1.watch.started = true := (clockInvariant_of_run hg).tells.started.mp hne
    have hmono := hr.le_of_mem (fun s => s.watch.started = true) (fun _ _ _ => ClockRun.started_step) hp
    exact hs.tells.started.mpr (hmono hbefore)

def clockStart : ClockRun :=
  ⟨((Player.new false false false).play (φ := Nat) (some ⟨"v"⟩)
    ⟨true, true, some 0, some 0, .buffers ⟨false, 32, 32, 8⟩, none⟩).player, .reset 1, []⟩

/-- An update at `now` that is given the picture `v` of the time `timestamp`. -/
def clockUpdate (now : Int) (v : Option Nat) (timestamp : Int) : ClockAct Nat :=
  .update ⟨now, v, 1, now, timestamp, 0, ⟨true, true, none, none, .null, none⟩⟩

/-- The first frame is fetched while paused; the clock runs from 10 to 30 and from 50 on. -/
theorem keeps_position_paused : ∃ h s, (playerClock Nat).Run h s ∧ KeepsPosition s ∧ s.frames = [true, false] ∧
    s.player.startTime = 30 ∧ s.watch.elapsed 55 = 25 := by
  have he : ∃ r, (playerClock Nat).exec clockStart [.pause 5, clockUpdate 8 (some 7) 0, .resume 10,
      clockUpdate 15 (some 8) 20, clockUpdate 20 none 0, .pause 30, .pause 40, .resume 50] = some r ∧
      r.2.frames = [true, false] ∧ r.2.player.startTime = 30 ∧ r.2.watch.elapsed 55 = 25 := ⟨_, rfl, rfl, rfl, rfl⟩
  obtain ⟨⟨h, s⟩, he, hframes, hstart, helapsed⟩ := he
  have hinit : (playerClock Nat).init clockStart := ⟨false, false, false, _, _, 1, rfl, by decide, rfl⟩
  have hr := System.run_of_exec hinit he
  exact ⟨h, s, hr, (keeps_position hr).1, hframes, hstart, helapsed⟩

end ArcVideo
