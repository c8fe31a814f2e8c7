import ArcVideo.Player.Ending

/-!
# Frames shown early

`update` decides from the timestamp of the frame on screen whether the next call fetches another one.

* `FrameUpdate` : the readings of an update and whether the decoder has a new frame for it;
* `Screening` : the player and the number of frames it was given; `Screening.uploads` : the frames the updates put into
  the texture, each with the time elapsed then;
* `NeverEarly` : every frame but the first is uploaded at most 20 ms before its timestamp;
* `afterDue` : the updates after the one at which the first frame is on screen and due. From then on every update
  fetches as long as no frame was early (`uploads_fetching`);
* `never_early_iff` : no frame is early if and only if the new frames are ready no earlier than that.
-/

namespace ArcVideo

/-! ## The updates -/

/-- An update of a playing player before the end of the video: the clock when it may be started and after the frame was
rendered, whether the decoder has a new frame, and what else it is answered. -/
structure FrameUpdate where
  now : Int
  later : Int
  ready : Bool
  texture : Nat
  volume : Nat
  play : PlayEnv

/-- A player, and the number of frames it was given. -/
structure Screening where
  player : Player
  fetched : Nat

namespace Screening

/-- The frame `nextVideoFrame` returns: the next one when it is ready, else the one before, if there is any. -/
def answer (s : Screening) (ready : Bool) : Option Nat :=
  if ready then some s.fetched else if s.fetched = 0 then none else some (s.fetched - 1)

/-- The frame at the read index of the ring when the timestamp is asked for. -/
def current (s : Screening) (ready : Bool) : Nat :=
  if s.player.fetches && ready then s.fetched else s.fetched - 1

/-- What the update is answered when frame `k` has the timestamp `ts k`. A frame stands for its picture. -/
def env (ts : Nat → Int) (s : Screening) (a : FrameUpdate) : UpdateEnv Nat where
  now := a.now
  videoData := s.answer a.ready
  texture := a.texture
  later := a.later
  timestamp := ts (s.current a.ready)
  volume := a.volume
  play := a.play

def update (ts : Nat → Int) (s : Screening) (a : FrameUpdate) : Screening where
  player := (s.player.update (s.env ts a)).player
  fetched := if s.player.fetches && a.ready then s.fetched + 1 else s.fetched

def uploaded (ts : Nat → Int) (s : Screening) (a : FrameUpdate) : List (Nat × Int) :=
  (s.player.update (s.env ts a)).uploads.map fun k => (k, a.later - (s.update ts a).player.startTime)

/-- **The frames put into the texture** by the updates, with the time elapsed. -/
def uploads (ts : Nat → Int) (s : Screening) : List FrameUpdate → List (Nat × Int)
  | [] => []
  | a :: as => s.uploaded ts a ++ uploads ts (s.update ts a) as

end Screening

/-- No frame but the first is uploaded more than 20 ms before its timestamp. -/
def NeverEarly (ts : Nat → Int) (uploads : List (Nat × Int)) : Prop :=
  ∀ u ∈ uploads, 1 ≤ u.1 → ts u.1 - 20 ≤ u.2

def startOf (p : Player) (as : List FrameUpdate) : Int :=
  if p.startTime = 0 then (as.head?.map FrameUpdate.now).getD 0 else p.startTime

/-- The updates after the first one at which the first frame is on screen and due; `shown` is whether it was on screen
before. -/
def afterDue (due : Int) (start : Int) : Bool → List FrameUpdate → List FrameUpdate
  | _, [] => []
  | shown, a :: as =>
    if (shown || a.ready) && decide (due ≤ a.later - start) then as else afterDue due start (shown || a.ready) as

/-- The new frames from frame `k` on are ready at most 20 ms before their timestamps. -/
def ReadyInTime (ts : Nat → Int) (start : Int) (k : Nat) (as : List FrameUpdate) : Prop :=
  ∀ i a, (as.filter FrameUpdate.ready)[i]? = some a → ts (k + i) - 20 ≤ a.later - start

section
variable {ts : Nat → Int} {start : Int} {k : Nat} {a : FrameUpdate} {as : List FrameUpdate}

theorem readyInTime_nil : ReadyInTime ts start k [] := fun _ _ h => by cases h

theorem readyInTime_ready (h : a.ready = true) :
    ReadyInTime ts start k (a :: as) ↔ ts k - 20 ≤ a.later - start ∧ ReadyInTime ts start (k + 1) as := by
  unfold ReadyInTime
  rw [List.filter_cons_of_pos h]
  constructor
  · intro hall
    refine ⟨hall 0 a rfl, fun i b hb => ?_⟩
    rw [Nat.add_assoc, Nat.add_comm 1 i]
    exact hall (i + 1) b hb
  · rintro ⟨hhead, htail⟩ i b hb
    cases i with
    | zero =>
        cases hb
        exact hhead
    | succ i =>
        have := htail i b hb
        rwa [Nat.add_assoc, Nat.add_comm 1 i] at this

theorem readyInTime_stale (h : a.ready = false) : ReadyInTime ts start k (a :: as) ↔ ReadyInTime ts start k as := by
  unfold ReadyInTime
  rw [List.filter_cons_of_neg (by rw [h]; exact Bool.false_ne_true)]

end

/-! ## One update -/

theorem neverEarly_append {ts : Nat → Int} {us vs : List (Nat × Int)} :
    NeverEarly ts (us ++ vs) ↔ NeverEarly ts us ∧ NeverEarly ts vs := by
  unfold NeverEarly
  simp only [List.mem_append, or_imp, forall_and]

namespace Screening

variable {ts : Nat → Int} {s : Screening} {a : FrameUpdate}

/-- The clock of a player that is not paused, started at the reading `now` if it was not. -/
def clock (s : Screening) (now : Int) : Int := if s.player.startTime = 0 then now else s.player.startTime

/-- The player is updated without being paused, and its clock was started at `start`. -/
structure Plays (s : Screening) (start : Int) : Prop where
  active : s.player.active = true
  unpaused : s.player.paused = false
  startTime : s.player.startTime = start

theorem startClock_startTime (hu : s.player.paused = false) (e : UpdateEnv Nat) :
    (s.player.startClock e).1.startTime = s.clock e.now := by
  rw [Player.startClock_eq]
  simp only [hu, Bool.not_false, Bool.true_and, beq_iff_eq]
  rfl

theorem clock_eq {start : Int} (hs : s.Plays start) (hstart : start ≠ 0) (now : Int) : s.clock now = start := by
  rw [clock, if_neg (hs.startTime ▸ hstart), hs.startTime]

theorem fetches_iff (h : s.player.active = true) : s.player.fetches = !s.player.showAlreadyDecodedFrame := by
  rw [Player.fetches, h, Bool.true_and]

theorem current_of_answer {j : Nat} (hf : s.player.fetches = true) (hj : s.answer a.ready = some j) :
    s.current a.ready = j := by
  unfold answer at hj
  unfold current
  cases hr : a.ready with
  | true =>
      rw [hr, if_pos rfl] at hj
      simpa [hf] using hj
  | false =>
      simp only [hr, Bool.false_eq_true, if_false, Option.ite_none_left_eq_some] at hj
      simpa using hj.2

theorem fetched_ready (ts : Nat → Int) (hf : s.player.fetches = true) (hr : a.ready = true) :
    (s.update ts a).fetched = s.fetched + 1 := by
  simp [update, hf, hr]

theorem fetched_stale (ts : Nat → Int) (hr : a.ready = false) : (s.update ts a).fetched = s.fetched := by
  simp [update, hr]

theorem fetched_unfetched (ts : Nat → Int) (hf : s.player.fetches = false) : (s.update ts a).fetched = s.fetched := by
  simp [update, hf]

/-- A frame that was rendered leaves a player that is not paused as active as it was. -/
theorem active_showFrame {p : Player} (hu : p.paused = false) (e : UpdateEnv Nat) (t : Option Texture) :
    (Player.showFrame { (p.startClock e).1 with texture := t } e).1.active = p.active := by
  rw [Player.startClock_eq]
  show (p.decoder.isSome && (!p.paused || false) && p.playing) = (p.decoder.isSome && (!p.paused || _) && p.playing)
  rw [hu]
  rfl

variable (ts) in
theorem update_answered {j : Nat} (hf : s.player.fetches = true) (hu : s.player.paused = false)
    (hj : s.answer a.ready = some j) :
    s.uploaded ts a = [(j, a.later - s.clock a.now)] ∧ (s.update ts a).Plays (s.clock a.now) ∧
      (s.update ts a).player.showAlreadyDecodedFrame = decide (ts j - (a.later - s.clock a.now) > 20) := by
  obtain ⟨ha, hs⟩ := Player.active_of_fetches hf
  have hv : (s.env ts a).videoData = some j := hj
  obtain ⟨t, ht⟩ := Player.update_shown ha hs hv
  have hplayer : (s.update ts a).player = _ := ht
  have htime : (s.update ts a).player.startTime = s.clock a.now := by
    rw [hplayer]
    exact startClock_startTime hu (s.env ts a)
  refine ⟨?_, ⟨?_, ?_, htime⟩, ?_⟩
  · unfold uploaded
    rw [(Player.update_picture hf hv).1, htime]
    rfl
  · rw [hplayer, active_showFrame hu]
    exact ha
  · rw [hplayer, Player.startClock_eq]
    exact hu
  · rw [hplayer]
    show decide (ts (s.current a.ready) - (a.later - (s.player.startClock (s.env ts a)).1.startTime) > 20) = _
    rw [startClock_startTime hu (s.env ts a), current_of_answer hf hj]
    rfl

variable (ts) in
theorem update_null (hf : s.player.fetches = true) (hu : s.player.paused = false)
    (hfirst : s.player.isFirstFrame = true) (hn : s.answer a.ready = none) :
    s.uploaded ts a = [] ∧ (s.update ts a).Plays (s.clock a.now) ∧ (s.update ts a).player.fetches = true ∧
      (s.update ts a).player.isFirstFrame = true := by
  have hv : (s.env ts a).videoData = none := hn
  have hplayer : (s.update ts a).player = (s.player.startClock (s.env ts a)).1 := by
    rcases Player.update_null_cases hf hv with ⟨-, he⟩ | ⟨hr, -⟩ | ⟨hc, -⟩
    · exact he
    · simp [Player.restarts, hfirst] at hr
    · simp [Player.completes, hfirst] at hc
  have hsame : (s.player.startClock (s.env ts a)).1.active = s.player.active ∧
      (s.player.startClock (s.env ts a)).1.fetches = s.player.fetches ∧
      (s.player.startClock (s.env ts a)).1.paused = s.player.paused ∧
      (s.player.startClock (s.env ts a)).1.isFirstFrame = s.player.isFirstFrame := by
    rw [Player.startClock_eq]
    exact ⟨rfl, rfl, rfl, rfl⟩
  obtain ⟨hactive, hfetches, hpaused, hisFirst⟩ := hsame
  refine ⟨?_, ⟨?_, ?_, ?_⟩, ?_, ?_⟩
  · unfold uploaded
    rw [(Player.update_null hf hv).1]
    rfl
  · rw [hplayer, hactive]
    exact (Player.active_of_fetches hf).1
  · rw [hplayer, hpaused]
    exact hu
  · rw [hplayer]
    exact startClock_startTime hu (s.env ts a)
  · rw [hplayer, hfetches]
    exact hf
  · rw [hplayer, hisFirst]
    exact hfirst

variable (ts) in
theorem update_again {start : Int} (hs : s.Plays start) (hstart : start ≠ 0)
    (hagain : s.player.showAlreadyDecodedFrame = true) :
    s.uploaded ts a = [] ∧ (s.update ts a).Plays start ∧ (s.update ts a).fetched = s.fetched ∧
      (s.update ts a).player.showAlreadyDecodedFrame = decide (ts (s.fetched - 1) - (a.later - start) > 20) := by
  have hf : s.player.fetches = false := by rw [fetches_iff hs.active, hagain, Bool.not_true]
  have hclock := clock_eq hs hstart a.now
  have hplayer : (s.update ts a).player = ((s.player.startClock (s.env ts a)).1.showFrame (s.env ts a)).1 := by
    rcases Player.update_unfetched_cases hf (s.env ts a) with ⟨hi, -⟩ | ⟨-, he⟩
    · exact absurd (hi.symm.trans hs.active) Bool.false_ne_true
    · exact he
  have htime : (s.player.startClock (s.env ts a)).1.startTime = start :=
    (startClock_startTime hs.unpaused (s.env ts a)).trans hclock
  have hcurrent : s.current a.ready = s.fetched - 1 := by
    rw [current, hf, Bool.false_and, if_neg Bool.false_ne_true]
  refine ⟨?_, ⟨?_, ?_, ?_⟩, fetched_unfetched ts hf, ?_⟩
  · unfold uploaded
    rw [Player.update_uploads, hf]
    rfl
  · rw [hplayer]
    exact (active_showFrame hs.unpaused _ (s.player.startClock (s.env ts a)).1.texture).trans hs.active
  · rw [hplayer, Player.startClock_eq]
    exact hs.unpaused
  · rw [hplayer]
    exact htime
  · rw [hplayer]
    show decide (ts (s.current a.ready) - (a.later - (s.player.startClock (s.env ts a)).1.startTime) > 20) = _
    rw [htime, hcurrent]

/-! ## The updates once the first frame is due -/

theorem neverEarly_one {k : Nat} {t : Int} : NeverEarly ts [(k, t)] ↔ (1 ≤ k → ts k - 20 ≤ t) := by
  simp [NeverEarly]

/-- **Every update fetches** while the frame on screen is due, so the frames come as they are ready. -/
theorem uploads_fetching {start : Int} (hstart : start ≠ 0) {as : List FrameUpdate} :
    ∀ {s : Screening}, s.Plays start → s.player.showAlreadyDecodedFrame = false → 1 ≤ s.fetched →
      (∀ a ∈ as, ts (s.fetched - 1) - 20 ≤ a.later - start) → (as.Pairwise fun a b => a.later ≤ b.later) →
      (NeverEarly ts (s.uploads ts as) ↔ ReadyInTime ts start s.fetched as) := by
  induction as with
  | nil =>
      intro s _ _ _ _ _
      exact iff_of_true (fun u hu => absurd hu List.not_mem_nil) readyInTime_nil
  | cons a as ih =>
      intro s hs hshown hk hdue hsorted
      obtain ⟨hlater, hsorted⟩ := List.pairwise_cons.mp hsorted
      have hf : s.player.fetches = true := by rw [fetches_iff hs.active, hshown, Bool.not_false]
      have hclock := clock_eq hs hstart a.now
      show NeverEarly ts (s.uploaded ts a ++ uploads ts (s.update ts a) as) ↔ _
      rw [neverEarly_append]
      cases hr : a.ready with
      | true =>
          have hj : s.answer a.ready = some s.fetched := by rw [answer, hr, if_pos rfl]
          obtain ⟨hup, hplays, hnext⟩ := update_answered ts hf hs.unpaused hj
          have hcount := fetched_ready ts hf hr
          rw [hclock] at hup hplays hnext
          rw [hup, neverEarly_one, readyInTime_ready hr]
          have hearly : (1 ≤ s.fetched → ts s.fetched - 20 ≤ a.later - start) ↔ ts s.fetched - 20 ≤ a.later - start :=
            ⟨fun h => h hk, fun h _ => h⟩
          rw [hearly]
          refine and_congr_right fun hdue' => ?_
          have hnot : (s.update ts a).player.showAlreadyDecodedFrame = false := by
            rw [hnext, decide_eq_false_iff_not]
            omega
          have hall : ∀ b ∈ as, ts ((s.update ts a).fetched - 1) - 20 ≤ b.later - start := by
            intro b hb
            have := hlater b hb
            rw [hcount, Nat.add_sub_cancel]
            omega
          rw [ih hplays hnot (by omega) hall hsorted, hcount]
      | false =>
          have hj : s.answer a.ready = some (s.fetched - 1) := by
            rw [answer, hr, if_neg Bool.false_ne_true, if_neg (by omega)]
          obtain ⟨hup, hplays, hnext⟩ := update_answered ts hf hs.unpaused hj
          have hcount := fetched_stale (s := s) ts hr
          rw [hclock] at hup hplays hnext
          have hhere := hdue a List.mem_cons_self
          have hnot : (s.update ts a).player.showAlreadyDecodedFrame = false := by
            rw [hnext, decide_eq_false_iff_not]
            omega
          have hall : ∀ b ∈ as, ts ((s.update ts a).fetched - 1) - 20 ≤ b.later - start := by
            rw [hcount]
            exact fun b hb => hdue b (List.mem_cons_of_mem _ hb)
          rw [hup, neverEarly_one, readyInTime_stale hr, ih hplays hnot (hcount ▸ hk) hall hsorted, hcount]
          exact and_iff_right fun _ => hhere

/-! ## The updates until then -/

/-- The first frame is on screen, and ahead of the clock. -/
structure Waits (s : Screening) (start : Int) : Prop where
  plays : s.Plays start
  fetched : s.fetched = 1
  again : s.player.showAlreadyDecodedFrame = true

/-- What is left to show when the first frame waits. -/
def WaitingCorrect (ts : Nat → Int) (start : Int) (as : List FrameUpdate) : Prop :=
  ∀ s : Screening, s.Waits start → (as.Pairwise fun a b => a.later ≤ b.later) →
    (NeverEarly ts (s.uploads ts as) ↔ ReadyInTime ts start 1 (afterDue (ts 0 - 20) start true as))

theorem uploads_shown {start : Int} (hstart : start ≠ 0) {a : FrameUpdate} {as : List FrameUpdate} {s : Screening}
    (hwait : WaitingCorrect ts start as) (hs : s.Plays start) (hk : s.fetched = 1)
    (hnext : s.player.showAlreadyDecodedFrame = decide (ts 0 - (a.later - start) > 20))
    (hlater : ∀ b ∈ as, a.later ≤ b.later) (hsorted : as.Pairwise fun a b => a.later ≤ b.later) :
    NeverEarly ts (s.uploads ts as) ↔
      ReadyInTime ts start 1 (if ts 0 - 20 ≤ a.later - start then as else afterDue (ts 0 - 20) start true as) := by
  by_cases hdue : ts 0 - 20 ≤ a.later - start
  · rw [if_pos hdue]
    have hnot : s.player.showAlreadyDecodedFrame = false := by
      rw [hnext, decide_eq_false_iff_not]
      omega
    have hall : ∀ b ∈ as, ts (s.fetched - 1) - 20 ≤ b.later - start := by
      intro b hb
      have := hlater b hb
      rw [hk]
      show ts 0 - 20 ≤ b.later - start
      omega
    rw [uploads_fetching hstart hs hnot hk.ge hall hsorted, hk]
  · rw [if_neg hdue]
    refine hwait s ⟨hs, hk, ?_⟩ hsorted
    rw [hnext, decide_eq_true_iff]
    omega

theorem uploads_waiting {start : Int} (hstart : start ≠ 0) (as : List FrameUpdate) : WaitingCorrect ts start as := by
  induction as with
  | nil => exact fun s _ _ => iff_of_true (fun u hu => absurd hu List.not_mem_nil) readyInTime_nil
  | cons a as ih =>
      intro s hs hsorted
      obtain ⟨hlater, hsorted⟩ := List.pairwise_cons.mp hsorted
      obtain ⟨hup, hplays, hcount, hnext⟩ := update_again ts (a := a) hs.plays hstart hs.again
      rw [hs.fetched] at hcount hnext
      show NeverEarly ts (s.uploaded ts a ++ uploads ts (s.update ts a) as) ↔ _
      rw [hup, List.nil_append, uploads_shown hstart ih hplays hcount hnext hlater hsorted]
      simp only [afterDue, Bool.true_or, Bool.true_and, decide_eq_true_eq]

/-- The player was given no frame yet. -/
structure Begins (s : Screening) : Prop where
  fetches : s.player.fetches = true
  unpaused : s.player.paused = false
  isFirstFrame : s.player.isFirstFrame = true
  fetched : s.fetched = 0

theorem uploads_beginning {as : List FrameUpdate} :
    ∀ {s : Screening}, s.Begins → (∀ a ∈ as, a.now ≠ 0) → (as.Pairwise fun a b => a.later ≤ b.later) →
      (NeverEarly ts (s.uploads ts as) ↔
        ReadyInTime ts (startOf s.player as) 1 (afterDue (ts 0 - 20) (startOf s.player as) false as)) := by
  induction as with
  | nil =>
      intro s _ _ _
      exact iff_of_true (fun u hu => absurd hu List.not_mem_nil) readyInTime_nil
  | cons a as ih =>
      intro s hs hnow hsorted
      obtain ⟨hlater, hsorted⟩ := List.pairwise_cons.mp hsorted
      have hstart : startOf s.player (a :: as) = s.clock a.now := rfl
      have hne : s.clock a.now ≠ 0 := by
        unfold clock
        split
        · exact hnow a List.mem_cons_self
        next hrun => exact hrun
      rw [hstart]
      show NeverEarly ts (s.uploaded ts a ++ uploads ts (s.update ts a) as) ↔ _
      cases hr : a.ready with
      | true =>
          have hj : s.answer a.ready = some 0 := by rw [answer, hr, if_pos rfl, hs.fetched]
          obtain ⟨hup, hplays, hnext⟩ := update_answered ts hs.fetches hs.unpaused hj
          have hcount : (s.update ts a).fetched = 1 := by rw [fetched_ready ts hs.fetches hr, hs.fetched]
          have hfirst : NeverEarly ts [(0, a.later - s.clock a.now)] := neverEarly_one.mpr nofun
          rw [neverEarly_append, hup, and_iff_right hfirst,
            uploads_shown hne (uploads_waiting hne as) hplays hcount hnext hlater hsorted]
          simp only [afterDue, hr, Bool.or_true, Bool.true_and, decide_eq_true_eq]
      | false =>
          have hn : s.answer a.ready = none := by
            rw [answer, hr, if_neg Bool.false_ne_true, if_pos hs.fetched]
          obtain ⟨hup, hplays, hfetches, hfirst⟩ :=
            update_null ts hs.fetches hs.unpaused hs.isFirstFrame hn
          have hcount : (s.update ts a).fetched = 0 := by rw [fetched_stale ts hr, hs.fetched]
          have hsame : startOf (s.update ts a).player as = s.clock a.now := by
            rw [startOf, hplays.startTime, if_neg hne]
          have hnow' : ∀ b ∈ as, b.now ≠ 0 := fun b hb => hnow b (List.mem_cons_of_mem _ hb)
          have hrest := ih ⟨hfetches, hplays.unpaused, hfirst, hcount⟩ hnow' hsorted
          rw [hup, List.nil_append, hrest, hsame]
          simp only [afterDue, hr, Bool.or_false, Bool.false_and, Bool.false_eq_true, if_false]

end Screening

/-- A successful play on a player that is not paused begins so, whatever state its objects are in. -/
theorem begins_of_play {p : Player} {w : Objects} (hw : Sound p w) {file : Option Fi} {e : PlayEnv}
    (h : (p.play (φ := Nat) file e).result = .ok true) (hu : p.paused = false) :
    (Screening.mk (p.play (φ := Nat) file e).player 0).Begins := by
  obtain ⟨f, stream, decoder, b, t, -, -, -, -, hplayer⟩ := Player.play_started h
  have hclean : (p.clean (φ := Nat)).1.showAlreadyDecodedFrame = false ∧ (p.clean (φ := Nat)).1.paused = false := by
    unfold Player.clean
    cases hd : p.decoder with
    | some d => exact ⟨rfl, hu⟩
    | none => exact ⟨(Player.sound_idle hw hd).2, hu⟩
  rw [hplayer]
  refine ⟨?_, hclean.2, rfl, rfl⟩
  simp [Player.fetches, Player.active, Player.opened, hclean.1]

/-- **No frame is shown early if and only if the new frames are not ready early**: counted from the first update at
which the first frame is on screen and due, the k-th update with a new frame ready comes at most 20 ms before that
frame's timestamp. -/
theorem never_early_iff {p : Player} (hf : p.fetches = true) (hu : p.paused = false) (hfirst : p.isFirstFrame = true)
    (ts : Nat → Int) {as : List FrameUpdate} (hnow : ∀ a ∈ as, a.now ≠ 0)
    (hsorted : as.Pairwise fun a b => a.later ≤ b.later) :
    NeverEarly ts ((Screening.mk p 0).uploads ts as) ↔
      ReadyInTime ts (startOf p as) 1 (afterDue (ts 0 - 20) (startOf p as) false as) :=
  Screening.uploads_beginning ⟨hf, hu, hfirst, rfl⟩ hnow hsorted

def updateAt (now : Int) (ready : Bool) : FrameUpdate := ⟨now, now, ready, 1, 0, ⟨true, true, none, none, .null, none⟩⟩

def screeningPlayer : Player :=
  ((Player.new false false false).play (φ := Nat) (some ⟨"v"⟩)
    ⟨true, true, some 0, some 0, .buffers ⟨false, 32, 32, 8⟩, none⟩).player

/-- A frame every second, the second one fetched 990 ms after the first. -/
theorem never_early_in_time : NeverEarly (fun k => 1000 * k)
    ((Screening.mk screeningPlayer 0).uploads (fun k => 1000 * k)
      [updateAt 100 true, updateAt 110 false, updateAt 1090 true]) := by
  have hbegins : (Screening.mk screeningPlayer 0).Begins :=
    begins_of_play (Player.sound_start false false false) rfl rfl
  refine (never_early_iff hbegins.fetches hbegins.unpaused hbegins.isFirstFrame _ (by decide) (by decide)).mpr ?_
  intro i a ha
  change [updateAt 1090 true][i]? = some a at ha
  cases i with
  | zero =>
      cases ha
      decide
  | succ i => cases ha

/-- The frames are 1000 ms apart, the updates 10 ms, and the second update shows the second frame. -/
theorem frame_shown_early : screeningPlayer.fetches = true ∧ screeningPlayer.paused = false ∧
    (∀ j k : Nat, j ≤ k → 1000 * (j : Int) ≤ 1000 * k) ∧
    (Screening.mk screeningPlayer 0).uploads (fun k => 1000 * k) [updateAt 100 true, updateAt 110 true] =
      [(0, 0), (1, 10)] ∧
    ¬ NeverEarly (fun k => 1000 * k)
      ((Screening.mk screeningPlayer 0).uploads (fun k => 1000 * k) [updateAt 100 true, updateAt 110 true]) := by
  have huploads : (Screening.mk screeningPlayer 0).uploads (fun k => 1000 * k) [updateAt 100 true, updateAt 110 true] =
      [(0, 0), (1, 10)] := by decide
  refine ⟨rfl, rfl, fun j k hjk => by omega, huploads, fun hearly => ?_⟩
  · rw [huploads] at hearly
    exact absurd (hearly (1, 10) (by decide) (by decide)) (by decide)

end ArcVideo
