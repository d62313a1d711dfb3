import DemoCannon.Signals
import Mathlib.Algebra.Order.Field.Rat
import Mathlib.Algebra.Order.Group.Unbundled.Abs
import Mathlib.Data.List.Chain
import Mathlib.Tactic.Linarith

/-! # Aim, stability and time-out over whole runs

    What `Pan` and `Tilt`, `StableCount` and the timer of `TryToMatch` mean, in every
    run of the server.  A target skipped at a limit moves the recorded aim without its
    servo (`aim_recorded_iff`).  A frame without the target leaves the count of steady
    frames and the last aim as they are, so the count means what its name says only
    where a target that was lost does not come back to where it was
    (`stable_target_engaged`).  The timer outlives
    the target it was started for (`not_found_after_own_time`). -/

namespace DemoCannon

open Interaction Interaction.Program SystemState

/-! ## The recorded aim -/

/-- Where a frame has a match of the target, aiming at it stays inside the limits or
    does not move, first the pan and then the tilt. -/
def AimsInside (s : Server) (a : Act) : Prop :=
  ∀ f d, a = .frame f → s.Searches → s.searching.firstMatch f = some d →
    (s.PanInside f d ∨ s.aimedPan f d = s.pan)
      ∧ (s.PanInside f d → s.TiltInside f d ∨ s.aimedTilt f d = s.tilt)

section Aim

variable {P : Platform} {c : Config} {h : List (Server × Act)} {s t : Server} {a : Act}

/-- What an update of the aim leaves is the real aim exactly if it stays inside. -/
theorem Matched.aimed_iff {f : Frame} {r : TEngagementState} {m : Server}
    (hs : s.Aimed) (hsearches : s.Searches) (hm : Matched s.searching f r m) :
    m.Aimed ↔ AimsInside s (.frame f) := by
  obtain ⟨hpans, htilts, hpan, htilt⟩ := hs
  -- a frame with a match is inside exactly if that match is
  have hinside : ∀ {d}, s.searching.firstMatch f = some d →
      (AimsInside s (.frame f) ↔ (s.PanInside f d ∨ s.aimedPan f d = s.pan)
        ∧ (s.PanInside f d → s.TiltInside f d ∨ s.aimedTilt f d = s.tilt)) := by
    intro d hfirst
    constructor
    · intro hin
      exact hin f d rfl hsearches hfirst
    · rintro hin f' d' ⟨⟩ - hfirst'
      obtain rfl := Option.some.inj (hfirst.symm.trans hfirst')
      exact hin
  have hnone : s.searching.firstMatch f = none → AimsInside s (.frame f) := by
    rintro hfirst f' d' ⟨⟩ - hfirst'
    cases hfirst.symm.trans hfirst'
  cases hm with
  | panLimit hfirst hout =>
      rename_i d
      rw [hinside hfirst]
      constructor
      · rintro ⟨-, -, hmoved, -⟩
        exact ⟨Or.inr (hmoved.trans hpan.symm), fun h => absurd h hout⟩
      · rintro ⟨hin | hsame, -⟩
        · exact absurd hin hout
        · have hsame' : s.searching.aimedPan f d = s.pan := hsame
          refine ⟨?_, htilts, ?_, htilt⟩
          · change minPan ≤ s.searching.aimedPan f d ∧ s.searching.aimedPan f d ≤ maxPan
            rw [hsame']
            exact hpans
          · exact hsame'.trans hpan
  | tiltLimit hfirst hin hout =>
      rename_i d
      rw [hinside hfirst]
      constructor
      · rintro ⟨-, -, -, hmoved⟩
        exact ⟨Or.inl hin, fun _ => Or.inr (hmoved.trans htilt.symm)⟩
      · rintro ⟨-, hstays⟩
        rcases hstays hin with hin' | hsame
        · exact absurd hin' hout
        · have hsame' : s.searching.aimedTilt f d = s.tilt := hsame
          refine ⟨⟨Rat.le_of_lt hin.1, Rat.le_of_lt hin.2⟩, ?_, rfl, ?_⟩
          · change minTilt ≤ s.searching.aimedTilt f d ∧ s.searching.aimedTilt f d ≤ maxTilt
            rw [hsame']
            exact htilts
          · exact hsame'.trans htilt
  | aimed hfirst hin hin' =>
      rw [hinside hfirst]
      refine iff_of_true ?_ ⟨Or.inl hin, fun _ => Or.inl hin'⟩
      exact ⟨⟨Rat.le_of_lt hin.1, Rat.le_of_lt hin.2⟩,
        ⟨Rat.le_of_lt hin'.1, Rat.le_of_lt hin'.2⟩, rfl, rfl⟩
  | starts hfirst | goesOn hfirst | givesUp hfirst =>
      exact iff_of_true ⟨hpans, htilts, hpan, htilt⟩ (hnone hfirst)

theorem step_aimed_iff (hs : s.Aimed) (hst : Step P s a t) : t.Aimed ↔ AimsInside s a := by
  cases step_tracked hst with
  | handled ha h =>
      refine iff_of_true (h.aimed hs) ?_
      rintro f d rfl
      exact absurd rfl (ha f)
  | frame h =>
      have hidle : ∀ {f}, ¬ s.Searches → AimsInside s (.frame f) :=
        fun hno f d _ hyes => absurd hyes hno
      cases h with
      | searches hsearches hm ht =>
          refine Iff.trans ?_ (hm.aimed_iff hs hsearches)
          rw [Server.Aimed, ht]
          exact Iff.rfl
      | next hstate _ ht =>
          refine iff_of_true ?_ (hidle ?_)
          · rw [Server.Aimed, ht]
            exact hs
          · rw [Server.Searches, hstate]
            decide
      | idle hno _ ht =>
          refine iff_of_true ?_ (hidle hno)
          rw [Server.Aimed, ht]
          exact hs

/-- **The recorded aim is the real aim** in exactly the runs in which every match of
    the target is aimed at inside the limits, or without moving. -/
theorem aim_recorded_iff (hr : ServerRun P c h s) :
    EveryState Server.Aimed h s ↔ EveryStep (fun _ s a _ => AimsInside s a) h s := by
  have hstart : (start c).Aimed := by
    refine ⟨?_, ?_, rfl, rfl⟩
    · exact ⟨show (-15 : Rat) ≤ 0 by decide, show (0 : Rat) ≤ 15 by decide⟩
    · exact ⟨show (-15 : Rat) ≤ 0 by decide, show (0 : Rat) ≤ 15 by decide⟩
  exact Run.everyState_iff Server.Aimed hstart hstart (fun _ _ _ _ _ ht => ht)
    (fun _ _ _ hs hst => step_aimed_iff hs hst) hr

/-- A frame at a time, with matches of symbols at given places. -/
def Session.frameAt (now : Nat) (ds : List TDetectedMatches) : Frame :=
  { detectedMatches := ds, width := 1920, height := 1080, now := now }

/-- From the login to the request to engage. -/
def Session.activate : List Act :=
  [.message login, .message prearm, .message order, .message (request .engageAuto)]

theorem aim_recorded_iff_engage :
    ∃ h s, ServerRun Session.platform Session.config h s ∧ s.engagement = .laserTrue
      ∧ (EveryState Server.Aimed h s ↔ EveryStep (fun _ s a _ => AimsInside s a) h s) := by
  obtain ⟨h, s, hr, hs⟩ := Session.reaches Session.engage
    (fun s => s.engagement = .laserTrue) (by decide +kernel)
  exact ⟨h, s, hr, of_decide_eq_true hs, aim_recorded_iff hr⟩

/-- A target too far to the right is skipped; the pan is moved to where it is, and
    the servo is not. -/
theorem skipped_target_moves_pan :
    ∃ h s, ServerRun Session.platform Session.config h s
      ∧ ¬ EveryState Server.Aimed h s := by
  obtain ⟨h, s, hr, hs⟩ := Session.reaches
    (Session.activate ++ [.frame (Session.frameAt 0 [⟨3, 3000, 630⟩])])
    (fun s => s.pan ≠ s.panServo) (by decide +kernel)
  refine ⟨h, s, hr, fun hall => ?_⟩
  exact absurd hall.last.2.2.1 (of_decide_eq_true hs)

end Aim

/-! ## Stability -/

/-- The frames processed so far, each with the state it left, the last first. -/
def processed : List (Server × Act) → Server → List (Frame × Server)
  | [], _ => []
  | (p, .frame f) :: h, s => (f, s) :: processed h p
  | (p, .message _) :: h, _ | (p, .statement) :: h, _ | (p, .spuriousWakeup) :: h, _ =>
      processed h p

/-- The frame has a match of the target. -/
def Frame.Shows (f : Frame) (target : Nat) : Prop :=
  ∃ d ∈ f.detectedMatches, d.symbol = (target : Int)

instance (f : Frame) (target : Nat) : Decidable (f.Shows target) :=
  inferInstanceAs (Decidable (∃ d ∈ _, _))

/-- From the frame `p` to the frame `q`, pan and tilt changed by less than half a
    degree. -/
def Close (q p : Frame × Server) : Prop :=
  |q.2.pan - p.2.pan| < 1 / 2 ∧ |q.2.tilt - p.2.tilt| < 1 / 2

instance : DecidableRel Close := fun _ _ => inferInstanceAs (Decidable (_ ∧ _))

/-- The last `n + 1` frames show the target, and from each to the next the aim has
    hardly changed. -/
def SteadyFor (target n : Nat) (frames : List (Frame × Server)) : Prop :=
  n < frames.length ∧ (∀ q ∈ frames.take (n + 1), q.1.Shows target)
    ∧ (frames.take (n + 1)).IsChain Close

instance (target n : Nat) (frames : List (Frame × Server)) :
    Decidable (SteadyFor target n frames) := inferInstanceAs (Decidable (_ ∧ _ ∧ _))

/-- A step that signals an engagement comes after three frames in which the aim at
    the target hardly changed. -/
def EngagesStable (h : List (Server × Act)) (s : Server) (a : Act) (t : Server) : Prop :=
  Signals s a t → SteadyFor t.autoEngage.target 3 (processed ((s, a) :: h) t)

instance (h : List (Server × Act)) (s : Server) (a : Act) (t : Server) :
    Decidable (EngagesStable h s a t) := inferInstanceAs (Decidable (_ → _))

/-- A target that was lost is not found again where it was: the frame does not aim at
    it, inside the limits, by less than half a degree from the last aim. -/
def FindsElsewhere (s : Server) : Act → Prop
  | .frame f => s.autoEngage.state = .lookingForTarget →
      ∀ d ∈ s.firstMatch f, s.PanInside f d → s.TiltInside f d → s.Steady f d = false
  | _ => True

instance (s : Server) (a : Act) : Decidable (FindsElsewhere s a) :=
  match a with
  | .frame _ => inferInstanceAs (Decidable (_ → _))
  | .message _ | .statement | .spuriousWakeup => isTrue trivial

section Stability

variable {P : Platform} {c : Config} {h : List (Server × Act)} {s t : Server} {a : Act}
  {f : Frame}

theorem processed_of_not_frame (ha : ∀ f, a ≠ .frame f) :
    processed ((s, a) :: h) t = processed h s := by
  cases a with
  | frame f => exact absurd rfl (ha f)
  | message m => rfl
  | statement => rfl
  | spuriousWakeup => rfl

theorem firstMatch_none_iff : s.firstMatch f = none ↔ ¬ f.Shows s.autoEngage.target := by
  rw [Server.firstMatch, List.find?_eq_none, Frame.Shows]
  simp only [decide_eq_true_eq, not_exists, not_and]

theorem shows_of_firstMatch {d : TDetectedMatches} (h : s.firstMatch f = some d) :
    f.Shows s.autoEngage.target := by
  have hsymbol := List.find?_some
    (p := fun d : TDetectedMatches => decide (d.symbol = (s.autoEngage.target : Int))) h
  exact ⟨d, List.mem_of_find?_eq_some h, of_decide_eq_true hsymbol⟩

/-! ### Streaks of steady frames -/

theorem SteadyFor.start {target : Nat} {q : Frame × Server}
    {frames : List (Frame × Server)} (hq : q.1.Shows target) :
    SteadyFor target 0 (q :: frames) := by
  refine ⟨Nat.succ_pos _, ?_, List.isChain_singleton q⟩
  intro p hp
  rw [List.mem_singleton.mp hp]
  exact hq

theorem SteadyFor.extend {target n : Nat} {q p : Frame × Server}
    {frames : List (Frame × Server)} (h : SteadyFor target n (p :: frames))
    (hq : q.1.Shows target) (hclose : Close q p) :
    SteadyFor target (n + 1) (q :: p :: frames) := by
  obtain ⟨hlength, hshows, hchain⟩ := h
  refine ⟨Nat.succ_lt_succ hlength, ?_, ?_⟩
  · rw [List.take_succ_cons]
    exact List.forall_mem_cons.mpr ⟨hq, hshows⟩
  · rw [List.take_succ_cons, List.take_succ_cons] at *
    exact List.isChain_cons_cons.mpr ⟨hclose, hchain⟩

/-- A longer streak is a streak. -/
theorem SteadyFor.shorter {target m n : Nat} {frames : List (Frame × Server)}
    (h : SteadyFor target n frames) (hmn : m ≤ n) : SteadyFor target m frames := by
  obtain ⟨hlength, hshows, hchain⟩ := h
  have htake : frames.take (m + 1) = (frames.take (n + 1)).take (m + 1) := by
    rw [List.take_take, Nat.min_eq_left (Nat.succ_le_succ hmn)]
  refine ⟨Nat.lt_of_le_of_lt hmn hlength, ?_, ?_⟩
  · intro q hq
    rw [htake] at hq
    exact hshows q (List.mem_of_mem_take hq)
  · rw [htake]
    exact hchain.take _

/-! ### What the count means -/

theorem fabs_eq_abs (x : Rat) : fabs x = |x| := by
  rw [fabs]
  by_cases hx : x < 0
  · rw [if_pos hx, abs_of_neg hx]
  · rw [if_neg hx, abs_of_nonneg (not_lt.mp hx)]

theorem compareFloat_iff (x y : Rat) : compareFloat x y = true ↔ |y - x| < 1 / 2 := by
  rw [compareFloat, decide_eq_true_eq, fabs_eq_abs, abs_sub_comm]

/-- The first aim at a target is far from what is recorded when it is selected. -/
theorem not_steady_of_selected {d : TDetectedMatches}
    (hs : s.autoEngage.lastPan = -9999999 / 100) (hpan : s.PanInside f d) :
    s.Steady f d = false := by
  refine (Bool.not_eq_true _).mp fun hsteady => ?_
  have hclose := (compareFloat_iff _ _).mp (Bool.and_eq_true_iff.mp hsteady).1
  have hmin : (-15 : Rat) < s.aimedPan f d := hpan.1
  rw [hs] at hclose
  have := (abs_lt.mp hclose).2
  linarith

/-- While a target is tracked, the count says for how long the aim has been steady. -/
def CountsSteady (h : List (Server × Act)) (s : Server) : Prop :=
  s.autoEngage.state = .tracking → ∃ q frames, processed h s = q :: frames
    ∧ q.2.pan = s.autoEngage.lastPan ∧ q.2.tilt = s.autoEngage.lastTilt
    ∧ SteadyFor s.autoEngage.target s.autoEngage.stableCount (q :: frames)

/-- Only the aim at a target that is tracked is steady. -/
theorem tracking_of_steady {d : TDetectedMatches} (hsearches : s.Searches)
    (hfinds : FindsElsewhere s (.frame f)) (hfirst : s.searching.firstMatch f = some d)
    (hpan : s.searching.PanInside f d) (htilt : s.searching.TiltInside f d)
    (hsteady : s.searching.Steady f d = true) :
    s.autoEngage.state = .tracking ∧ s.searching = s := by
  have hno : s.searching.Steady f d ≠ false := by
    rw [hsteady]
    decide
  rcases hsearches with hstate | hstate | hstate | hstate
  · refine absurd (not_steady_of_selected ?_ hpan) hno
    rw [Server.searching, TAutoEngage.searching, hstate]
    rfl
  · refine absurd (not_steady_of_selected ?_ hpan) hno
    rw [Server.searching, TAutoEngage.searching, hstate]
    rfl
  · have hsame : s.searching = s := by
      rw [Server.searching, TAutoEngage.searching, hstate]
    rw [hsame] at hfirst hpan htilt hno
    exact absurd (hfinds hstate d hfirst hpan htilt) hno
  · refine ⟨hstate, ?_⟩
    rw [Server.searching, TAutoEngage.searching, hstate]

/-- An update of the aim goes on with the streak, or starts a new one. -/
theorem CountsSteady.aimed (hs : CountsSteady h s) (hsearches : s.Searches)
    (hfinds : FindsElsewhere s (.frame f)) {d : TDetectedMatches}
    (hfirst : s.searching.firstMatch f = some d) (hpan : s.searching.PanInside f d)
    (htilt : s.searching.TiltInside f d) (htpan : t.pan = s.searching.aimedPan f d)
    (httilt : t.tilt = s.searching.aimedTilt f d) :
    SteadyFor s.searching.autoEngage.target (s.searching.stableCountAfter f d)
      ((f, t) :: processed h s) := by
  have hshows : f.Shows s.searching.autoEngage.target := shows_of_firstMatch hfirst
  rw [Server.stableCountAfter]
  by_cases hsteady : s.searching.Steady f d = true
  · obtain ⟨hstate, hsame⟩ := tracking_of_steady hsearches hfinds hfirst hpan htilt hsteady
    obtain ⟨q, frames, hq, hqpan, hqtilt, hstreak⟩ := hs hstate
    rw [if_pos hsteady]
    rw [hsame] at hshows hsteady htpan httilt ⊢
    obtain ⟨hclosePan, hcloseTilt⟩ := Bool.and_eq_true_iff.mp hsteady
    have hclose : Close (f, t) q := by
      refine ⟨?_, ?_⟩
      · rw [htpan, hqpan]
        exact (compareFloat_iff _ _).mp hclosePan
      · rw [httilt, hqtilt]
        exact (compareFloat_iff _ _).mp hcloseTilt
    rw [hq]
    exact hstreak.extend hshows hclose
  · rw [if_neg hsteady]
    exact .start hshows

/-- A step out of which nothing is tracked and nothing engaged. -/
theorem CountsSteady.of_rest (htracking : t.autoEngage.state ≠ .tracking)
    (hsignals : ¬ Signals s a t) :
    CountsSteady ((s, a) :: h) t ∧ EngagesStable h s a t :=
  ⟨fun h => absurd h htracking, fun h => absurd h hsignals⟩

/-- A call of `TryToMatch` in a frame with the condition. -/
theorem CountsSteady.matched (hs : CountsSteady h s) (hsearches : s.Searches)
    (hfinds : FindsElsewhere s (.frame f)) {r : TEngagementState} {m : Server}
    (hm : Matched s.searching f r m) (ht : t.tracker = m.tracker.settle r) :
    CountsSteady ((s, .frame f) :: h) t ∧ EngagesStable h s (.frame f) t := by
  have hauto := autoEngage_of_settle ht
  -- a result without an aim is neither tracking nor a signal
  have hrest : r = .engagementComplete ∨ r = .lookingForTarget →
      CountsSteady ((s, .frame f) :: h) t ∧ EngagesStable h s (.frame f) t := by
    intro hr
    have hstate : t.autoEngage.state = r :=
      state_of_settle ht (by rcases hr with rfl | rfl <;> decide)
    refine CountsSteady.of_rest (fun h => ?_) fun h => ?_
    · rcases hr with rfl | rfl <;> cases hstate.symm.trans h
    · rcases hr with rfl | rfl <;> cases hstate.symm.trans h.2
  cases hm with
  | panLimit | tiltLimit | givesUp => exact hrest (Or.inl rfl)
  | starts | goesOn => exact hrest (Or.inr rfl)
  | aimed hfirst hin hin' =>
      rename_i d
      have hpan : t.pan = s.searching.aimedPan f d := congrArg Tracker.pan ht
      have htilt : t.tilt = s.searching.aimedTilt f d := congrArg Tracker.tilt ht
      have hstreak := hs.aimed hsearches hfinds hfirst hin hin' hpan htilt
      have htarget : t.autoEngage.target = s.searching.autoEngage.target := by
        rw [hauto]
        rfl
      by_cases hstable : 2 < s.searching.stableCountAfter f d
      · have hstate : t.autoEngage.state = .engagementInProgress := by
          rw [hauto, if_pos hstable]
          rfl
        refine ⟨fun h => TEngagementState.noConfusion (hstate.symm.trans h), fun _ => ?_⟩
        rw [htarget]
        exact hstreak.shorter hstable
      · have hstate : t.autoEngage.state = .tracking := by
          rw [hauto, if_neg hstable]
          rfl
        have hcount : t.autoEngage.stableCount = s.searching.stableCountAfter f d := by
          rw [hauto]
          rfl
        refine ⟨fun _ => ?_, fun h => TEngagementState.noConfusion (hstate.symm.trans h.2)⟩
        refine ⟨(f, t), processed h s, rfl, ?_, ?_, ?_⟩
        · rw [hauto]
          exact hpan
        · rw [hauto]
          exact htilt
        · rw [htarget, hcount]
          exact hstreak

theorem CountsSteady.step (hs : CountsSteady h s) (hst : Step P s a t)
    (hfinds : FindsElsewhere s a) : CountsSteady ((s, a) :: h) t ∧ EngagesStable h s a t := by
  cases step_tracked hst with
  | handled ha hhandled =>
      have hsilent : ¬ Signals s a t := by
        cases a with
        | frame f => exact absurd rfl (ha f)
        | message m => exact id
        | statement => exact id
        | spuriousWakeup => exact id
      refine ⟨fun hstate => ?_, fun h => absurd h hsilent⟩
      obtain ⟨hsame, htarget⟩ := hhandled.pursues (Or.inr hstate)
      rw [processed_of_not_frame ha, hhandled.lastPan, hhandled.lastTilt, htarget,
        hhandled.stableCount]
      exact hs (hsame.symm.trans hstate)
  | frame hframe =>
      by_cases hsearches : s.Searches
      · obtain ⟨r, m, hm, ht⟩ := hframe.matched hsearches
        exact hs.matched hsearches hfinds hm ht
      · obtain ⟨⟨-, htracking⟩, hin⟩ := hframe.at_rest hsearches
        exact CountsSteady.of_rest htracking fun h => h.1 (hin h.2)

/-- **Only a really stable target is engaged**, in every run in which no target that was
    lost is found again where it was. -/
theorem stable_target_engaged (hr : ServerRun P c h s)
    (hfinds : EveryStep (fun _ s a _ => FindsElsewhere s a) h s) :
    EveryStep EngagesStable h s := by
  have hstart : CountsSteady [] (start c) := fun h => TEngagementState.noConfusion h
  exact Run.everyStep_of CountsSteady hstart (fun _ _ _ _ hs hst h => (hs.step hst h).1)
    (fun _ _ _ _ hs hst h => (hs.step hst h).2) hr hfinds

/-- A session, with a property of its whole history. -/
theorem Session.reaches_history (acts : List Act) (Q : List (Server × Act) → Server → Bool)
    (h : (follow (next Session.platform) (start Session.config) acts.reverse).any
      (fun r => Q r.1 r.2) = true) :
    ∃ h s, ServerRun Session.platform Session.config h s ∧ Q h s = true :=
  exists_history_of_follow (fun _ _ _ => step_of_next) acts.reverse Q h

theorem stable_target_engaged_engage :
    ∃ h s, ServerRun Session.platform Session.config h s
      ∧ s.autoEngage.state = .engagementInProgress ∧ EveryStep EngagesStable h s := by
  obtain ⟨h, s, hr, hs⟩ := Session.reaches_history Session.engage
    (fun h s => s.autoEngage.state = .engagementInProgress
      && decide (EveryStep (fun _ s a _ => FindsElsewhere s a) h s)) (by decide +kernel)
  obtain ⟨hstate, hfinds⟩ := Bool.and_eq_true_iff.mp hs
  exact ⟨h, s, hr, of_decide_eq_true hstate,
    stable_target_engaged hr (of_decide_eq_true hfinds)⟩

/-- The target is gone for one of the last four frames, and is engaged. -/
theorem lost_target_engaged :
    ∃ h s, ServerRun Session.platform Session.config h s
      ∧ ¬ EveryStep EngagesStable h s := by
  obtain ⟨h, s, hr, hs⟩ := Session.reaches_history
    (Session.activate ++ [Session.targetFrame, .frame (Session.frameAt 0 []), Session.targetFrame,
      Session.targetFrame, Session.targetFrame])
    (fun h s => !decide (EveryStep EngagesStable h s)) (by decide +kernel)
  exact ⟨h, s, hr, of_decide_eq_false (Bool.not_eq_true' _ ▸ hs)⟩

end Stability

/-! ## Time-out -/

/-- When the target was selected: the time of the last frame processed in
    `ACTIVATE` or `NEW_TARGET`. -/
def selectedAt : List (Server × Act) → Nat
  | [] => 0
  | (p, .frame f) :: h => if p.Selects then f.now else selectedAt h
  | (_, .message _) :: h | (_, .statement) :: h | (_, .spuriousWakeup) :: h => selectedAt h

/-- The frames come in the order of their times. -/
def InOrder (h : List (Server × Act)) (s : Server) : Act → Prop
  | .frame f => ∀ q ∈ processed h s, q.1.now ≤ f.now
  | _ => True

instance (h : List (Server × Act)) (s : Server) (a : Act) : Decidable (InOrder h s a) :=
  match a with
  | .frame _ => inferInstanceAs (Decidable (∀ _ ∈ _, _))
  | .message _ | .statement | .spuriousWakeup => isTrue trivial

/-- `TryToMatch` gives the target up in a frame without it. -/
def GivesUp (s : Server) (f : Frame) (t : Server) : Prop :=
  s.Searches ∧ ¬ f.Shows t.autoEngage.target ∧ t.autoEngage.state = .engagementComplete

instance (s : Server) (f : Frame) (t : Server) : Decidable (GivesUp s f t) :=
  inferInstanceAs (Decidable (_ ∧ _ ∧ _))

/-- A target is given up only when it has been missing for more than five seconds since
    it was selected: from some time `b` on, no frame showed it. -/
def MissingForLong (h : List (Server × Act)) (s : Server) : Act → Server → Prop
  | .frame f, t => GivesUp s f t → ∃ b, selectedAt ((s, .frame f) :: h) ≤ b
      ∧ b + 5000 * 1000000 < f.now
      ∧ ∀ q ∈ processed ((s, .frame f) :: h) t, b ≤ q.1.now →
        ¬ q.1.Shows t.autoEngage.target
  | _, _ => True

/-- A target that is selected in a frame without it finds the timer stopped. -/
def FindsTimerStopped (s : Server) : Act → Prop
  | .frame f => s.Selects → s.trying = true → f.Shows s.searching.autoEngage.target
  | _ => True

instance (s : Server) (a : Act) : Decidable (FindsTimerStopped s a) :=
  match a with
  | .frame _ => inferInstanceAs (Decidable (_ → _ → _))
  | .message _ | .statement | .spuriousWakeup => isTrue trivial

section TimeOut

variable {P : Platform} {c : Config} {h : List (Server × Act)} {s t : Server} {a : Act}
  {f : Frame}

theorem selectedAt_of_not_frame (ha : ∀ f, a ≠ .frame f) :
    selectedAt ((s, a) :: h) = selectedAt h := by
  cases a with
  | frame f => exact absurd rfl (ha f)
  | message m => rfl
  | statement => rfl
  | spuriousWakeup => rfl

/-- The target was selected in a frame that has been processed. -/
theorem selectedAt_le {n : Nat} (hn : ∀ q ∈ processed h s, q.1.now ≤ n) :
    selectedAt h ≤ n := by
  induction h generalizing s with
  | nil => exact Nat.zero_le n
  | cons hd h ih =>
      obtain ⟨p, a⟩ := hd
      cases a with
      | frame f =>
          obtain ⟨hlast, hrest⟩ := List.forall_mem_cons.mp hn
          rw [selectedAt]
          split
          · exact hlast
          · exact ih hrest
      | message m => exact ih hn
      | statement => exact ih hn
      | spuriousWakeup => exact ih hn

/-- While a target is pursued and the timer runs, the timer was started after the
    target was selected, and no frame since has shown it. -/
def OwnTimer (h : List (Server × Act)) (s : Server) : Prop :=
  s.Pursues → s.trying = true → selectedAt h ≤ s.tbegin
    ∧ ∀ q ∈ processed h s, s.tbegin < q.1.now → ¬ q.1.Shows s.autoEngage.target

/-- In a search that goes on, the timer is the target's own. -/
theorem OwnTimer.searching (hs : OwnTimer h s) (hsearches : s.Searches)
    (hstopped : FindsTimerStopped s (.frame f))
    (hfirst : s.searching.firstMatch f = none) (htrying : s.trying = true) :
    selectedAt ((s, .frame f) :: h) ≤ s.tbegin
      ∧ ∀ q ∈ (f, t) :: processed h s, s.tbegin < q.1.now →
        ¬ q.1.Shows s.searching.autoEngage.target := by
  have hno := firstMatch_none_iff.mp hfirst
  have hselects : ¬ s.Selects := fun h => hno (hstopped h htrying)
  have hpursues : s.Pursues := by
    rcases hsearches with h | h | h
    · exact absurd (Or.inl h) hselects
    · exact absurd (Or.inr h) hselects
    · exact h
  have hsame : s.searching.autoEngage = s.autoEngage := by
    rcases hpursues with h | h
    · rw [Server.searching, TAutoEngage.searching, h]
    · rw [Server.searching, TAutoEngage.searching, h]
  obtain ⟨hselected, hmissing⟩ := hs hpursues htrying
  refine ⟨?_, List.forall_mem_cons.mpr ⟨fun _ => hno, ?_⟩⟩
  · rw [selectedAt, if_neg hselects]
    exact hselected
  · rw [hsame]
    exact hmissing

/-- The timer is started by a frame without the target. -/
theorem started_timer (horder : InOrder h s (.frame f)) :
    selectedAt ((s, .frame f) :: h) ≤ f.now
      ∧ ∀ q ∈ (f, t) :: processed h s, ¬ f.now < q.1.now := by
  refine ⟨selectedAt_le (s := t) ?_, ?_⟩
  · exact List.forall_mem_cons.mpr ⟨Nat.le_refl _, horder⟩
  · exact List.forall_mem_cons.mpr
      ⟨Nat.lt_irrefl _, fun q hq => Nat.not_lt.mpr (horder q hq)⟩

/-- A call of `TryToMatch` in a frame with the condition. -/
theorem OwnTimer.matched (hs : OwnTimer h s) (hsearches : s.Searches)
    (horder : InOrder h s (.frame f)) (hstopped : FindsTimerStopped s (.frame f))
    {r : TEngagementState} {m : Server} (hm : Matched s.searching f r m)
    (ht : t.tracker = m.tracker.settle r) :
    OwnTimer ((s, .frame f) :: h) t ∧ MissingForLong h s (.frame f) t := by
  have htrying : t.trying = m.trying := congrArg Tracker.trying ht
  have htbegin : t.tbegin = m.tbegin := congrArg Tracker.tbegin ht
  have htarget : t.autoEngage.target = m.autoEngage.target := by
    rw [autoEngage_of_settle ht]
  have hown : m.trying = false → OwnTimer ((s, .frame f) :: h) t :=
    fun hno _ hyes => absurd (htrying.symm.trans hyes) (by rw [hno]; decide)
  -- a frame that shows the target does not give it up
  have hshown : ∀ {d}, s.searching.firstMatch f = some d →
      m.autoEngage.target = s.searching.autoEngage.target →
      MissingForLong h s (.frame f) t := by
    intro d hfirst hm hgives
    refine absurd (shows_of_firstMatch hfirst) ?_
    rw [← hm, ← htarget]
    exact hgives.2.1
  have hlooking : r = .lookingForTarget → MissingForLong h s (.frame f) t := by
    rintro rfl hgives
    cases (state_of_settle ht (by decide)).symm.trans hgives.2.2
  cases hm with
  | panLimit hfirst | tiltLimit hfirst => exact ⟨hown rfl, hshown hfirst rfl⟩
  | aimed hfirst => exact ⟨hown rfl, hshown hfirst rfl⟩
  | starts hfirst htry =>
      obtain ⟨hselected, hlate⟩ := started_timer (t := t) horder
      refine ⟨fun _ _ => ?_, hlooking rfl⟩
      rw [htbegin]
      exact ⟨hselected, fun q hq hlt => absurd hlt (hlate q hq)⟩
  | goesOn hfirst htry =>
      have htimer := hs.searching (t := t) hsearches hstopped hfirst htry
      refine ⟨fun _ _ => ?_, hlooking rfl⟩
      rw [htbegin, htarget]
      exact htimer
  | givesUp hfirst htry htime =>
      obtain ⟨hselected, hmissing⟩ := hs.searching (t := t) hsearches hstopped hfirst htry
      refine ⟨hown rfl, fun _ => ⟨s.tbegin + 1, Nat.le_succ_of_le hselected, ?_, ?_⟩⟩
      · have hlate : 5000 < (f.now - s.tbegin) / 1000000 := htime
        omega
      · rw [htarget]
        exact hmissing

theorem OwnTimer.step (hs : OwnTimer h s) (hst : Step P s a t) (horder : InOrder h s a)
    (hstopped : FindsTimerStopped s a) :
    OwnTimer ((s, a) :: h) t ∧ MissingForLong h s a t := by
  cases step_tracked hst with
  | handled ha hhandled =>
      refine ⟨fun hpursues htrying => ?_, ?_⟩
      · obtain ⟨hstate, htarget⟩ := hhandled.pursues hpursues
        have hbefore : s.Pursues := by
          rw [Server.Pursues, ← hstate]
          exact hpursues
        rw [selectedAt_of_not_frame ha, processed_of_not_frame ha, hhandled.tbegin, htarget]
        exact hs hbefore (hhandled.trying ▸ htrying)
      · cases a with
        | frame f => exact absurd rfl (ha f)
        | message m => trivial
        | statement => trivial
        | spuriousWakeup => trivial
  | frame hframe =>
      by_cases hsearches : s.Searches
      · obtain ⟨r, m, hm, ht⟩ := hframe.matched hsearches
        exact hs.matched hsearches horder hstopped hm ht
      · obtain ⟨⟨hlooking, htracking⟩, -⟩ := hframe.at_rest hsearches
        refine ⟨?_, fun hgives => absurd hgives.1 hsearches⟩
        rintro (h | h)
        · exact absurd h hlooking
        · exact absurd h htracking

/-- **A target is skipped only after its own five seconds**, in every run in which each
    target that is selected in a frame without it finds the timer stopped. -/
theorem not_found_after_own_time (hr : ServerRun P c h s)
    (horder : EveryStep (fun h s a _ => InOrder h s a) h s)
    (hstopped : EveryStep (fun _ s a _ => FindsTimerStopped s a) h s) :
    EveryStep MissingForLong h s := by
  have hstart : OwnTimer [] (start c) := by
    rintro (h | h)
    · exact TEngagementState.noConfusion h
    · exact TEngagementState.noConfusion h
  exact Run.everyStep_of OwnTimer hstart
    (fun _ _ _ _ hs hst h => (hs.step hst h.1 h.2).1)
    (fun _ _ _ _ hs hst h => (hs.step hst h.1 h.2).2) hr (horder.and hstopped)

/-- A target is looked for and skipped after six seconds. -/
theorem not_found_after_own_time_missing :
    ∃ h s, ServerRun Session.platform Session.config h s
      ∧ s.autoEngage.state = .engagementComplete ∧ EveryStep MissingForLong h s := by
  obtain ⟨h, s, hr, hs⟩ := Session.reaches_history
    (Session.activate ++ [.frame (Session.frameAt 0 []),
      .frame (Session.frameAt 6000000000 [])])
    (fun h s => s.autoEngage.state = .engagementComplete
      && (decide (EveryStep (fun h s a _ => InOrder h s a) h s)
        && decide (EveryStep (fun _ s a _ => FindsTimerStopped s a) h s))) (by decide +kernel)
  obtain ⟨hstate, hrest⟩ := Bool.and_eq_true_iff.mp hs
  obtain ⟨horder, hstopped⟩ := Bool.and_eq_true_iff.mp hrest
  exact ⟨h, s, hr, of_decide_eq_true hstate,
    not_found_after_own_time hr (of_decide_eq_true horder) (of_decide_eq_true hstopped)⟩

/-- The operator cancels the search for a target and orders it again later; the first
    frame without it gives it up. -/
theorem skipped_at_once :
    ∃ h s, ServerRun Session.platform Session.config h s
      ∧ EveryStep (fun h s a _ => InOrder h s a) h s ∧ ¬ EveryStep MissingForLong h s := by
  obtain ⟨h, s, hr, hs⟩ := Session.reaches_history
    (Session.activate ++ [.frame (Session.frameAt 0 []), .message (Session.request prearmed),
      .message Session.order, .message (Session.request engageAuto)])
    (fun h s => (decide (InOrder h s (.frame (Session.frameAt 6000000000 [])))
        && decide (EveryStep (fun h s a _ => InOrder h s a) h s))
      && (decide s.Selects && (next Session.platform s
        (.frame (Session.frameAt 6000000000 []))).any
          (fun t => decide (GivesUp s (Session.frameAt 6000000000 []) t)))) (by decide +kernel)
  obtain ⟨horder, hlast⟩ := Bool.and_eq_true_iff.mp hs
  obtain ⟨hnow, hbefore⟩ := Bool.and_eq_true_iff.mp horder
  obtain ⟨hselects, hnext⟩ := Bool.and_eq_true_iff.mp hlast
  cases hn : next Session.platform s (.frame (Session.frameAt 6000000000 [])) with
  | none => rw [hn] at hnext; cases hnext
  | some t =>
      rw [hn] at hnext
      refine ⟨_, t, hr.snoc (step_of_next hn),
        ⟨of_decide_eq_true hnow, of_decide_eq_true hbefore⟩, fun hall => ?_⟩
      obtain ⟨b, hb, hlong, -⟩ := hall.1 (of_decide_eq_true hnext)
      rw [selectedAt, if_pos (of_decide_eq_true hselects)] at hb
      omega

end TimeOut

end DemoCannon
