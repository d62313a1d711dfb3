import DemoCannon.Sequencing
import DemoCannon.Tracking

/-! # Signals and laser/fire sequences

    `ProcessTargetEngagements` signals when a target is tracked stably, whether
    or not `EngagementThread` is waiting, and the signal carries nothing that
    would outlast the moment.  So every signal starts a sequence in exactly the
    runs in which no frame makes a target stable while the thread is elsewhere
    (`no_signal_lost_iff`). -/

namespace DemoCannon

open Interaction Interaction.Program SystemState

/-! ## When a target is stable -/

/-- Aiming at `d` stays within the limits of both servos and moves them by less
    than half a degree, for the third time or more. -/
def Server.StableAim (s : Server) (f : Frame) (d : TDetectedMatches) : Prop :=
  (minPan < s.aimedPan f d ∧ s.aimedPan f d < maxPan)
    ∧ (minTilt < s.aimedTilt f d ∧ s.aimedTilt f d < maxTilt)
    ∧ compareFloat s.autoEngage.lastPan (s.aimedPan f d) = true
    ∧ compareFloat s.autoEngage.lastTilt (s.aimedTilt f d) = true
    ∧ 2 ≤ s.autoEngage.stableCount

/-- The first match of the target is aimed at stably. -/
def Server.StableMatch (s : Server) (f : Frame) : Prop :=
  ∃ d, f.detectedMatches.find? (·.symbol = (s.autoEngage.target : Int)) = some d
    ∧ s.StableAim f d

/-- Aiming steadily for the third time or more makes the count exceed two. -/
theorem Server.stableAim_iff {s : Server} {f : Frame} {d : TDetectedMatches} :
    s.StableAim f d
      ↔ s.PanInside f d ∧ s.TiltInside f d ∧ 2 < s.stableCountAfter f d := by
  rw [Server.stableCountAfter]
  by_cases hsteady : s.Steady f d = true
  · obtain ⟨hpan, htilt⟩ := Bool.and_eq_true_iff.mp hsteady
    rw [if_pos hsteady]
    constructor
    · rintro ⟨hin, hin', -, -, hcount⟩
      exact ⟨hin, hin', Nat.lt_succ_of_le hcount⟩
    · rintro ⟨hin, hin', hcount⟩
      exact ⟨hin, hin', hpan, htilt, Nat.le_of_lt_succ hcount⟩
  · rw [if_neg hsteady]
    refine iff_of_false ?_ fun h => absurd h.2.2 (by decide)
    rintro ⟨-, -, hpan, htilt, -⟩
    exact hsteady (Bool.and_eq_true_iff.mpr ⟨hpan, htilt⟩)

/-- `TryToMatch` gives `TRACKING_STABLE` for a stable match, and only then. -/
theorem post_tryToMatch (f : Frame) (s : Server) :
    Post (tryToMatch f) s (fun result _ => result = .trackingStable ↔ s.StableMatch f) := by
  -- the first match decides
  have hfound : ∀ {d}, s.firstMatch f = some d → (s.StableMatch f ↔ s.StableAim f d) := by
    intro d hfirst
    constructor
    · rintro ⟨d', hfirst', haim⟩
      obtain rfl := Option.some.inj (hfirst.symm.trans hfirst')
      exact haim
    · intro haim
      exact ⟨d, hfirst, haim⟩
  have hnone : s.firstMatch f = none → ¬ s.StableMatch f := by
    rintro hfirst ⟨d, hfirst', -⟩
    cases hfirst.symm.trans hfirst'
  refine (matched_tryToMatch f s).mono fun result m hm => ?_
  cases hm with
  | panLimit hfirst hpan =>
      rw [hfound hfirst, Server.stableAim_iff]
      exact iff_of_false (by rintro ⟨⟩) fun h => hpan h.1
  | tiltLimit hfirst hpan htilt =>
      rw [hfound hfirst, Server.stableAim_iff]
      exact iff_of_false (by rintro ⟨⟩) fun h => htilt h.2.1
  | aimed hfirst hpan htilt =>
      rw [hfound hfirst, Server.stableAim_iff]
      split
      · exact iff_of_true rfl ⟨hpan, htilt, ‹_›⟩
      · exact iff_of_false (by rintro ⟨⟩) fun h => absurd h.2.2 ‹_›
  | starts hfirst | goesOn hfirst | givesUp hfirst =>
      exact iff_of_false (by rintro ⟨⟩) (hnone hfirst)

namespace Control

/-- A stable target starts an engagement, with a signal. -/
theorem track_stable {newState : Bool} {c : Control} (hstate : c.state ≠ .trackingStable) :
    c.track newState .trackingStable
      = signal { c with state := .engagementInProgress } := by
  rw [track, if_pos (by simp [hstate]), enter]

/-- Any other result becomes the state, without a signal. -/
theorem track_unstable {newState : Bool} {result : TEngagementState} {c : Control}
    (hresult : IsMatchResult result) (hne : result ≠ .trackingStable) :
    (c.track newState result).state = result
      ∧ (c.track newState result).engagement = c.engagement := by
  rw [track]
  rcases hresult with rfl | rfl | rfl | rfl
  · split <;> exact ⟨rfl, rfl⟩
  · split <;> exact ⟨rfl, rfl⟩
  · exact absurd rfl hne
  · split <;> exact ⟨rfl, rfl⟩

end Control

/-! ## Signals -/

/-- `ProcessTargetEngagements` signals in this step: it signals where it sets
    `ENGAGEMENT_IN_PROGRESS`, which it sets nowhere else. -/
def Signals (s : Server) : Act → Server → Prop
  | .frame _, t =>
      s.autoEngage.state ≠ .engagementInProgress
        ∧ t.autoEngage.state = .engagementInProgress
  | _, _ => False

instance (s : Server) (a : Act) (t : Server) : Decidable (Signals s a t) :=
  match a with
  | .frame _ => inferInstanceAs (Decidable (_ ∧ _))
  | .message _ | .statement | .spuriousWakeup => isFalse id

/-- The frame makes the target stable that the sequencer is looking for. -/
def MakesStable (s : Server) (a : Act) : Prop :=
  ∃ f, a = .frame f
    ∧ (s.autoEngage.state = .lookingForTarget ∨ s.autoEngage.state = .tracking)
    ∧ s.StableMatch f

section Signals

variable {P : Platform} {c : Config} {h : List (Server × Act)} {s t : Server} {a : Act}

/-- What a frame does to the thread: it signals for a stable target, or leaves it
    where it is. -/
inductive FrameSignal (s : Server) (f : Frame) (t : Server) : Prop where
  | signal (hsignals : Signals s (.frame f) t) (hstable : MakesStable s (.frame f))
      (hthread : t.engagement
        = if s.engagement = .waiting then .laserTrue else s.engagement)
  | silent (hsignals : ¬ Signals s (.frame f) t)
      (hstable : ¬ MakesStable s (.frame f)) (hthread : t.engagement = s.engagement)

theorem FrameSignal.of_track {f : Frame} {d : Control} {newState : Bool}
    {result : TEngagementState} (hresult : IsMatchResult result)
    (hd : d.engagement = s.engagement) (hstate : d.state ≠ .trackingStable)
    (hs : s.autoEngage.state ≠ .engagementInProgress)
    (hstable : result = .trackingStable ↔ MakesStable s (.frame f))
    (ht : t.control = d.track newState result) : FrameSignal s f t := by
  by_cases hr : result = .trackingStable
  · rw [hr, Control.track_stable hstate, Control.signal] at ht
    refine .signal ⟨hs, ?_⟩ (hstable.mp hr) ?_
    · by_cases hwaiting : d.engagement = .waiting
      · rw [if_pos hwaiting] at ht
        exact congrArg Control.state ht
      · rw [if_neg hwaiting] at ht
        exact congrArg Control.state ht
    · by_cases hwaiting : d.engagement = .waiting
      · rw [if_pos hwaiting] at ht
        rw [if_pos (hd ▸ hwaiting)]
        exact congrArg Control.engagement ht
      · rw [if_neg hwaiting] at ht
        rw [if_neg (hd ▸ hwaiting)]
        exact (congrArg Control.engagement ht).trans hd
  · obtain ⟨hstate', hpc⟩ : (d.track newState result).state = result
        ∧ (d.track newState result).engagement = d.engagement :=
      Control.track_unstable hresult hr
    have ht' : t.autoEngage.state = result := (congrArg Control.state ht).trans hstate'
    refine .silent ?_ (fun h => hr (hstable.mpr h)) ?_
    · rintro ⟨-, hin⟩
      rw [← ht', hin] at hresult
      rcases hresult with h | h | h | h <;> cases h
    · exact (congrArg Control.engagement ht).trans (hpc.trans hd)

/-- The rest of the sequencer does not signal. -/
theorem FrameSignal.of_rest {f : Frame} (hs : s.autoEngage.state ≠ .lookingForTarget
      ∧ s.autoEngage.state ≠ .tracking)
    (hin : t.autoEngage.state = .engagementInProgress →
      s.autoEngage.state = .engagementInProgress)
    (hthread : t.engagement = s.engagement) : FrameSignal s f t := by
  refine .silent (fun h => h.1 (hin h.2)) ?_ hthread
  rintro ⟨f', ⟨⟩, hlooking | htracking, -⟩
  · exact hs.1 hlooking
  · exact hs.2 htracking

theorem post_track_result (f : Frame) (newState : Bool) (m : Server) :
    Post (track f newState) m (fun _ t =>
      ∃ result, (IsMatchResult result ∧ (result = .trackingStable ↔ m.StableMatch f))
        ∧ t.control = m.control.track newState result) := by
  have hresult := (returns_tryToMatch f m).and (post_tryToMatch f m)
  exact post_track_of hresult newState

/-- A target selected in this frame has not been aimed at before. -/
theorem post_selected_frameSignal {f : Frame} {m : Server}
    (hpc : m.control.engagement = s.engagement) (hm : m.control.state ≠ .trackingStable)
    (hs : s.autoEngage.state ≠ .engagementInProgress) (hno : ¬ MakesStable s (.frame f)) :
    Post (do
      selectTarget
      track f true : Prog Unit) m (fun _ t => FrameSignal s f t) := by
  refine (post_bind _ _ m _).mpr ((post_update _ m _).mpr ?_)
  refine (post_track_result f true _).mono ?_
  rintro _ t ⟨result, ⟨hresult, hstable⟩, ht⟩
  refine .of_track hresult hpc hm hs (hstable.trans (iff_of_false ?_ hno)) ht
  rintro ⟨d, -, -, -, -, -, hcount⟩
  exact absurd hcount (show ¬ 2 ≤ 0 by decide)

theorem post_looking_frameSignal {f : Frame}
    (hstate : s.autoEngage.state = .lookingForTarget ∨ s.autoEngage.state = .tracking) :
    Post (track f false) s (fun _ t => FrameSignal s f t) := by
  have hne : s.control.state ≠ .trackingStable
      ∧ s.autoEngage.state ≠ .engagementInProgress := by
    change s.autoEngage.state ≠ .trackingStable ∧ _
    rcases hstate with h | h <;> rw [h] <;> decide
  refine (post_track_result f false s).mono ?_
  rintro _ t ⟨result, ⟨hresult, hstable⟩, ht⟩
  refine .of_track hresult rfl hne.1 hne.2 (hstable.trans ?_) ht
  refine ⟨fun h => ⟨f, rfl, hstate, h⟩, ?_⟩
  rintro ⟨f', ⟨⟩, -, h⟩
  exact h

theorem post_frameSignal (f : Frame) (s : Server) :
    Post (processTargetEngagements f) s (fun _ t => FrameSignal s f t) := by
  have hnot : s.autoEngage.state ≠ .lookingForTarget ∧ s.autoEngage.state ≠ .tracking →
      ¬ MakesStable s (.frame f) := by
    rintro hs ⟨f', -, h | h, -⟩
    · exact hs.1 h
    · exact hs.2 h
  refine (post_bind _ _ s _).mpr ((post_fetch s _).mpr ?_)
  cases hstate : s.autoEngage.state with
  | notActive | trackingStable | engagementInProgress =>
      refine (post_pure () s _).mpr (.of_rest ?_ id rfl)
      rw [hstate]
      decide
  | lookingForTarget => exact post_looking_frameSignal (Or.inl hstate)
  | tracking => exact post_looking_frameSignal (Or.inr hstate)
  | activate =>
      refine (post_bind _ _ s _).mpr ((post_update _ s _).mpr ?_)
      exact post_selected_frameSignal rfl (by rintro ⟨⟩) (by rw [hstate]; decide)
        (hnot (by rw [hstate]; decide))
  | newTarget =>
      have hm : s.control.state ≠ .trackingStable := by
        rw [show s.control.state = _ from hstate]
        decide
      exact post_selected_frameSignal rfl hm (by rw [hstate]; decide)
        (hnot (by rw [hstate]; decide))
  | engagementComplete =>
      refine (acts_nextTarget s).mono fun _ t ht => .of_rest (by rw [hstate]; decide) ?_ ?_
      · intro hin
        have hin' : s.control.nextTarget.state = .engagementInProgress :=
          (congrArg Control.state ht).symm.trans hin
        rw [Control.nextTarget] at hin'
        split at hin' <;> cases hin'
      · refine (congrArg Control.engagement ht).trans ?_
        rw [Control.nextTarget]
        split <;> rfl

/-! ## Counting -/

/-- How often `ProcessTargetEngagements` has signalled. -/
def signalCount : List (Server × Act) → Server → Nat
  | [], _ => 0
  | (p, a) :: h, s => signalCount h p + if Signals p a s then 1 else 0

/-- `EngagementThread` starts a laser/fire sequence in this step. -/
def Starts (s : Server) : Act → Prop
  | .statement => s.engagement = .laserTrue
  | _ => False

instance (s : Server) (a : Act) : Decidable (Starts s a) :=
  match a with
  | .statement => inferInstanceAs (Decidable (_ = _))
  | .message _ | .frame _ | .spuriousWakeup => isFalse id

/-- How many laser/fire sequences `EngagementThread` has started. -/
def startCount : List (Server × Act) → Nat
  | [] => 0
  | (p, a) :: h => startCount h + if Starts p a then 1 else 0

/-- The signal that is still waking the thread, if there is one. -/
def Server.waking (s : Server) : Nat := if s.engagement = .laserTrue then 1 else 0

/-- A step signals only if the thread is waiting, and every signal so far has
    started a sequence, except for one that is still waking the thread. -/
def KeepsSignals (h : List (Server × Act)) (s : Server) (a : Act) (t : Server) : Prop :=
  (Signals s a t → s.engagement = .waiting)
    ∧ startCount ((s, a) :: h) + t.waking = signalCount ((s, a) :: h) t

/-- A run without spurious wake-ups. -/
abbrev SignalledRun (P : Platform) (c : Config) :
    List (Server × Act) → Server → Prop :=
  Run (fun s a t => Step P s a t ∧ a ≠ .spuriousWakeup) (start c)

/-- A message leaves the thread where it is. -/
theorem message_engagement {m : Received} (hst : Step P s (.message m) t) :
    t.engagement = s.engagement := by
  have ht := step_message hst
  obtain ⟨hstatement, hframe⟩ := m.event_ne (decide (m.LogsIn P s.user))
  exact (congrArg Control.engagement ht).trans
    (Control.next_engagement_kept s.control hstatement hframe)

theorem step_keepsSignals_iff (hs : startCount h + s.waking = signalCount h s)
    (hst : Step P s a t) (ha : a ≠ .spuriousWakeup) :
    KeepsSignals h s a t ↔ (MakesStable s a → s.engagement = .waiting) := by
  cases a with
  | spuriousWakeup => exact absurd rfl ha
  | message m =>
      have hpc := message_engagement hst
      refine iff_of_true ⟨False.elim, ?_⟩ (by rintro ⟨f, ⟨⟩, -⟩)
      rw [startCount, signalCount, if_neg (show ¬ Starts s (.message m) from id),
        if_neg (show ¬ Signals s (.message m) t from id), Server.waking, hpc]
      exact hs
  | frame f =>
      rw [KeepsSignals, startCount, signalCount,
        if_neg (show ¬ Starts s (.frame f) from id)]
      cases post_frameSignal f s () t hst with
      | signal hsignals hstable hthread =>
          constructor
          · intro hkeeps _
            exact hkeeps.1 hsignals
          · intro hwaits
            have hwaiting := hwaits hstable
            refine ⟨fun _ => hwaiting, ?_⟩
            rw [if_pos hwaiting] at hthread
            rw [Server.waking, if_neg (by rw [hwaiting]; decide)] at hs
            rw [if_pos hsignals, Server.waking, if_pos hthread, ← hs]
      | silent hsignals hstable hthread =>
          refine iff_of_true ⟨fun h => absurd h hsignals, ?_⟩ fun h => absurd h hstable
          rw [if_neg hsignals, Server.waking, hthread]
          exact hs
  | statement =>
      have hpc : t.engagement = s.engagement.succ :=
        congrArg Control.engagement (step_statement hst)
      have hne : s.engagement ≠ .waiting := not_waiting_of_step hst
      refine iff_of_true ⟨False.elim, ?_⟩ (by rintro ⟨f, ⟨⟩, -⟩)
      rw [startCount, signalCount, if_neg (show ¬ Signals s .statement t from id)]
      have ht : t.waking = 0 := by
        rw [Server.waking, hpc]
        cases h : s.engagement with
        | waiting => exact absurd h hne
        | _ => rfl
      rw [ht]
      exact hs

/-- **No signal is lost**, and the sequences started are those signalled, in exactly
    the runs in which no frame makes a target stable while the thread is not
    waiting. -/
theorem no_signal_lost_iff (hr : SignalledRun P c h s) :
    EveryStep KeepsSignals h s
      ↔ EveryStep (fun _ s a _ => MakesStable s a → s.engagement = .waiting) h s := by
  refine Run.everyStep_iff (fun h s => startCount h + s.waking = signalCount h s) rfl
    ?_ ?_ hr
  · intro h s a t _ _ hkeeps
    exact hkeeps.2
  · intro h s a t hs hst
    exact step_keepsSignals_iff hs hst.1 hst.2

/-- A message may, and a wake-up without a signal not. -/
def Act.isSignalled : Act → Bool
  | .spuriousWakeup => false
  | _ => true

/-- A session without spurious wake-ups, with every call succeeding at once. -/
theorem Session.reaches_signalled (acts : List Act) (Q : Server → Bool)
    (hf : (follow (nextOf Act.isSignalled Session.platform) (start Session.config)
      acts.reverse).any (fun r => Q r.2) = true) :
    ∃ h s, SignalledRun Session.platform Session.config h s ∧ Q s = true := by
  refine exists_run_of_follow ?_ acts.reverse Q hf
  intro p a q hq
  obtain ⟨hst, ha⟩ := step_of_nextOf p a q hq
  refine ⟨hst, ?_⟩
  rintro rfl
  cases ha

theorem no_signal_lost_iff_engage :
    ∃ h s, SignalledRun Session.platform Session.config h s ∧ s.engagement = .laserTrue
      ∧ (EveryStep KeepsSignals h s
        ↔ EveryStep (fun _ s a _ => MakesStable s a → s.engagement = .waiting) h s) := by
  obtain ⟨h, s, hr, hs⟩ := Session.reaches_signalled Session.engage
    (fun s => s.engagement = .laserTrue) (by decide +kernel)
  exact ⟨h, s, hr, of_decide_eq_true hs, no_signal_lost_iff hr⟩

/-- The operator cancels an engagement and starts the next one while the thread is
    still at its laser; the signal for the next one is lost. -/
theorem signal_lost :
    ∃ h s, SignalledRun Session.platform Session.config h s
      ∧ ¬ EveryStep KeepsSignals h s := by
  obtain ⟨h, s, hr, hs⟩ := Session.reaches_signalled
    (Session.engage ++ [.message (Session.request prearmed), .message Session.order,
      .message (Session.request engageAuto), Session.targetFrame, Session.targetFrame,
      Session.targetFrame])
    (fun s => s.engagement = .laserTrue && (next Session.platform s Session.targetFrame).any
      fun t => Signals s Session.targetFrame t) (by decide +kernel)
  obtain ⟨hpc, hnext⟩ := Bool.and_eq_true_iff.mp hs
  cases hn : next Session.platform s Session.targetFrame with
  | none => rw [hn] at hnext; cases hnext
  | some t =>
      rw [hn] at hnext
      refine ⟨_, t, hr.snoc ⟨step_of_next hn, by rintro ⟨⟩⟩, fun hall => ?_⟩
      have hwaiting := hall.1.1 (of_decide_eq_true hnext)
      cases (of_decide_eq_true hpc).symm.trans hwaiting

end Signals

end DemoCannon
