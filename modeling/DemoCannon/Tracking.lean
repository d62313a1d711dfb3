import DemoCannon.System

/-! # What a frame makes of the aim, the count and the timer

    `TryToMatch` keeps the aim, a count of steady frames and a timer from one frame
    to the next.  `Matched` says once what a call of it can do, and `FrameTracked` what
    a frame does; the rest of the server leaves the count and the timer alone, and
    moves the aim only together with the servos (`Handled`).  Everything about
    several frames follows from these two. -/

namespace DemoCannon

open Interaction Interaction.Program SystemState

/-! ## `ServoAngle` -/

/-- What `ServoAngle` makes of an angle. -/
def ServoNum.clamp (num : ServoNum) (angle : Rat) : Rat :=
  if angle < num.min then num.min else if num.max < angle then num.max else angle

theorem ServoNum.clamp_of_inside {num : ServoNum} {angle : Rat} (hmin : num.min < angle)
    (hmax : angle < num.max) : num.clamp angle = angle := by
  rw [ServoNum.clamp, if_neg (Rat.not_lt.mpr (Rat.le_of_lt hmin)),
    if_neg (Rat.not_lt.mpr (Rat.le_of_lt hmax))]

theorem ServoNum.clamp_inside (num : ServoNum) (angle : Rat) :
    num.min ≤ num.clamp angle ∧ num.clamp angle ≤ num.max := by
  have hlimits : num.min ≤ num.max := by cases num <;> decide
  rw [ServoNum.clamp]
  by_cases hmin : angle < num.min
  · rw [if_pos hmin]
    exact ⟨Rat.le_refl, hlimits⟩
  by_cases hmax : num.max < angle
  · rw [if_neg hmin, if_pos hmax]
    exact ⟨hlimits, Rat.le_refl⟩
  · rw [if_neg hmin, if_neg hmax]
    exact ⟨Rat.not_lt.mp hmin, Rat.not_lt.mp hmax⟩

/-- The angle is clamped, and the servo commanded. -/
theorem post_servoAngle (num : ServoNum) (s : Server) :
    Post (servoAngle num) s (fun _ t =>
      t = (s.setAngle (num.clamp (s.angle num)) num).command num) := by
  have hcommand : ∀ m : Server, Post (do
      update fun s => s.command num
      unlock .i2c : Prog Unit) m (fun _ t => t = m.command num) := by
    intro m
    refine (post_bind _ _ m _).mpr ((post_update _ m _).mpr ?_)
    exact (keeps_unlock .i2c : Keeps id _) _
  have hlimit : ∀ (angle : Rat) (text : String) (m : Server), Post (do
      update fun s => s.setAngle angle num
      say text
      update fun s => s.command num
      unlock .i2c : Prog Unit) m (fun _ t => t = (m.setAngle angle num).command num) := by
    intro angle text m
    refine (post_bind _ _ m _).mpr ((post_update _ m _).mpr ?_)
    refine (post_bind _ _ _ _).mpr (((keeps_say text : Keeps id _) _).mono ?_)
    intro _ o ho
    obtain rfl : o = m.setAngle angle num := ho
    exact hcommand _
  refine (post_bind _ _ s _).mpr (((keeps_lock .i2c : Keeps id _) s).mono ?_)
  intro _ m hm
  obtain rfl : m = s := hm
  refine (post_bind _ _ m _).mpr ((post_fetch m _).mpr ?_)
  rw [ServoNum.clamp]
  by_cases hmin : m.angle num < num.min
  · rw [if_pos hmin, if_pos hmin]
    exact hlimit _ _ m
  by_cases hmax : num.max < m.angle num
  · rw [if_neg hmin, if_pos hmax, if_neg hmin, if_pos hmax]
    exact hlimit _ _ m
  · rw [if_neg hmin, if_neg hmax, if_neg hmin, if_neg hmax]
    have hsame : m.setAngle (m.angle num) num = m := by cases num <;> rfl
    rw [hsame]
    exact hcommand m

/-- Inside the limits the servo is commanded to the recorded angle. -/
theorem post_servoAngle_inside {num : ServoNum} {s : Server} (hmin : num.min < s.angle num)
    (hmax : s.angle num < num.max) :
    Post (servoAngle num) s (fun _ t => t = s.command num) := by
  have hsame : s.setAngle (s.angle num) num = s := by cases num <;> rfl
  refine (post_servoAngle num s).mono ?_
  rintro _ t rfl
  rw [ServoNum.clamp_of_inside hmin hmax, hsame]

/-! ## One call of `TryToMatch` -/

/-- The angles at which the match `d` would be aimed at. -/
def Server.aimedPan (s : Server) (f : Frame) (d : TDetectedMatches) : Rat :=
  s.pan - ((d.centerX + s.xCorrect) - (f.width / 2 : Nat)) / 75

def Server.aimedTilt (s : Server) (f : Frame) (d : TDetectedMatches) : Rat :=
  s.tilt - ((d.centerY + s.yCorrect) - (f.height / 2 : Nat)) / 75

/-- The detection that decides: the first match of the target. -/
def Server.firstMatch (s : Server) (f : Frame) : Option TDetectedMatches :=
  f.detectedMatches.find? (·.symbol = (s.autoEngage.target : Int))

/-- Aiming at `d` keeps the pan inside its limits. -/
def Server.PanInside (s : Server) (f : Frame) (d : TDetectedMatches) : Prop :=
  minPan < s.aimedPan f d ∧ s.aimedPan f d < maxPan

def Server.TiltInside (s : Server) (f : Frame) (d : TDetectedMatches) : Prop :=
  minTilt < s.aimedTilt f d ∧ s.aimedTilt f d < maxTilt

instance (s : Server) (f : Frame) (d : TDetectedMatches) : Decidable (s.PanInside f d) :=
  inferInstanceAs (Decidable (_ ∧ _))

instance (s : Server) (f : Frame) (d : TDetectedMatches) : Decidable (s.TiltInside f d) :=
  inferInstanceAs (Decidable (_ ∧ _))

/-- Aiming at `d` moves neither angle by half a degree. -/
def Server.Steady (s : Server) (f : Frame) (d : TDetectedMatches) : Bool :=
  compareFloat s.autoEngage.lastPan (s.aimedPan f d)
    && compareFloat s.autoEngage.lastTilt (s.aimedTilt f d)

/-- The count after aiming at `d`. -/
def Server.stableCountAfter (s : Server) (f : Frame) (d : TDetectedMatches) : Nat :=
  if s.Steady f d then s.autoEngage.stableCount + 1 else 0

/-- Both servos aim at `d`. -/
def Server.aimed (s : Server) (f : Frame) (d : TDetectedMatches) : Server :=
  { s with
    pan := s.aimedPan f d
    tilt := s.aimedTilt f d
    panServo := s.aimedPan f d
    tiltServo := s.aimedTilt f d
    autoEngage := { s.autoEngage with
      stableCount := s.stableCountAfter f d
      lastPan := s.aimedPan f d
      lastTilt := s.aimedTilt f d }
    trying := false }

/-- What a call of `TryToMatch` returns and leaves. -/
inductive Matched (s : Server) (f : Frame) : TEngagementState → Server → Prop where
  /-- The pan is written before it is checked. -/
  | panLimit {d : TDetectedMatches} (hfirst : s.firstMatch f = some d)
      (hpan : ¬ s.PanInside f d) :
      Matched s f .engagementComplete { s with pan := s.aimedPan f d, trying := false }
  /-- The pan servo has moved by then. -/
  | tiltLimit {d : TDetectedMatches} (hfirst : s.firstMatch f = some d)
      (hpan : s.PanInside f d) (htilt : ¬ s.TiltInside f d) :
      Matched s f .engagementComplete
        { s with
          pan := s.aimedPan f d
          panServo := s.aimedPan f d
          tilt := s.aimedTilt f d
          trying := false }
  | aimed {d : TDetectedMatches} (hfirst : s.firstMatch f = some d)
      (hpan : s.PanInside f d) (htilt : s.TiltInside f d) :
      Matched s f (if 2 < s.stableCountAfter f d then .trackingStable else .tracking)
        (s.aimed f d)
  | starts (hfirst : s.firstMatch f = none) (htrying : s.trying = false) :
      Matched s f .lookingForTarget { s with trying := true, tbegin := f.now }
  | goesOn (hfirst : s.firstMatch f = none) (htrying : s.trying = true)
      (htime : ¬ skipDelayMs < (f.now - s.tbegin) / 1000000) :
      Matched s f .lookingForTarget s
  | givesUp (hfirst : s.firstMatch f = none) (htrying : s.trying = true)
      (htime : skipDelayMs < (f.now - s.tbegin) / 1000000) :
      Matched s f .engagementComplete { s with trying := false }

section TryToMatch

variable {s : Server} {f : Frame}

/-- The end of `TryToMatch`. -/
theorem post_endTrying {state : TEngagementState} {m : Server}
    (h : Matched s f state
      (if state ≠ .lookingForTarget then { m with trying := false } else m)) :
    Post (do
      if state ≠ .lookingForTarget then update fun s => { s with trying := false }
      else pure ()
      pure state : Prog TEngagementState) m (Matched s f) := by
  by_cases hstate : state ≠ .lookingForTarget
  · rw [if_pos hstate] at h ⊢
    exact (post_bind _ _ m _).mpr ((post_update _ m _).mpr ((post_pure _ _ _).mpr h))
  · rw [if_neg hstate] at h ⊢
    exact (post_pure _ m _).mpr h

/-- A target that is skipped at a limit. -/
theorem post_skipped {text : String} {m : Server} :
    Post (do
      say text
      pure .engagementComplete : Prog TEngagementState) m
      (fun state t => state = .engagementComplete ∧ t = m) := by
  refine (post_bind _ _ m _).mpr ((keeps_say text : Keeps id _) m |>.mono ?_)
  intro _ t ht
  exact (post_pure _ t _).mpr ⟨rfl, ht⟩

/-- The count at the end of an update of the aim. -/
theorem post_countStable_eq (m : Server) :
    Post countStable m (fun state t => ∃ n,
      n = (if compareFloat m.autoEngage.lastPan m.pan
          && compareFloat m.autoEngage.lastTilt m.tilt then m.autoEngage.stableCount + 1
        else 0)
      ∧ state = (if 2 < n then .trackingStable else .tracking)
      ∧ t = { m with autoEngage :=
        { m.autoEngage with stableCount := n, lastPan := m.pan, lastTilt := m.tilt } }) := by
  refine (post_bind _ _ m _).mpr ((post_fetch m _).mpr ?_)
  refine (post_bind _ _ m _).mpr ((post_update _ m _).mpr ?_)
  exact (post_pure _ _ _).mpr ⟨_, rfl, rfl, rfl⟩

/-- What aiming leaves, before the end of `TryToMatch`. -/
theorem post_aimAt_eq (f : Frame) (d : TDetectedMatches) (s : Server) :
    Post (aimAt f d) s (fun state t =>
      (¬ s.PanInside f d ∧ state = .engagementComplete
        ∧ t = { s with pan := s.aimedPan f d })
      ∨ (s.PanInside f d ∧ ¬ s.TiltInside f d ∧ state = .engagementComplete
        ∧ t = { s with
            pan := s.aimedPan f d, panServo := s.aimedPan f d, tilt := s.aimedTilt f d })
      ∨ (s.PanInside f d ∧ s.TiltInside f d
        ∧ state = (if 2 < s.stableCountAfter f d then .trackingStable else .tracking)
        ∧ t = { s.aimed f d with trying := s.trying })) := by
  refine (post_bind _ _ s _).mpr ((post_fetch s _).mpr ?_)
  refine (post_bind _ _ s _).mpr ((post_update _ s _).mpr ?_)
  refine (post_bind _ _ _ _).mpr ((post_fetch _ _).mpr ?_)
  change Post (if s.PanInside f d then do
      servoAngle .panServo
      aimTilt f d
    else do
      say "Skip because of Pan Limit"
      pure .engagementComplete : Prog TEngagementState) { s with pan := s.aimedPan f d } _
  by_cases hpan : s.PanInside f d
  · have hservo : Post (servoAngle .panServo) { s with pan := s.aimedPan f d } _ :=
      post_servoAngle_inside hpan.1 hpan.2
    rw [if_pos hpan]
    refine (post_bind _ _ _ _).mpr (hservo.mono ?_)
    rintro _ m rfl
    refine (post_bind _ _ _ _).mpr ((post_fetch _ _).mpr ?_)
    refine (post_bind _ _ _ _).mpr ((post_update _ _ _).mpr ?_)
    refine (post_bind _ _ _ _).mpr ((post_fetch _ _).mpr ?_)
    change Post (if s.TiltInside f d then do
        servoAngle .tiltServo
        countStable
      else do
        say "Skip because of Tilt Limit"
        pure .engagementComplete : Prog TEngagementState)
      { s with pan := s.aimedPan f d, panServo := s.aimedPan f d, tilt := s.aimedTilt f d } _
    by_cases htilt : s.TiltInside f d
    · have hservo : Post (servoAngle .tiltServo)
          { s with pan := s.aimedPan f d, panServo := s.aimedPan f d, tilt := s.aimedTilt f d }
          _ := post_servoAngle_inside htilt.1 htilt.2
      rw [if_pos htilt]
      refine (post_bind _ _ _ _).mpr (hservo.mono ?_)
      rintro _ m rfl
      refine (post_countStable_eq _).mono ?_
      rintro state t ⟨n, rfl, hstate, ht⟩
      exact Or.inr (Or.inr ⟨hpan, htilt, hstate, ht⟩)
    · rw [if_neg htilt]
      refine post_skipped.mono ?_
      rintro state t ⟨hstate, ht⟩
      exact Or.inr (Or.inl ⟨hpan, htilt, hstate, ht⟩)
  · rw [if_neg hpan]
    refine post_skipped.mono ?_
    rintro state t ⟨hstate, ht⟩
    exact Or.inl ⟨hpan, hstate, ht⟩

/-- What looking on leaves, before the end of `TryToMatch`. -/
theorem post_lookOn_eq (f : Frame) (s : Server) :
    Post (lookOn f) s (fun state t =>
      (s.trying = false ∧ state = .lookingForTarget
        ∧ t = { s with trying := true, tbegin := f.now })
      ∨ (s.trying = true ∧ ¬ skipDelayMs < (f.now - s.tbegin) / 1000000
        ∧ state = .lookingForTarget ∧ t = s)
      ∨ (s.trying = true ∧ skipDelayMs < (f.now - s.tbegin) / 1000000
        ∧ state = .engagementComplete ∧ t = s)) := by
  refine (post_bind _ _ s _).mpr ((post_fetch s _).mpr ?_)
  by_cases htrying : s.trying = false
  · rw [if_pos htrying]
    refine (post_bind _ _ s _).mpr ((post_update _ s _).mpr ((post_pure _ _ _).mpr ?_))
    exact Or.inl ⟨htrying, rfl, rfl⟩
  · rw [if_neg htrying]
    have hyes : s.trying = true := (Bool.not_eq_false _).mp htrying
    by_cases htime : skipDelayMs < (f.now - s.tbegin) / 1000000
    · rw [if_pos htime]
      exact (post_pure _ s _).mpr (Or.inr (Or.inr ⟨hyes, htime, rfl, rfl⟩))
    · rw [if_neg htime]
      exact (post_pure _ s _).mpr (Or.inr (Or.inl ⟨hyes, htime, rfl, rfl⟩))

theorem matched_tryToMatch (f : Frame) (s : Server) : Post (tryToMatch f) s (Matched s f) := by
  refine (post_bind _ _ s _).mpr ((post_fetch s _).mpr ?_)
  cases hfirst : s.firstMatch f with
  | some d =>
      rw [show f.detectedMatches.find? (·.symbol = (s.autoEngage.target : Int)) = some d
        from hfirst]
      refine (post_bind _ _ s _).mpr ((post_aimAt_eq f d s).mono ?_)
      rintro state m (⟨hpan, rfl, rfl⟩ | ⟨hpan, htilt, rfl, rfl⟩ | ⟨hpan, htilt, rfl, rfl⟩)
      · exact post_endTrying (.panLimit hfirst hpan)
      · exact post_endTrying (.tiltLimit hfirst hpan htilt)
      · have hresult : (if 2 < s.stableCountAfter f d then .trackingStable else .tracking)
            ≠ TEngagementState.lookingForTarget := by
          split <;> decide
        refine post_endTrying ?_
        rw [if_pos hresult]
        exact .aimed hfirst hpan htilt
  | none =>
      rw [show f.detectedMatches.find? (·.symbol = (s.autoEngage.target : Int)) = none
        from hfirst]
      refine (post_bind _ _ s _).mpr ((post_lookOn_eq f s).mono ?_)
      rintro state m (⟨htrying, rfl, rfl⟩ | ⟨htrying, htime, rfl, rfl⟩
        | ⟨htrying, htime, rfl, rfl⟩)
      · exact post_endTrying (.starts hfirst htrying)
      · exact post_endTrying (.goesOn hfirst htrying htime)
      · exact post_endTrying (.givesUp hfirst htrying htime)

theorem Matched.state {r : TEngagementState} {m : Server} (h : Matched s f r m) :
    m.autoEngage.state = s.autoEngage.state := by
  cases h <;> rfl

end TryToMatch

/-! ## One frame -/

/-- What is kept from one frame to the next. -/
structure Tracker where
  autoEngage : TAutoEngage
  pan : Rat
  tilt : Rat
  panServo : Rat
  tiltServo : Rat
  trying : Bool
  tbegin : Nat

def Server.tracker (s : Server) : Tracker where
  autoEngage := s.autoEngage
  pan := s.pan
  tilt := s.tilt
  panServo := s.panServo
  tiltServo := s.tiltServo
  trying := s.trying
  tbegin := s.tbegin

/-- The state of the sequencer becomes a result of `TryToMatch`; a stable target is
    engaged at once. -/
def Tracker.settle (r : TEngagementState) (k : Tracker) : Tracker :=
  { k with autoEngage :=
    { k.autoEngage with state := if r = .trackingStable then .engagementInProgress else r } }

theorem autoEngage_of_settle {r : TEngagementState} {m t : Server}
    (h : t.tracker = m.tracker.settle r) : t.autoEngage = { m.autoEngage with
      state := if r = .trackingStable then .engagementInProgress else r } :=
  congrArg Tracker.autoEngage h

/-- Any result but a stable target becomes the state. -/
theorem state_of_settle {r : TEngagementState} {m t : Server}
    (h : t.tracker = m.tracker.settle r) (hr : r ≠ .trackingStable) :
    t.autoEngage.state = r := by
  rw [autoEngage_of_settle h]
  exact if_neg hr

/-- `case NEW_TARGET`, on `AutoEngage`. -/
def TAutoEngage.select (a : TAutoEngage) : TAutoEngage :=
  { a with
    target := a.firingOrder[a.currentIndex]?.getD 0
    stableCount := 0
    lastPan := -9999999 / 100
    lastTilt := -9999999 / 100 }

/-- `TryToMatch` is called in this state. -/
def Server.Searches (s : Server) : Prop :=
  s.autoEngage.state = .activate ∨ s.autoEngage.state = .newTarget
    ∨ s.autoEngage.state = .lookingForTarget ∨ s.autoEngage.state = .tracking

instance (s : Server) : Decidable s.Searches := inferInstanceAs (Decidable (_ ∨ _ ∨ _ ∨ _))

/-- A new target is selected in this state. -/
def Server.Selects (s : Server) : Prop :=
  s.autoEngage.state = .activate ∨ s.autoEngage.state = .newTarget

instance (s : Server) : Decidable s.Selects := inferInstanceAs (Decidable (_ ∨ _))

/-- `AutoEngage` as `TryToMatch` finds it. -/
def TAutoEngage.searching (a : TAutoEngage) : TAutoEngage :=
  match a.state with
  | .activate => TAutoEngage.select { a with currentIndex := 0, state := .newTarget }
  | .newTarget => a.select
  | _ => a

def Server.searching (s : Server) : Server := { s with autoEngage := s.autoEngage.searching }

/-- What a frame makes of the tracker. -/
inductive FrameTracked (s : Server) (f : Frame) (t : Server) : Prop where
  /-- The target is looked for. -/
  | searches {r : TEngagementState} {m : Server} (hs : s.Searches)
      (hm : Matched s.searching f r m) (ht : t.tracker = m.tracker.settle r)
  /-- The sequencer is done with a target. -/
  | next {state : TEngagementState} (hs : s.autoEngage.state = .engagementComplete)
      (hstate : state = .notActive ∨ state = .newTarget)
      (ht : t.tracker = { s.tracker with autoEngage :=
        { s.autoEngage with currentIndex := s.autoEngage.currentIndex + 1, state := state } })
  | idle (hs : ¬ s.Searches) (hstate : s.autoEngage.state ≠ .engagementComplete)
      (ht : t.tracker = s.tracker)

section Frame

theorem blindToOutputs_tracker : BlindToOutputs Server.tracker where
  oled _ _ := rfl
  systemState _ _ := rfl
  gpio17 _ _ := rfl
  gpio18 _ _ := rfl

theorem keeps_tracker_send : Keeps Server.tracker sendCurrentState :=
  keeps_sendCurrentState blindToOutputs_tracker.oled

theorem acts_tracker_enterState (r : TEngagementState) :
    Acts Server.tracker (fun k => if r = .trackingStable then k.settle r else k)
      (enterState r) := by
  have harmed : ∀ value, Keeps Server.tracker (armed value) :=
    keeps_armed blindToOutputs_tracker
  refine Acts.read fun s => ?_
  cases r with
  | lookingForTarget | tracking =>
      exact (harmed _).keeps_bind fun _ =>
        keeps_tracker_send.keeps_bind fun _ => keeps_say _
  | trackingStable =>
      refine (keeps_say _).keeps_bind fun _ => ?_
      refine Acts.update_then (fun _ => rfl) fun _ => ?_
      refine (Acts.ask _).keeps_bind fun (_ : Int) => Acts.ite (Acts.exit _) ?_
      refine Acts.update fun s => ?_
      rw [Server.signal]
      split <;> rfl
  | engagementComplete => exact (keeps_say _).keeps_bind fun _ => keeps_auditlog _
  | notActive | activate | newTarget | engagementInProgress => exact Acts.pure ()

/-- The result of `TryToMatch` is entered. -/
theorem post_settle (r : TEngagementState) (newState : Bool) {m : Server}
    (hm : m.autoEngage.state ≠ .trackingStable) :
    Post (do
      let s ← fetch
      let changed := decide (s.autoEngage.state ≠ r)
      if changed then updateAuto fun a => { a with state := r } else pure ()
      if newState || changed then enterState r else pure () : Prog Unit) m
      (fun _ t => t.tracker = m.tracker.settle r) := by
  refine (post_bind _ _ m _).mpr ((post_fetch m _).mpr ?_)
  by_cases hsame : m.autoEngage.state = r
  · -- nothing is written, which is writing the state it has
    have hr : r ≠ .trackingStable := hsame ▸ hm
    have hsettle : m.tracker.settle r = m.tracker := by
      rw [Tracker.settle, if_neg hr, ← hsame]
      rfl
    have henter : Keeps Server.tracker (enterState r) :=
      (acts_tracker_enterState r).congr fun _ => if_neg hr
    have hrest : Keeps Server.tracker
        (if newState || false then enterState r else pure ()) :=
      henter.ite (Acts.pure ())
    rw [hsettle, decide_eq_false (fun h => h hsame)]
    exact hrest m
  · have henter : Acts Server.tracker (fun k => if r = .trackingStable then k.settle r else k)
        (if newState || true then enterState r else pure ()) := by
      rw [Bool.or_true, if_pos rfl]
      exact acts_tracker_enterState r
    have hrest : Acts Server.tracker (Tracker.settle r) (do
        updateAuto fun a => { a with state := r }
        if newState || true then enterState r else pure () : Prog Unit) := by
      refine Acts.seq (fun k => { k with autoEngage := { k.autoEngage with state := r } }) _
        (Acts.update fun _ => rfl) (fun _ => henter) fun k => ?_
      by_cases hr : r = .trackingStable
      · rw [if_pos hr, Tracker.settle, Tracker.settle]
      · rw [if_neg hr, Tracker.settle, if_neg hr]
    rw [decide_eq_true hsame]
    exact hrest m

/-- `case LOOKING_FOR_TARGET` and `case TRACKING`. -/
theorem post_track_tracker (f : Frame) (newState : Bool) {s : Server}
    (hstate : s.autoEngage.state ≠ .trackingStable) :
    Post (track f newState) s (fun _ t =>
      ∃ r m, Matched s f r m ∧ t.tracker = m.tracker.settle r) := by
  refine (post_bind _ _ s _).mpr ((matched_tryToMatch f s).mono ?_)
  intro r m hm
  refine (post_settle r newState (hm.state ▸ hstate)).mono ?_
  intro _ t ht
  exact ⟨r, m, hm, ht⟩

/-- `case ENGAGEMENT_COMPLETE`. -/
theorem post_nextTarget_tracker (s : Server) :
    Post nextTarget s (fun _ t => ∃ state : TEngagementState,
      (state = .notActive ∨ state = .newTarget)
        ∧ t.tracker = { s.tracker with autoEngage := { s.autoEngage with
            currentIndex := s.autoEngage.currentIndex + 1
            state := state } }) := by
  refine (post_bind _ _ s _).mpr ((post_update _ s _).mpr ?_)
  refine (post_bind _ _ _ _).mpr ((post_fetch _ _).mpr ?_)
  have hset : ∀ state : TEngagementState, Acts Server.tracker
      (fun k => { k with autoEngage := { k.autoEngage with state := state } })
      (updateAuto fun a => { a with state := state }) :=
    fun state => Acts.update fun _ => rfl
  have hlast : Keeps Server.tracker (do
      update fun s => { s with systemState := prearmed }
      sendCurrentState
      say "Target List Completed" : Prog Unit) :=
    Acts.update_then (fun _ => rfl) fun _ => keeps_tracker_send.keeps_bind fun _ => keeps_say _
  split
  · refine ((hset .notActive).bind_keeps (fun _ => hlast) _).mono ?_
    intro _ t ht
    exact ⟨.notActive, Or.inl rfl, ht⟩
  · refine (hset .newTarget _).mono ?_
    intro _ t ht
    exact ⟨.newTarget, Or.inr rfl, ht⟩

theorem post_frameTracked (f : Frame) (s : Server) :
    Post (processTargetEngagements f) s (fun _ t => FrameTracked s f t) := by
  -- `TryToMatch` finds the server with the target selected
  have htrack : ∀ {newState : Bool} {m : Server}, s.Searches → m = s.searching →
      m.autoEngage.state ≠ .trackingStable →
      Post (track f newState) m (fun _ t => FrameTracked s f t) := by
    rintro newState m hs rfl hm
    refine (post_track_tracker f newState hm).mono ?_
    rintro _ t ⟨r, m, hm, ht⟩
    exact .searches hs hm ht
  refine (post_bind _ _ s _).mpr ((post_fetch s _).mpr ?_)
  cases hstate : s.autoEngage.state with
  | notActive | trackingStable | engagementInProgress =>
      refine (post_pure () s _).mpr (.idle ?_ ?_ rfl)
      · rw [Server.Searches, hstate]
        decide
      · rw [hstate]
        decide
  | engagementComplete =>
      refine (post_nextTarget_tracker s).mono ?_
      rintro _ t ⟨state, hnext, ht⟩
      exact .next hstate hnext ht
  | activate =>
      refine (post_bind _ _ s _).mpr ((post_update _ s _).mpr ?_)
      refine (post_bind _ _ _ _).mpr ((post_update _ _ _).mpr ?_)
      refine htrack (Or.inl hstate) ?_ (by rintro ⟨⟩)
      rw [Server.searching, TAutoEngage.searching, hstate]
      rfl
  | newTarget =>
      refine (post_bind _ _ s _).mpr ((post_update _ s _).mpr ?_)
      refine htrack (Or.inr (Or.inl hstate)) ?_ ?_
      · rw [Server.searching, TAutoEngage.searching, hstate]
        rfl
      · exact fun h => TEngagementState.noConfusion (hstate.symm.trans h)
  | lookingForTarget =>
      refine htrack (Or.inr (Or.inr (Or.inl hstate))) ?_ (by rw [hstate]; decide)
      rw [Server.searching, TAutoEngage.searching, hstate]
  | tracking =>
      refine htrack (Or.inr (Or.inr (Or.inr hstate))) ?_ (by rw [hstate]; decide)
      rw [Server.searching, TAutoEngage.searching, hstate]

end Frame

/-- In a state in which `TryToMatch` is called, it is called once. -/
theorem FrameTracked.matched {f : Frame} {s t : Server} (h : FrameTracked s f t)
    (hs : s.Searches) :
    ∃ r m, Matched s.searching f r m ∧ t.tracker = m.tracker.settle r := by
  cases h with
  | @searches r m _ hm ht => exact ⟨r, m, hm, ht⟩
  | next hstate =>
      rw [Server.Searches, hstate] at hs
      exact absurd hs (by decide)
  | idle hno => exact absurd hs hno

/-- In another state no target is pursued afterwards, and none engaged that was not
    before. -/
theorem FrameTracked.at_rest {f : Frame} {s t : Server} (h : FrameTracked s f t)
    (hs : ¬ s.Searches) :
    (t.autoEngage.state ≠ .lookingForTarget ∧ t.autoEngage.state ≠ .tracking)
      ∧ (t.autoEngage.state = .engagementInProgress →
        s.autoEngage.state = .engagementInProgress) := by
  cases h with
  | searches hyes => exact absurd hyes hs
  | @next state hstate hnext ht =>
      have hauto : t.autoEngage.state = state := congrArg (fun k => k.autoEngage.state) ht
      rw [hauto]
      rcases hnext with rfl | rfl
      · exact ⟨by decide, fun h => TEngagementState.noConfusion h⟩
      · exact ⟨by decide, fun h => TEngagementState.noConfusion h⟩
  | idle _ _ ht =>
      have hauto : t.autoEngage.state = s.autoEngage.state :=
        congrArg (fun k => k.autoEngage.state) ht
      rw [hauto]
      refine ⟨⟨fun h => hs ?_, fun h => hs ?_⟩, id⟩
      · exact Or.inr (Or.inr (Or.inl h))
      · exact Or.inr (Or.inr (Or.inr h))

/-! ## Messages and the thread -/

/-- The recorded aim is inside its limits, and where the servos stand. -/
def Tracker.Aimed (k : Tracker) : Prop :=
  (minPan ≤ k.pan ∧ k.pan ≤ maxPan) ∧ (minTilt ≤ k.tilt ∧ k.tilt ≤ maxTilt)
    ∧ k.pan = k.panServo ∧ k.tilt = k.tiltServo

def Server.Aimed (s : Server) : Prop := s.tracker.Aimed

/-- The sequencer is after a target it has selected. -/
def Server.Pursues (s : Server) : Prop :=
  s.autoEngage.state = .lookingForTarget ∨ s.autoEngage.state = .tracking

instance (s : Server) : Decidable s.Pursues := inferInstanceAs (Decidable (_ ∨ _))

/-- What everything but a frame makes of the tracker. -/
structure Handled (s t : Server) : Prop where
  stableCount : t.autoEngage.stableCount = s.autoEngage.stableCount
  lastPan : t.autoEngage.lastPan = s.autoEngage.lastPan
  lastTilt : t.autoEngage.lastTilt = s.autoEngage.lastTilt
  trying : t.trying = s.trying
  tbegin : t.tbegin = s.tbegin
  /-- Only a frame starts to pursue a target. -/
  pursues : t.Pursues → t.autoEngage.state = s.autoEngage.state
    ∧ t.autoEngage.target = s.autoEngage.target
  aimed : s.Aimed → t.Aimed

theorem Handled.of_tracker {s t : Server} (h : t.tracker = s.tracker) : Handled s t where
  stableCount := congrArg (fun k => k.autoEngage.stableCount) h
  lastPan := congrArg (fun k => k.autoEngage.lastPan) h
  lastTilt := congrArg (fun k => k.autoEngage.lastTilt) h
  trying := congrArg Tracker.trying h
  tbegin := congrArg Tracker.tbegin h
  pursues _ := ⟨congrArg (fun k => k.autoEngage.state) h,
    congrArg (fun k => k.autoEngage.target) h⟩
  aimed hs := by
    rw [Server.Aimed, h]
    exact hs

theorem Handled.trans {s m t : Server} (h : Handled s m) (k : Handled m t) : Handled s t where
  stableCount := k.stableCount.trans h.stableCount
  lastPan := k.lastPan.trans h.lastPan
  lastTilt := k.lastTilt.trans h.lastTilt
  trying := k.trying.trans h.trying
  tbegin := k.tbegin.trans h.tbegin
  pursues ht := by
    obtain ⟨hstate, htarget⟩ := k.pursues ht
    have hm : m.Pursues := by
      rw [Server.Pursues, ← hstate]
      exact ht
    obtain ⟨hstate', htarget'⟩ := h.pursues hm
    exact ⟨hstate.trans hstate', htarget.trans htarget'⟩
  aimed hs := k.aimed (h.aimed hs)

instance : IsPreorder Server Handled where
  refl _ := .of_tracker rfl
  trans _ _ _ := .trans

section Handled

theorem handled_of_keeps {α : Type} {p : Prog α} (hp : Keeps Server.tracker p) :
    Guarantees Handled p :=
  Guarantees.of_keeps hp fun _ _ => .of_tracker

/-- A write to what `TryToMatch` does not look at, and what comes after. -/
theorem handled_write {α : Type} {f : Server → Server} {q : Unit → Prog α}
    (hf : ∀ s, (f s).tracker = s.tracker) (hq : Guarantees Handled (q ())) :
    Guarantees Handled (update f >>= q) :=
  (Guarantees.update fun s => .of_tracker (hf s)).bind fun _ => hq

/-- A write to `AutoEngage` that leaves the aim and the count alone, and after
    which nothing is pursued that was not before. -/
theorem handled_updateAuto {g : TAutoEngage → TAutoEngage}
    (haim : ∀ a, (g a).stableCount = a.stableCount ∧ (g a).lastPan = a.lastPan
      ∧ (g a).lastTilt = a.lastTilt)
    (hpursues : ∀ a, ((g a).state = .lookingForTarget ∨ (g a).state = .tracking) →
      (g a).state = a.state ∧ (g a).target = a.target) :
    Guarantees Handled (updateAuto g) :=
  Guarantees.update fun s => {
    stableCount := (haim s.autoEngage).1
    lastPan := (haim s.autoEngage).2.1
    lastTilt := (haim s.autoEngage).2.2
    trying := rfl
    tbegin := rfl
    pursues := hpursues s.autoEngage
    aimed := id }

/-- A write that stops the sequencer, or starts it over. -/
theorem handled_stop {g : TAutoEngage → TAutoEngage} {state : TEngagementState}
    (haim : ∀ a, (g a).stableCount = a.stableCount ∧ (g a).lastPan = a.lastPan
      ∧ (g a).lastTilt = a.lastTilt)
    (hg : ∀ a, (g a).state = state)
    (hstate : ¬ (state = .lookingForTarget ∨ state = .tracking)) :
    Guarantees Handled (updateAuto g) :=
  handled_updateAuto haim fun a h => absurd (hg a ▸ h) hstate

/-- A pan or tilt command leaves the servo at the recorded angle. -/
theorem handled_step (num : ServoNum) (delta : Rat) : Guarantees Handled (step num delta) := by
  intro s
  refine (post_bind _ _ s _).mpr ((post_update _ s _).mpr ?_)
  refine (post_servoAngle num _).mono ?_
  rintro _ t rfl
  obtain ⟨hmin, hmax⟩ := num.clamp_inside ((s.setAngle (s.angle num + delta) num).angle num)
  cases num with
  | panServo => exact ⟨rfl, rfl, rfl, rfl, rfl, fun _ => ⟨rfl, rfl⟩,
      fun h => ⟨⟨hmin, hmax⟩, h.2.1, rfl, h.2.2.2⟩⟩
  | tiltServo => exact ⟨rfl, rfl, rfl, rfl, rfl, fun _ => ⟨rfl, rfl⟩,
      fun h => ⟨h.1, ⟨hmin, hmax⟩, h.2.2.1, rfl⟩⟩

/-! ### The handlers -/

theorem handled_say (text : String) : Guarantees Handled (say text) :=
  handled_of_keeps (keeps_say text)

theorem handled_send : Guarantees Handled sendCurrentState :=
  handled_of_keeps keeps_tracker_send

theorem handled_auditlog (msg : String) : Guarantees Handled (auditlog msg) :=
  handled_of_keeps (keeps_auditlog msg)

theorem handled_fire (value : Bool) : Guarantees Handled (fire value) :=
  handled_of_keeps (keeps_fire blindToOutputs_tracker value)

theorem handled_laser (value : Bool) : Guarantees Handled (laser value) :=
  handled_of_keeps (keeps_laser blindToOutputs_tracker value)

theorem handled_calibrate (value : Bool) : Guarantees Handled (calibrate value) :=
  handled_of_keeps (keeps_calibrate blindToOutputs_tracker value)

theorem handled_setState (state : SystemState) : Guarantees Handled (setState state) :=
  Guarantees.update fun _ => .of_tracker rfl

theorem handled_runCmd (on off : UInt8) : Guarantees Handled (runCmd on off) :=
  Guarantees.update fun _ => .of_tracker rfl

theorem handled_clear : Guarantees Handled (updateAuto TAutoEngage.clear) :=
  handled_stop (fun _ => ⟨rfl, rfl, rfl⟩) (fun _ => rfl) (by decide)

theorem handled_processLogin (P : Platform) (m : Received) :
    Guarantees Handled (processLogin P m) := by
  refine Guarantees.read fun s => ?_
  cases checkLogin P m s.user with
  | none => exact Guarantees.exit _
  | some result =>
      obtain ⟨lState, user⟩ := result
      refine handled_write (fun _ => rfl) ?_
      refine (handled_of_keeps (keeps_sendLoginState _)).bind fun _ => ?_
      refine handled_write (fun _ => rfl) (Guarantees.read fun _ => Guarantees.ite ?_ ?_)
      · refine (Guarantees.ask _).bind fun (_ : Int) => Guarantees.ite (Guarantees.exit _) ?_
        exact Guarantees.update fun _ => .of_tracker rfl
      · exact Guarantees.pure ()

theorem handled_processCamStateChangeRequest (state : BitVec 32) :
    Guarantees Handled (processCamStateChangeRequest state) :=
  handled_of_keeps (keeps_processCamStateChangeRequest (fun _ _ => rfl) state)

theorem handled_processCommands (cmd : UInt8) : Guarantees Handled (processCommands cmd) := by
  have hmove : ∀ on off num delta, Guarantees Handled (do
      runCmd on off
      step num delta) := fun on off num delta =>
    (handled_runCmd on off).bind fun _ => handled_step num delta
  have hfire : ∀ on off value, Guarantees Handled (do
      runCmd on off
      fire value
      sendCurrentState) := fun on off value =>
    (handled_runCmd on off).bind fun _ => (handled_fire value).bind fun _ => handled_send
  have hstop : ∀ off, Guarantees Handled (runCmd 0 off) := handled_runCmd 0
  refine Guarantees.read fun _ => Guarantees.ite (Guarantees.pure ()) ?_
  refine Guarantees.ite (Guarantees.pure ()) ?_
  refine Guarantees.ite (hmove _ _ _ _) (Guarantees.ite (hmove _ _ _ _) ?_)
  refine Guarantees.ite (hmove _ _ _ _) (Guarantees.ite (hmove _ _ _ _) ?_)
  refine Guarantees.ite (hfire _ _ _) (Guarantees.ite (hstop _) (Guarantees.ite (hstop _) ?_))
  refine Guarantees.ite (hstop _) (Guarantees.ite (hstop _) ?_)
  exact Guarantees.ite (hfire _ _ _) (Guarantees.pure ())

theorem handled_processCalibCommands (cmd : UInt8) :
    Guarantees Handled (processCalibCommands cmd) :=
  handled_of_keeps (keeps_processCalibCommands ⟨fun _ _ => rfl, fun _ _ => rfl⟩ cmd)

/-- An order stops the sequencer before it is looked at. -/
theorem handled_processFiringOrder (firingOrder : Bytes) :
    Guarantees Handled (processFiringOrder firingOrder) := by
  have hstop : Guarantees Handled (updateAuto fun a => { a.clear with target := 0 }) :=
    handled_stop (fun _ => ⟨rfl, rfl, rfl⟩) (fun _ => rfl) (by decide)
  have horder : ∀ order, Guarantees Handled
      (updateAuto fun a => { a with firingOrder := order }) := fun _ =>
    handled_updateAuto (fun _ => ⟨rfl, rfl, rfl⟩) fun _ _ => ⟨rfl, rfl⟩
  have hhave : ∀ value, Guarantees Handled
      (updateAuto fun a => { a with haveFiringOrder := value }) := fun _ =>
    handled_updateAuto (fun _ => ⟨rfl, rfl, rfl⟩) fun _ _ => ⟨rfl, rfl⟩
  have hnumber : ∀ len, Guarantees Handled
      (updateAuto fun a => { a with numberOfTartgets := len }) := fun _ =>
    handled_updateAuto (fun _ => ⟨rfl, rfl, rfl⟩) fun _ _ => ⟨rfl, rfl⟩
  refine hstop.bind fun _ => Guarantees.ite (Guarantees.pure ()) (Guarantees.read fun s => ?_)
  refine (horder _).bind fun _ => ?_
  refine Guarantees.ite (Guarantees.pure ()) (Guarantees.ite ?_ ?_)
  · exact (hhave true).bind fun _ => hnumber _
  · exact (hhave false).bind fun _ => handled_say _

theorem handled_processPreArm (code : Bytes) : Guarantees Handled (processPreArm code) := by
  refine Guarantees.read fun _ => Guarantees.ite (Guarantees.ite ?_ (handled_say _))
    (Guarantees.pure ())
  exact Guarantees.ite (handled_write (fun _ => rfl) handled_send) (Guarantees.pure ())

theorem handled_requestSafe (state : SystemState) : Guarantees Handled (requestSafe state) :=
  (handled_laser _).bind fun _ => (handled_calibrate _).bind fun _ =>
    (handled_fire _).bind fun _ => (handled_setState _).bind fun _ => handled_clear

theorem handled_requestPrearmed (state : SystemState) :
    Guarantees Handled (requestPrearmed state) := by
  refine Guarantees.read fun _ => Guarantees.ite ?_ (Guarantees.pure ())
  refine (handled_laser _).bind fun _ => (handled_fire _).bind fun _ => ?_
  refine (handled_calibrate _).bind fun _ => Guarantees.read fun _ => Guarantees.ite ?_ ?_
  · exact handled_clear.bind fun _ => handled_setState _
  · exact handled_setState _

theorem handled_requestEngageAuto (state : SystemState) :
    Guarantees Handled (requestEngageAuto state) := by
  refine Guarantees.read fun _ => Guarantees.ite (handled_say _) ?_
  refine Guarantees.ite (handled_say _) ((handled_laser _).bind fun _ => ?_)
  refine (handled_calibrate _).bind fun _ => (handled_fire _).bind fun _ => ?_
  refine (handled_setState _).bind fun _ => ?_
  exact handled_stop (fun _ => ⟨rfl, rfl, rfl⟩) (fun _ => rfl) (by decide)

theorem handled_requestArmedManual (state : SystemState) :
    Guarantees Handled (requestArmedManual state) := by
  refine Guarantees.read fun _ => Guarantees.ite (handled_say _) ?_
  refine Guarantees.ite ?_ (handled_setState _)
  exact (handled_laser _).bind fun _ => (handled_calibrate _).bind fun _ =>
    (handled_fire _).bind fun _ => handled_setState _

theorem handled_applyFlags : Guarantees Handled applyFlags := by
  have hini : BlindToIni Server.tracker := ⟨fun _ _ => rfl, fun _ _ => rfl⟩
  have holed : BlindToOled Server.tracker := blindToOutputs_tracker.oled
  refine Guarantees.read fun _ => (handled_laser _).bind fun _ => ?_
  refine Guarantees.read fun _ => Guarantees.ite ?_ ?_
  · exact (handled_calibrate _).bind fun _ => handled_of_keeps (keeps_calibrationOn hini holed)
  · exact (handled_calibrate _).bind fun _ => handled_of_keeps (keeps_calibrationOff hini holed)

theorem handled_processStateChangeRequest (state : SystemState) :
    Guarantees Handled (processStateChangeRequest state) := by
  have hthen : ∀ {p : Prog Unit}, Guarantees Handled p →
      Guarantees Handled (p >>= fun _ => applyFlags) :=
    fun hp => hp.bind fun _ => handled_applyFlags
  refine Guarantees.ite (hthen (handled_requestSafe _)) ?_
  refine Guarantees.ite (hthen (handled_requestPrearmed _)) ?_
  refine Guarantees.ite (hthen (handled_requestEngageAuto _)) ?_
  exact Guarantees.ite (hthen (handled_requestArmedManual _)) handled_applyFlags

theorem handled_dispatch (P : Platform) (m : Received) :
    Guarantees Handled (dispatch P m) := by
  have hlogged : ∀ {name : String} {p : Prog Unit}, Guarantees Handled p →
      Guarantees Handled (do auditlog name; p) :=
    fun hp => (handled_auditlog _).bind fun _ => hp
  refine Guarantees.ite (hlogged (handled_processLogin P _)) (Guarantees.read fun _ => ?_)
  refine Guarantees.ite (Guarantees.pure ()) ?_
  refine Guarantees.ite (hlogged (handled_processCamStateChangeRequest _)) ?_
  refine Guarantees.ite (hlogged (handled_processCommands _)) ?_
  refine Guarantees.ite (hlogged (handled_processCalibCommands _)) ?_
  refine Guarantees.ite (hlogged (handled_processFiringOrder _)) ?_
  refine Guarantees.ite (hlogged (handled_processPreArm _)) ?_
  exact Guarantees.ite (hlogged (handled_processStateChangeRequest _)) (handled_auditlog _)

theorem handled_engagementStatement : Guarantees Handled engagementStatement := by
  have hgo : ∀ {α : Type} {p : Prog α} {pc : EngagementPc}, Guarantees Handled p →
      Guarantees Handled (p >>= fun _ => goto pc) :=
    fun hp => hp.bind fun _ => Guarantees.update fun _ => .of_tracker rfl
  refine Guarantees.read fun s => ?_
  cases s.engagement with
  | wait => exact hgo (handled_of_keeps (keeps_lock _))
  | waiting => exact handled_of_keeps keeps_never
  | laserTrue | laserFalse => exact hgo (handled_laser _)
  | fireTrue | fireFalse => exact hgo (handled_fire _)
  | armedFalse => exact hgo (handled_of_keeps (keeps_armed blindToOutputs_tracker _))
  | sendLaser | sendFire | sendEngaged => exact hgo handled_send
  | printfEngaged => exact hgo (handled_say _)
  | setComplete =>
      exact hgo (handled_stop (fun _ => ⟨rfl, rfl, rfl⟩) (fun _ => rfl) (by decide))
  | unlock => exact hgo (handled_of_keeps (keeps_unlock _))

theorem handled_wakeUp : Guarantees Handled wakeUp :=
  Guarantees.read fun _ =>
    Guarantees.ite (Guarantees.update fun _ => .of_tracker rfl) (handled_of_keeps keeps_never)

end Handled

/-! ## A step of the server -/

/-- What a step of the server makes of the tracker. -/
inductive StepTracked (s : Server) : Act → Server → Prop where
  | frame {f : Frame} {t : Server} (h : FrameTracked s f t) : StepTracked s (.frame f) t
  | handled {a : Act} {t : Server} (ha : ∀ f, a ≠ .frame f) (h : Handled s t) :
      StepTracked s a t

theorem step_tracked {P : Platform} {s t : Server} {a : Act} (hst : Step P s a t) :
    StepTracked s a t := by
  cases a with
  | message m => exact .handled (by rintro _ ⟨⟩) (handled_dispatch P m s () t hst)
  | frame f => exact .frame (post_frameTracked f s () t hst)
  | statement => exact .handled (by rintro _ ⟨⟩) (handled_engagementStatement s () t hst)
  | spuriousWakeup => exact .handled (by rintro _ ⟨⟩) (handled_wakeUp s () t hst)

end DemoCannon
