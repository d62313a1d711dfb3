import DemoCannon.Device

/-! # Automatic engagement: the sequencer and its thread

    `ProcessTargetEngagements` is called once for each camera frame and works
    through the firing order; when a target is tracked stably it signals
    `EngagementThread`, which fires at it.  The two meet only in
    `AutoEngage.State` and the condition variable. -/

namespace DemoCannon

open Interaction Interaction.Program SystemState

/-- An entry of `DetectedMatches`: the symbol and its center in the image. -/
structure TDetectedMatches where
  symbol : Int
  centerX : Rat
  centerY : Rat
  deriving DecidableEq, Repr

/-- What a call of `ProcessTargetEngagements` is given: the detections of the
    frame, its size, and the reading of `steady_clock` in nanoseconds. -/
structure Frame where
  detectedMatches : List TDetectedMatches
  width : Nat
  height : Nat
  now : Nat
  deriving DecidableEq, Repr

/-- `SKIP_DELAY_MS`. -/
def skipDelayMs : Nat := 5000

/-- `fabs`. -/
def fabs (x : Rat) : Rat := if x < 0 then -x else x

/-- `compare_float` with its default epsilon. -/
def compareFloat (x y : Rat) : Bool := fabs (x - y) < 1 / 2

/-- Write `AutoEngage`. -/
def updateAuto (f : TAutoEngage → TAutoEngage) : Prog Unit :=
  update fun s => { s with autoEngage := f s.autoEngage }

/-! ## `TryToMatch` -/

/-- The stability count at the end of an update of the aim. -/
def countStable : Prog TEngagementState := do
  let s ← fetch
  let auto := s.autoEngage
  let stableCount :=
    if compareFloat auto.lastPan s.pan && compareFloat auto.lastTilt s.tilt
    then auto.stableCount + 1 else 0
  updateAuto fun a =>
    { a with stableCount := stableCount, lastPan := s.pan, lastTilt := s.tilt }
  pure (if 2 < stableCount then .trackingStable else .tracking)

/-- The tilt half of an update of the aim. -/
def aimTilt (f : Frame) (d : TDetectedMatches) : Prog TEngagementState := do
  let s ← fetch
  let tiltError := (d.centerY + s.yCorrect) - (f.height / 2 : Nat)
  update fun s => { s with tilt := s.tilt - tiltError / 75 }
  let s ← fetch
  if minTilt < s.tilt ∧ s.tilt < maxTilt then
    servoAngle .tiltServo
    countStable
  else
    say "Skip because of Tilt Limit"
    pure .engagementComplete

/-- The update of the aim for a match of the target, pan first. -/
def aimAt (f : Frame) (d : TDetectedMatches) : Prog TEngagementState := do
  let s ← fetch
  let panError := (d.centerX + s.xCorrect) - (f.width / 2 : Nat)
  update fun s => { s with pan := s.pan - panError / 75 }
  let s ← fetch
  if minPan < s.pan ∧ s.pan < maxPan then
    servoAngle .panServo
    aimTilt f d
  else
    say "Skip because of Pan Limit"
    pure .engagementComplete

/-- The time-out of `TryToMatch` when nothing matched. -/
def lookOn (f : Frame) : Prog TEngagementState := do
  let s ← fetch
  if s.trying = false then
    update fun s => { s with trying := true, tbegin := f.now }
    pure .lookingForTarget
  else if skipDelayMs < (f.now - s.tbegin) / 1000000 then
    pure .engagementComplete
  else
    pure .lookingForTarget

/-- `TryToMatch`: the first match of the target decides. -/
def tryToMatch (f : Frame) : Prog TEngagementState := do
  let s ← fetch
  let state ←
    match f.detectedMatches.find? (·.symbol = (s.autoEngage.target : Int)) with
    | some d => aimAt f d
    | none => lookOn f
  if state ≠ .lookingForTarget then
    update fun s => { s with trying := false }
  else pure ()
  pure state

/-! ## `ProcessTargetEngagements` -/

/-- What `pthread_cond_signal` does to `EngagementThread`: it is woken if it
    is blocked in `pthread_cond_wait`, else the signal is lost. -/
def Server.signal (s : Server) : Server :=
  if s.engagement = .waiting then { s with engagement := .laserTrue } else s

/-- `case NEW_TARGET`. -/
def selectTarget : Prog Unit :=
  updateAuto fun a =>
    { a with
      target := a.firingOrder[a.currentIndex]?.getD 0
      stableCount := 0
      lastPan := -9999999 / 100
      lastTilt := -9999999 / 100 }

/-- What the sequencer does when it enters a state. -/
def enterState (state : TEngagementState) : Prog Unit := do
  let s ← fetch
  let target := s.autoEngage.target
  match state with
  | .lookingForTarget =>
      armed false
      sendCurrentState
      say s!"Looking for Target {target}"
  | .tracking =>
      armed true
      sendCurrentState
      say s!"Tracking Target Unstable {target}"
  | .trackingStable =>
      say s!"Target Tracking Stable {target}"
      updateAuto fun a => { a with state := .engagementInProgress }
      let retval : Int ← call .condSignal
      if retval ≠ 0 then .exit .condSignal else update Server.signal
  | .engagementComplete =>
      say s!"Target not found, skipped target: {target}\n"
      auditlog "Target not found, skipped target"
  | _ => pure ()

/-- `case LOOKING_FOR_TARGET` and `case TRACKING`, with `NewState` as the
    cases before them leave it. -/
def track (f : Frame) (newState : Bool) : Prog Unit := do
  let state ← tryToMatch f
  let s ← fetch
  let changed := decide (s.autoEngage.state ≠ state)
  if changed then updateAuto fun a => { a with state := state } else pure ()
  if newState || changed then enterState state else pure ()

/-- `case ENGAGEMENT_COMPLETE`. -/
def nextTarget : Prog Unit := do
  updateAuto fun a => { a with currentIndex := a.currentIndex + 1 }
  let s ← fetch
  if s.autoEngage.numberOfTartgets ≤ s.autoEngage.currentIndex then
    updateAuto fun a => { a with state := .notActive }
    -- whatever the state was, and without switching an output off
    update fun s => { s with systemState := prearmed }
    sendCurrentState
    say "Target List Completed"
  else
    updateAuto fun a => { a with state := .newTarget }

/-- `ProcessTargetEngagements`. -/
def processTargetEngagements (f : Frame) : Prog Unit := do
  let s ← fetch
  match s.autoEngage.state with
  | .notActive => pure ()
  | .activate =>
      -- falls through to `NEW_TARGET`
      updateAuto fun a => { a with currentIndex := 0, state := .newTarget }
      selectTarget
      track f true
  | .newTarget =>
      selectTarget
      track f true
  | .lookingForTarget => track f false
  | .tracking => track f false
  | .engagementInProgress => pure ()
  | .engagementComplete => nextTarget
  | .trackingStable => pure ()

/-! ## `EngagementThread` -/

/-- Go on to the next statement. -/
def goto (pc : EngagementPc) : Prog Unit :=
  update fun s => { s with engagement := pc }

/-- One statement of `EngagementThread`.  The mutex is only ever taken by this
    thread, so its error exits are not taken. -/
def engagementStatement : Prog Unit := do
  let s ← fetch
  match s.engagement with
  | .wait =>
      lock .engmnt
      goto .waiting
  | .waiting => never
  | .laserTrue =>
      laser true
      goto .sendLaser
  | .sendLaser =>
      sendCurrentState
      goto .fireTrue
  | .fireTrue =>
      -- 1.5 s after the laser; only `fire` looks at the state again
      fire true
      goto .sendFire
  | .sendFire =>
      sendCurrentState
      goto .fireFalse
  | .fireFalse =>
      fire false
      goto .laserFalse
  | .laserFalse =>
      laser false
      goto .armedFalse
  | .armedFalse =>
      armed false
      goto .sendEngaged
  | .sendEngaged =>
      sendCurrentState
      goto .printfEngaged
  | .printfEngaged =>
      say s!"Engaged Target {s.autoEngage.target}"
      goto .setComplete
  | .setComplete =>
      updateAuto fun a => { a with state := .engagementComplete }
      goto .unlock
  | .unlock =>
      unlock .engmnt
      goto .wait

end DemoCannon
