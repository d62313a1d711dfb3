import DemoCannon.Handlers

/-! # The control of the outputs

    What decides about the cannon and the laser is a small part of the state:
    the state word, the state of the sequencer with its firing order, the two
    pins, the login and the place where `EngagementThread` is.  `Control` is a
    machine on that part alone, without sends, log, servos, offsets and user
    table, with an event for each kind of step.

    The server is connected to it in `DemoCannon.Refinement`. -/

namespace DemoCannon

open Interaction Interaction.Program SystemState

/-- What decides about the outputs. -/
structure Control where
  systemState : SystemState
  state : TEngagementState
  haveFiringOrder : Bool
  numberOfTartgets : Nat
  currentIndex : Nat
  gpio17 : Bool
  gpio18 : Bool
  isLoggedIn : Bool
  engagement : EngagementPc
  deriving DecidableEq

/-- The control part of the server. -/
def Server.control (s : Server) : Control where
  systemState := s.systemState
  state := s.autoEngage.state
  haveFiringOrder := s.autoEngage.haveFiringOrder
  numberOfTartgets := s.autoEngage.numberOfTartgets
  currentIndex := s.autoEngage.currentIndex
  gpio17 := s.gpio17
  gpio18 := s.gpio18
  isLoggedIn := s.isLoggedIn
  engagement := s.engagement

/-! ## The machine -/

namespace Control

/-- The base state. -/
def base (c : Control) : SystemState := c.systemState.base

/-- Switch the cannon; in a state without permission the attempt to fire makes
    the state PREARMED. -/
def fire (value : Bool) (c : Control) : Control :=
  if value = true ∧ firingDenied c.systemState then
    { c with systemState := prearmed }
  else
    { c with
      systemState :=
        if value then c.systemState ||| firing
        else c.systemState &&& clearFiringMask
      gpio17 := value }

/-- Set or clear a flag of the state word. -/
def flag (f : SystemState) (value : Bool) (c : Control) : Control :=
  { c with
    systemState :=
      if value then c.systemState ||| f else c.systemState &&& ~~~f }

/-- Switch the laser. -/
def laser (value : Bool) (c : Control) : Control :=
  { c.flag laserOn value with gpio18 := value }

/-- Everything off, in base state `b`. -/
def standDown (b : SystemState) (c : Control) : Control :=
  { c with systemState := b, gpio17 := false, gpio18 := false }

/-- No firing order and the sequencer at rest. -/
def clearOrder (c : Control) : Control :=
  { c with state := .notActive, haveFiringOrder := false, numberOfTartgets := 0 }

/-- A request before its end. -/
def change (state : SystemState) (c : Control) : Control :=
  if state.base = safe then (c.standDown safe).clearOrder
  else if state.base = prearmed then
    if c.base = engageAuto then (c.standDown prearmed).clearOrder
    else if c.base = armedManual then c.standDown prearmed
    else c
  else if state.base = engageAuto then
    if c.base = prearmed ∧ c.haveFiringOrder = true then
      { c.standDown engageAuto with state := .activate }
    else c
  else if state.base = armedManual then
    if c.base = prearmed then c.standDown armedManual
    else if c.base = armedManual then { c with systemState := state }
    else c
  else c

/-- The laser as the state word has it. -/
def showLaser (c : Control) : Control :=
  { c with gpio18 := has c.systemState laserOn }

/-- A state change request. -/
def request (state : SystemState) (c : Control) : Control :=
  (c.change state).showLaser

/-- A firing order is a string of one to ten digits. -/
def IsOrder (firingOrder : Bytes) : Prop :=
  0 < strlen firingOrder ∧ strlen firingOrder ≤ 10
    ∧ (firingOrder.take (strlen firingOrder)).all isDigit = true

instance (firingOrder : Bytes) : Decidable (IsOrder firingOrder) :=
  inferInstanceAs (Decidable (_ ∧ _ ∧ _))

/-- A new firing order. -/
def order (firingOrder : Bytes) (c : Control) : Control :=
  if IsOrder firingOrder then
    { c.clearOrder with
      haveFiringOrder := true
      numberOfTartgets := strlen firingOrder }
  else c.clearOrder

/-- A command of the operator. -/
def command (cmd : UInt8) (c : Control) : Control :=
  if c.base = armedManual ∧ cmd = fireStart then c.fire true
  else if c.base = armedManual ∧ cmd = fireStop then c.fire false
  else c

/-- The code that decodes to `"PREARMED"`, with its NUL. -/
def prearmCode : Bytes := [0x31, 0x32, 0x33, 0x34, 0x35, 0x36, 0x37, 0x38, 0]

/-- A pre-arm code. -/
def prearm (code : Bytes) (c : Control) : Control :=
  if c.systemState = safe ∧ code.take 9 = prearmCode then
    { c with systemState := prearmed }
  else c

/-- The signal to `EngagementThread`. -/
def signal (c : Control) : Control :=
  if c.engagement = .waiting then { c with engagement := .laserTrue } else c

/-- The sequencer enters a state. -/
def enter (state : TEngagementState) (c : Control) : Control :=
  match state with
  | .lookingForTarget => c.flag SystemState.armed false
  | .tracking => c.flag SystemState.armed true
  | .trackingStable => { c with state := .engagementInProgress }.signal
  | _ => c

/-- The sequencer looks for its target, with `result`. -/
def track (newState : Bool) (result : TEngagementState) (c : Control) :
    Control :=
  if newState || decide (c.state ≠ result) then
    { c with state := result }.enter result
  else { c with state := result }

/-- The sequencer is done with a target. -/
def nextTarget (c : Control) : Control :=
  if c.numberOfTartgets ≤ c.currentIndex + 1 then
    { c with
      currentIndex := c.currentIndex + 1
      state := .notActive
      systemState := prearmed }
  else { c with currentIndex := c.currentIndex + 1, state := .newTarget }

/-- A frame in which looking for the target gives `result`. -/
def frame (result : TEngagementState) (c : Control) : Control :=
  match c.state with
  | .activate =>
      { c with currentIndex := 0, state := .newTarget }.track true result
  | .newTarget => c.track true result
  | .lookingForTarget | .tracking => c.track false result
  | .engagementComplete => c.nextTarget
  | .notActive | .engagementInProgress | .trackingStable => c

/-- The effect of the next statement of `EngagementThread`. -/
def effect (c : Control) : Control :=
  match c.engagement with
  | .laserTrue => c.laser true
  | .fireTrue => c.fire true
  | .fireFalse => c.fire false
  | .laserFalse => c.laser false
  | .armedFalse => c.flag SystemState.armed false
  | .setComplete => { c with state := .engagementComplete }
  | _ => c

end Control

/-- The statement after a statement. -/
def EngagementPc.succ : EngagementPc → EngagementPc
  | .wait => .waiting
  | .waiting => .laserTrue
  | .laserTrue => .sendLaser
  | .sendLaser => .fireTrue
  | .fireTrue => .sendFire
  | .sendFire => .fireFalse
  | .fireFalse => .laserFalse
  | .laserFalse => .armedFalse
  | .armedFalse => .sendEngaged
  | .sendEngaged => .printfEngaged
  | .printfEngaged => .setComplete
  | .setComplete => .unlock
  | .unlock => .wait

namespace Control

/-- `EngagementThread` goes on by one statement. -/
def statement (c : Control) : Control :=
  { c.effect with engagement := c.engagement.succ }

/-- What can happen to the machine. -/
inductive Event where
  | login (accepted : Bool)
  | request (state : SystemState)
  | order (firingOrder : Bytes)
  | command (cmd : UInt8)
  | prearm (code : Bytes)
  /-- A message that is not about the outputs. -/
  | other
  | frame (result : TEngagementState)
  | statement

/-- What the machine makes of an event. -/
def next (c : Control) : Event → Control
  | .login accepted => { c with isLoggedIn := accepted }
  | .request state => if c.isLoggedIn then c.request state else c
  | .order firingOrder => if c.isLoggedIn then c.order firingOrder else c
  | .command cmd => if c.isLoggedIn then c.command cmd else c
  | .prearm code => if c.isLoggedIn then c.prearm code else c
  | .other => c
  | .frame result => c.frame result
  | .statement => c.statement

end Control

namespace Control

/-! ## The base state and the flags -/

theorem base_flag {f : SystemState} (hf : IsFlag f) (value : Bool) (c : Control) :
    (c.flag f value).base = c.base := by
  cases value with
  | true => exact base_or_flag c.systemState hf
  | false => exact base_clear_flag c.systemState hf

@[simp] theorem base_laser (value : Bool) (c : Control) :
    (c.laser value).base = c.base := base_flag .laserOn value c

@[simp] theorem fire_false (c : Control) :
    c.fire false = { c.flag firing false with gpio17 := false } := rfl

@[simp] theorem base_fire_false (c : Control) : (c.fire false).base = c.base :=
  base_flag .firing false c

/-! ## Firing -/

theorem fire_true_denied {c : Control} (h : firingDenied c.systemState) :
    c.fire true = { c with systemState := prearmed } := if_pos ⟨rfl, h⟩

theorem fire_true_permitted {c : Control} (h : ¬ firingDenied c.systemState) :
    c.fire true = { c.flag firing true with gpio17 := true } :=
  if_neg fun hc => h hc.2

/-- In `ARMED_MANUAL` firing is permitted. -/
theorem not_firingDenied {c : Control} (h : c.base = armedManual) :
    ¬ firingDenied c.systemState := by
  rw [firingDenied, show SystemState.base c.systemState = armedManual from h]
  decide

theorem fire_true_manual {c : Control} (h : c.base = armedManual) :
    c.fire true = { c.flag firing true with gpio17 := true } :=
  fire_true_permitted (not_firingDenied h)

end Control

end DemoCannon
