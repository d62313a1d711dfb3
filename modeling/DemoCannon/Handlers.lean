import DemoCannon.CorrectIni
import DemoCannon.Engagement
import DemoCannon.Login

/-! # The message handlers and the dispatch of `NetworkInputThread`

    A handler gets its message in the thread's `Buffer` and reads strings in it
    up to their NUL, wherever that is: behind the 504 bytes lies the rest of
    the thread's stack. -/

namespace DemoCannon

open Interaction Interaction.Program SystemState

/-- A message as a handler finds it. -/
structure Received where
  buffer : TBuffer
  /-- The stack behind `Buffer`. -/
  beyond : Bytes
  /-- `time(NULL)` while the message is handled. -/
  now : Int

/-- The memory from an offset behind the header on. -/
def Received.mem (m : Received) (offset : Nat) : Bytes :=
  (m.buffer.data ++ m.beyond).drop offset

/-- The C string at an offset. -/
def Received.cString (m : Received) (offset : Nat) : Bytes :=
  (m.mem offset).takeWhile (· ≠ 0)

/-- `ntohl` in place, on the word at an offset behind the header. -/
def Received.ntohlAt (m : Received) (offset : Nat) : Received :=
  { m with
    buffer := m.buffer.put offset (hostBytes (ntohl (m.buffer.data.drop offset))) }

@[simp] theorem Received.ntohlAt_now (m : Received) (offset : Nat) :
    (m.ntohlAt offset).now = m.now := rfl

/-! ## Pre-arm -/

/-- `Decode` of `ProcessPreArm`. -/
def decode : Bytes := [0x61, 0x60, 0x76, 0x75, 0x67, 0x7b, 0x72, 0x7c]

/-- `"PREARMED"`. -/
def prearmedText : Bytes := [0x50, 0x52, 0x45, 0x41, 0x52, 0x4d, 0x45, 0x44]

/-- `strlen(code)`. -/
def strlen (code : Bytes) : Nat := (code.takeWhile (· ≠ 0)).length

/-- The decoding loop over the first bytes of `Code`. -/
def xorDecode (code : Bytes) : Bytes :=
  List.zipWith (· ^^^ ·) (code.take decode.length) decode
    ++ code.drop decode.length

/-- `ProcessPreArm`. -/
def processPreArm (code : Bytes) : Prog Unit := do
  let s ← fetch
  -- the whole word is compared, flags included
  if s.systemState = safe then
    if code[decode.length]? = some 0 ∧ strlen code = decode.length then
      if (xorDecode code).takeWhile (· ≠ 0) = prearmedText then
        update fun s => { s with systemState := prearmed }
        sendCurrentState
      else pure ()
    else say "Pre-Arm code is not matched."
  else pure ()

/-! ## State requests -/

/-- What is in `Correct.ini` afterwards; nothing looks at what `fprintf` and `fclose`
    return. -/
def IniWrite.leaves (correctIni : Option Bytes) (xCorrect yCorrect : Rat) :
    IniWrite → Option Bytes
  | notOpened => correctIni
  | written => some (offsetsText xCorrect yCorrect)
  | broken left => some left

/-- `WriteOffsets`. -/
def writeOffsets : Prog Unit := do
  let result : IniWrite ← call .fopenIni
  update fun s => { s with correctIni := result.leaves s.correctIni s.xCorrect s.yCorrect }

/-- Assign `SystemState`. -/
def setState (state : SystemState) : Prog Unit :=
  update fun s => { s with systemState := state }

/-- `AutoEngage` without an order and at rest. -/
def TAutoEngage.clear (a : TAutoEngage) : TAutoEngage :=
  { a with state := .notActive, haveFiringOrder := false, numberOfTartgets := 0 }

/-- `case SAFE`. -/
def requestSafe (state : SystemState) : Prog Unit := do
  laser false
  calibrate false
  fire false
  setState (base state)
  updateAuto TAutoEngage.clear

/-- `case PREARMED`. -/
def requestPrearmed (state : SystemState) : Prog Unit := do
  let s ← fetch
  if base s.systemState = engageAuto ∨ base s.systemState = armedManual then
    laser false
    fire false
    calibrate false
    let s ← fetch
    if base s.systemState = engageAuto then updateAuto TAutoEngage.clear
    else pure ()
    setState (base state)
  else pure ()

/-- The text of a refused request; the state is printed as an `int`. -/
def invalidRequest (s : Server) : String :=
  s!"Invalid State request to Auto {s.systemState.toInt}\n"

/-- `case ENGAGE_AUTO`. -/
def requestEngageAuto (state : SystemState) : Prog Unit := do
  let s ← fetch
  if base s.systemState ≠ prearmed then say (invalidRequest s)
  else if s.autoEngage.haveFiringOrder = false then say "No Firing Order List"
  else
    laser false
    calibrate false
    fire false
    setState (base state)
    updateAuto fun a => { a with state := .activate }

/-- `case ARMED_MANUAL`. -/
def requestArmedManual (state : SystemState) : Prog Unit := do
  let s ← fetch
  if base s.systemState ≠ prearmed ∧ base s.systemState ≠ armedManual then
    say (invalidRequest s)
  else if base s.systemState = prearmed then
    laser false
    calibrate false
    fire false
    setState (base state)
  else
    -- stored as the client sent it, flags and all
    setState state

/-- The end of `ProcessStateChangeRequest`, which every request runs. -/
def applyFlags : Prog Unit := do
  let s ← fetch
  -- laser and calibration follow the word; the cannon is left as it is
  laser (has s.systemState laserOn)
  let s ← fetch
  if has s.systemState calibOn then
    calibrate true
    update fun s => { s with calibrateWasOn := true }
  else
    calibrate false
    let s ← fetch
    if s.calibrateWasOn then
      update fun s => { s with calibrateWasOn := false }
      writeOffsets
    else pure ()
  sendCurrentState

/-- `ProcessStateChangeRequest`. -/
def processStateChangeRequest (state : SystemState) : Prog Unit := do
  if base state = safe then requestSafe state
  else if base state = prearmed then requestPrearmed state
  else if base state = engageAuto then requestEngageAuto state
  else if base state = armedManual then requestArmedManual state
  else pure ()
  applyFlags

/-! ## Firing orders -/

def isDigit (c : UInt8) : Bool := 0x30 ≤ c ∧ c ≤ 0x39

/-- The copying loop of `ProcessFiringOrder`: the targets from position `i`
    on, and whether it got to the end. -/
def copyOrder : Bytes → Nat → Vector Nat 10 → Vector Nat 10 × Bool
  | [], _, targets => (targets, true)
  | c :: rest, i, targets =>
      if isDigit c then
        copyOrder rest (i + 1) (targets.setIfInBounds i (c.toNat - 0x30))
      else (targets, false)

/-- `ProcessFiringOrder`. -/
def processFiringOrder (firingOrder : Bytes) : Prog Unit := do
  let len := strlen firingOrder
  -- in any base state, `ENGAGE_AUTO` included
  updateAuto fun a => { a.clear with target := 0 }
  if 10 < len then pure ()
  else
    let s ← fetch
    let copied := copyOrder (firingOrder.take len) 0 s.autoEngage.firingOrder
    updateAuto fun a => { a with firingOrder := copied.1 }
    if copied.2 = false then pure ()
    else if 0 < len then
      updateAuto fun a => { a with haveFiringOrder := true }
      updateAuto fun a => { a with numberOfTartgets := len }
    else
      updateAuto fun a => { a with haveFiringOrder := false }
      say "Empty Firing List"

/-! ## Commands -/

def panLeftStart : UInt8 := 0x01
def panRightStart : UInt8 := 0x02
def panUpStart : UInt8 := 0x04
def panDownStart : UInt8 := 0x08
def fireStart : UInt8 := 0x10
def panLeftStop : UInt8 := 0xFE
def panRightStop : UInt8 := 0xFD
def panUpStop : UInt8 := 0xFB
def panDownStop : UInt8 := 0xF7
def fireStop : UInt8 := 0xEF

/-- `INC`. -/
def inc : Rat := 1 / 2

/-- `RunCmds |= on; RunCmds &= off`. -/
def runCmd (on off : UInt8) : Prog Unit :=
  update fun s => { s with runCmds := (s.runCmds ||| on.toBitVec) &&& off.toBitVec }

/-- A move by `delta` and the servo command for it. -/
def step (num : ServoNum) (delta : Rat) : Prog Unit := do
  update fun s => s.setAngle (s.angle num + delta) num
  servoAngle num

/-- `ProcessCommands`. -/
def processCommands (cmd : UInt8) : Prog Unit := do
  let s ← fetch
  if base s.systemState ≠ prearmed ∧ base s.systemState ≠ armedManual then
    pure ()
  else if (cmd = fireStart ∨ cmd = fireStop)
      ∧ base s.systemState ≠ armedManual then
    pure ()
  else if cmd = panLeftStart then
    runCmd panLeftStart panRightStop
    step .panServo inc
  else if cmd = panRightStart then
    runCmd panRightStart panLeftStop
    step .panServo (-inc)
  else if cmd = panUpStart then
    runCmd panUpStart panDownStop
    step .tiltServo inc
  else if cmd = panDownStart then
    runCmd panDownStart panUpStop
    step .tiltServo (-inc)
  else if cmd = fireStart then
    runCmd fireStart 0xFF
    fire true
    sendCurrentState
  else if cmd = panLeftStop then runCmd 0 panLeftStop
  else if cmd = panRightStop then runCmd 0 panRightStop
  else if cmd = panUpStop then runCmd 0 panUpStop
  else if cmd = panDownStop then runCmd 0 panDownStop
  else if cmd = fireStop then
    runCmd 0 fireStop
    fire false
    sendCurrentState
  else pure ()

def decX : UInt8 := 0x01
def incX : UInt8 := 0x02
def decY : UInt8 := 0x04
def incY : UInt8 := 0x08

/-- `ProcessCalibCommands`. -/
def processCalibCommands (cmd : UInt8) : Prog Unit := do
  let s ← fetch
  if base s.systemState ≠ prearmed ∧ base s.systemState ≠ armedManual
      ∧ has s.systemState calibOn = false then
    pure ()
  else if cmd = decX then
    update fun s => { s with xCorrect := s.xCorrect + 1 }
  else if cmd = incX then
    update fun s => { s with xCorrect := s.xCorrect - 1 }
  else if cmd = decY then
    update fun s => { s with yCorrect := s.yCorrect - 1 }
  else if cmd = incY then
    update fun s => { s with yCorrect := s.yCorrect + 1 }
  else pure ()

/-! ## Login and camera -/

/-- Offsets of the fields of `TMesssageLoginRequest` behind the header. -/
def offsetUserName : Nat := 0
def offsetPassword : Nat := 10
def offsetIsChangePassword : Nat := 30
def offsetNewPassword : Nat := 34

/-- The result of the credentials of `m`, with `is_change_password` in host order,
    against a table, with the table they leave; `none` where an exception is
    thrown. -/
def checkLogin (P : Platform) (m : Received) (user : List UserRow) :
    Option (LoginState × List UserRow) :=
  let username := m.cString offsetUserName
  let password := m.cString offsetPassword
  let newPassword := m.cString offsetNewPassword
  let isChangePW := hostWord (m.mem offsetIsChangePassword)
  if isChangePW = 0 then
    (verifyLogin P m.now user username password).map fun l => (l, user)
  else if isChangePW = 1 then
    updatePassword P m.now user username password newPassword
  else some (.loginFail, user)

/-- `ProcessLogin`. -/
def processLogin (P : Platform) (m : Received) : Prog Unit := do
  let s ← fetch
  match checkLogin P m s.user with
  | none => .exit .terminate
  | some (lState, user) =>
      update fun s => { s with user := user }
      let _ ← sendLoginState lState.word
      -- a refused login ends the session it came in
      update fun s => { s with isLoggedIn := decide (lState = .loginOk) }
      let s ← fetch
      if s.isLoggedIn = true ∧ s.heartBeatThread = false then
        let created : Int ← call .pthreadCreate
        if created ≠ 0 then .exit .pthreadCreate
        else update fun s => { s with heartBeatThread := true }
      else pure ()

def camOn : BitVec 32 := 1
def camOff : BitVec 32 := 2

/-- `ProcessCamStateChangeRequest`. -/
def processCamStateChangeRequest (state : BitVec 32) : Prog Unit := do
  if state = camOn then
    update fun s => { s with isCameraOn := true }
    let _ ← sendCamState camOn
    pure ()
  else if state = camOff then
    update fun s => { s with isCameraOn := false }
    let _ ← sendCamState camOff
    pure ()
  else pure ()

/-! ## The dispatch -/

/-- The switch of `NetworkInputThread` on the types that need a login. -/
def switchType (m : Received) : Prog Unit := do
  let type := m.buffer.type
  if type = mtCamStateChangeReq then
    auditlog "MT_CAM_STATE_CHANGE_REQ"
    processCamStateChangeRequest (ntohl (m.mem 0))
  else if type = mtCommands then
    auditlog "MT_COMMANDS"
    processCommands ((m.mem 0).headD 0)
  else if type = mtCalibCommands then
    auditlog "MT_CALIB_COMMANDS"
    processCalibCommands ((m.mem 0).headD 0)
  else if type = mtTargetSequence then
    auditlog "MT_TARGET_SEQUENCE"
    processFiringOrder (m.mem 0)
  else if type = mtPrearm then
    auditlog "MT_PREARM"
    processPreArm (m.mem 0)
  else if type = mtStateChangeReq then
    auditlog "MT_STATE_CHANGE_REQ"
    processStateChangeRequest (ntohl (m.mem 0))
  else auditlog "DEFAULT"

/-- The dispatch of `NetworkInputThread`. -/
def dispatch (P : Platform) (m : Received) : Prog Unit := do
  if m.buffer.type = mtLoginReq then
    auditlog "MT_LOGIN_REQ"
    -- the strings before and behind the field are read with it converted
    processLogin P (m.ntohlAt offsetIsChangePassword)
  else
    let s ← fetch
    if s.isLoggedIn = false then pure () else switchType m

/-! ## What the offsets and the camera do not change -/

/-- The projection does not look at the offsets. -/
structure BlindToOffsets {γ : Type} (π : Server → γ) : Prop where
  xCorrect (s : Server) (x : Rat) : π { s with xCorrect := x } = π s
  yCorrect (s : Server) (y : Rat) : π { s with yCorrect := y } = π s

/-- The projection does not look at the file of the offsets, nor at the flag that
    decides about writing it. -/
structure BlindToIni {γ : Type} (π : Server → γ) : Prop where
  calibrateWasOn (s : Server) (on : Bool) : π { s with calibrateWasOn := on } = π s
  correctIni (s : Server) (ini : Option Bytes) : π { s with correctIni := ini } = π s

section Offsets

variable {γ : Type} {π : Server → γ}

theorem keeps_processCalibCommands (hπ : BlindToOffsets π) (cmd : UInt8) :
    Keeps π (processCalibCommands cmd) := by
  refine Acts.read fun s => Acts.ite (Acts.pure ()) ?_
  refine Acts.ite (Acts.update fun _ => hπ.xCorrect _ _) ?_
  refine Acts.ite (Acts.update fun _ => hπ.xCorrect _ _) ?_
  exact Acts.ite (Acts.update fun _ => hπ.yCorrect _ _)
    (Acts.ite (Acts.update fun _ => hπ.yCorrect _ _) (Acts.pure ()))

theorem keeps_writeOffsets (hπ : BlindToIni π) : Keeps π writeOffsets :=
  (Acts.ask _).keeps_bind fun (_ : IniWrite) => Acts.update fun _ => hπ.correctIni _ _

/-- The end of a request that leaves calibration on. -/
theorem keeps_calibrationOn (hπ : BlindToIni π) (holed : BlindToOled π) : Keeps π (do
    update fun s => { s with calibrateWasOn := true }
    sendCurrentState : Prog Unit) :=
  Acts.update_then (fun _ => hπ.calibrateWasOn _ _) fun _ => keeps_sendCurrentState holed

/-- The end of a request that leaves calibration off. -/
theorem keeps_calibrationOff (hπ : BlindToIni π) (holed : BlindToOled π) : Keeps π (do
    let s ← fetch
    if s.calibrateWasOn then
      update fun s => { s with calibrateWasOn := false }
      writeOffsets
      sendCurrentState
    else sendCurrentState : Prog Unit) := by
  refine Acts.read fun _ => Acts.ite ?_ (keeps_sendCurrentState holed)
  refine Acts.update_then (fun _ => hπ.calibrateWasOn _ _) fun _ => ?_
  exact (keeps_writeOffsets hπ).keeps_bind fun _ => keeps_sendCurrentState holed

theorem keeps_processCamStateChangeRequest
    (hπ : ∀ (s : Server) (on : Bool), π { s with isCameraOn := on } = π s)
    (state : BitVec 32) : Keeps π (processCamStateChangeRequest state) := by
  refine Acts.ite ?_ (Acts.ite ?_ (Acts.pure ()))
  · exact Acts.update_then (fun _ => hπ _ _)
      fun _ => (keeps_sendCamState _).keeps_bind fun _ => Acts.pure ()
  · exact Acts.update_then (fun _ => hπ _ _)
      fun _ => (keeps_sendCamState _).keeps_bind fun _ => Acts.pure ()

end Offsets

end DemoCannon
