import DemoCannon.State

/-! # Outputs: audit log, sends, OLED, servos and GPIO

    The functions every thread calls to act on the outside.  Each translates
    one function of the source; a condition of the source that reads
    `SystemState` several times reads it once here. -/

namespace DemoCannon

open Interaction Interaction.Program SystemState

/-! ## Log and locks -/

def call (c : Call) : Prog c.Answer := ask c

/-- `auditlog`: nothing without a file. -/
def auditlog (msg : String) : Prog Unit := do
  let s ← fetch
  if s.auditFile ≠ .null then call (.auditLine s.auditFile msg) else pure ()

def lock (m : Mutex) : Prog Unit := call (.lock m)

def unlock (m : Mutex) : Prog Unit := call (.unlock m)

/-- A call that never returns. -/
def never {α : Type} : Prog α := .call .never (fun e => nomatch (e : Empty))

/-! ## Sends -/

/-- `WriteDataTcp` in a thread: whatever OpenSSL answers to its writes. -/
def Thread.writeDataTcp (data : Bytes) : Prog Int := do
  let script : List SslRet ← call (.sslWrite data)
  match DemoCannon.writeDataTcp data.length script 0 with
  | .returned retval => pure retval
  | .exited => .exit .writeDataTcp
  | .waiting => never

/-- How a thread goes on at the end of a `WriteDataTcp`. -/
def WriteEnd.leave : WriteEnd → Prog Int
  | .returned retval => pure retval
  | .exited => .exit .writeDataTcp
  | .waiting => never

/-- A header in network order. -/
def header (len : Nat) (type : BitVec 32) : Bytes :=
  htonl (.ofNat 32 len) ++ htonl type

/-- `PrintfSend`, given the formatted text; no text of the source fills its
    2048-byte buffer. -/
def printfSend (text : String) : Prog Int := do
  lock .tcp
  let bytesWritten := text.toUTF8.size
  if 0 < bytesWritten then
    let sent ← Thread.writeDataTcp (header (bytesWritten + 1) mtText)
    if sent ≠ sizeofHeader then
      unlock .tcp
      pure (-1)
    else
      let sent ← Thread.writeDataTcp (text.toUTF8.data.toList ++ [0])
      if sent ≠ bytesWritten + 1 then
        unlock .tcp
        pure (-1)
      else
        unlock .tcp
        pure (bytesWritten + 1)
  else
    unlock .tcp
    pure bytesWritten

/-- The name `OLED_UpdateStatus` shows for a base state; for any other word
    the source shows what was in its buffer before. -/
def statusName (b : SystemState) : String :=
  if b = unknown then "Unknown"
  else if b = safe then "SAFE"
  else if b = prearmed then "PREARMED"
  else if b = engageAuto then "ENGAGE AUTO"
  else if b = armedManual then "ARMED_MANUAL"
  else ""

/-- The redrawing of `OLED_UpdateStatus`, line by line. -/
def Oled.updateStatus (o : Oled) (s : SystemState) : Oled :=
  if o.lastSystemState = s then o
  else
    let o0 :=
      if base s ≠ o.lastSystemStateBase then
        { o with
          lastSystemStateBase := base s
          line0 := statusName (base s) ++ (if has s armed then "-ARMED" else "") }
      else o
    let o1 :=
      if has s laserOn ≠ has o.lastSystemState laserOn
          ∨ o.lastSystemState = unknown then
        { o0 with line1 := if has s laserOn then "LASER-ON" else "LASER-OFF" }
      else o0
    let o2 :=
      if has s firing ≠ has o.lastSystemState firing
          ∨ o.lastSystemState = unknown then
        { o1 with line2 := if has s firing then "FIRING-TRUE" else "FIRING-FALSE" }
      else o1
    { o2 with lastSystemState := s }

/-- `OLED_UpdateStatus`. -/
def oledUpdateStatus : Prog Unit := do
  let s ← fetch
  if s.haveOled then
    lock .i2c
    update fun s => { s with oled := s.oled.updateStatus s.systemState }
    unlock .i2c
  else pure ()

/-- A message whose payload is one word in network order. -/
def wordMessage (type word : BitVec 32) : Bytes := header 4 type ++ htonl word

/-- `SendSystemState`. -/
def sendSystemState (state : SystemState) : Prog Int := do
  lock .tcp
  oledUpdateStatus
  let retval ← Thread.writeDataTcp (wordMessage mtState state)
  unlock .tcp
  pure retval

/-- `SendSystemState(SystemState)`: the argument is read first. -/
def sendCurrentState : Prog Unit := do
  let s ← fetch
  let _ ← sendSystemState s.systemState
  pure ()

/-- `SendLoginState`. -/
def sendLoginState (state : BitVec 32) : Prog Int := do
  lock .tcp
  let retval ← Thread.writeDataTcp (wordMessage mtLoginRes state)
  unlock .tcp
  pure retval

/-- `SendCamState`. -/
def sendCamState (state : BitVec 32) : Prog Int := do
  lock .tcp
  let retval ← Thread.writeDataTcp (wordMessage mtCamState state)
  unlock .tcp
  pure retval

/-- `PrintfSend` where the caller drops its result. -/
def say (text : String) : Prog Unit := do
  let _ ← printfSend text
  pure ()

/-! ### What the sends leave alone

    Logging, locking and sending write nothing but the OLED, so every
    projection of the state that does not look at it is kept. -/

section Sends

variable {γ : Type} {π : Server → γ}

theorem keeps_auditlog (msg : String) : Keeps π (auditlog msg) :=
  Acts.read fun _ => (Acts.ask _).ite (Acts.pure ())

theorem keeps_lock (m : Mutex) : Keeps π (lock m) := Acts.ask _

theorem keeps_unlock (m : Mutex) : Keeps π (unlock m) := Acts.ask _

theorem post_never {α : Type} (s : Server) (Q : α → Server → Prop) :
    Post never s Q := by
  rintro a t ⟨r, -⟩
  exact Empty.elim r

theorem keeps_never {α : Type} : Keeps π (never : Prog α) :=
  fun s => post_never s _

theorem keeps_writeDataTcp (data : Bytes) :
    Keeps π (Thread.writeDataTcp data) := by
  refine Acts.keeps_bind (Acts.ask _) ?_
  intro script
  change Keeps π (DemoCannon.writeDataTcp data.length script 0).leave
  cases DemoCannon.writeDataTcp data.length script 0 with
  | returned retval => exact Acts.pure retval
  | exited => exact Acts.exit _
  | waiting => exact keeps_never

theorem keeps_printfSend (text : String) : Keeps π (printfSend text) := by
  have hfail : Keeps π (do unlock .tcp; pure (-1 : Int)) :=
    (keeps_unlock .tcp).keeps_bind fun _ => Acts.pure _
  have hdone : ∀ n : Int, Keeps π (do unlock .tcp; pure n) :=
    fun n => (keeps_unlock .tcp).keeps_bind fun _ => Acts.pure n
  refine (keeps_lock .tcp).keeps_bind fun _ => Acts.ite ?_ (hdone _)
  refine (keeps_writeDataTcp _).keeps_bind fun _ => Acts.ite hfail ?_
  exact (keeps_writeDataTcp _).keeps_bind fun _ => Acts.ite hfail (hdone _)

theorem keeps_say (text : String) : Keeps π (say text) :=
  (keeps_printfSend text).keeps_bind fun _ => Acts.pure ()

/-- A send of one word under the lock. -/
theorem keeps_sendWord (data : Bytes) : Keeps π (do
    lock .tcp
    let retval ← Thread.writeDataTcp data
    unlock .tcp
    pure retval) :=
  (keeps_lock .tcp).keeps_bind fun _ => (keeps_writeDataTcp data).keeps_bind
    fun _ => (keeps_unlock .tcp).keeps_bind fun _ => Acts.pure _

theorem keeps_sendLoginState (state : BitVec 32) :
    Keeps π (sendLoginState state) := keeps_sendWord _

theorem keeps_sendCamState (state : BitVec 32) :
    Keeps π (sendCamState state) := keeps_sendWord _

/-- The projection does not look at the OLED. -/
def BlindToOled (π : Server → γ) : Prop :=
  ∀ (s : Server) (o : Oled), π { s with oled := o } = π s

theorem keeps_oledUpdateStatus (hπ : BlindToOled π) :
    Keeps π oledUpdateStatus := by
  have hdraw : Keeps π (update fun s : Server =>
      { s with oled := s.oled.updateStatus s.systemState } : Prog Unit) :=
    Acts.update fun s => hπ s _
  exact Acts.read fun _ => ((keeps_lock .i2c).keeps_bind fun _ =>
    hdraw.keeps_bind fun _ => keeps_unlock .i2c).ite (Acts.pure ())

theorem keeps_sendSystemState (hπ : BlindToOled π) (state : SystemState) :
    Keeps π (sendSystemState state) :=
  (keeps_lock .tcp).keeps_bind fun _ =>
    (keeps_oledUpdateStatus hπ).keeps_bind fun _ =>
      (keeps_writeDataTcp _).keeps_bind fun _ =>
        (keeps_unlock .tcp).keeps_bind fun _ => Acts.pure _

theorem keeps_sendCurrentState (hπ : BlindToOled π) :
    Keeps π sendCurrentState :=
  Acts.read fun s =>
    (keeps_sendSystemState hπ s.systemState).keeps_bind fun _ => Acts.pure ()

end Sends

/-! ## Servos -/

/-- `PAN_SERVO` and `TILT_SERVO`. -/
inductive ServoNum where
  | panServo
  | tiltServo
  deriving DecidableEq, Repr

def minTilt : Rat := -15
def maxTilt : Rat := 15
def minPan : Rat := -15
def maxPan : Rat := 15

/-- The global angle that goes with a servo. -/
def Server.angle (s : Server) : ServoNum → Rat
  | .panServo => s.pan
  | .tiltServo => s.tilt

def Server.setAngle (s : Server) (angle : Rat) : ServoNum → Server
  | .panServo => { s with pan := angle }
  | .tiltServo => { s with tilt := angle }

/-- `Servos->angle(Num, Angle)`. -/
def Server.command (s : Server) : ServoNum → Server
  | .panServo => { s with panServo := s.pan }
  | .tiltServo => { s with tiltServo := s.tilt }

def ServoNum.min : ServoNum → Rat
  | .panServo => minPan
  | .tiltServo => minTilt

def ServoNum.max : ServoNum → Rat
  | .panServo => maxPan
  | .tiltServo => maxTilt

def ServoNum.name : ServoNum → String
  | .panServo => "PAN"
  | .tiltServo => "TILT"

/-- `ServoAngle` on the global angle that every caller passes by reference. -/
def servoAngle (num : ServoNum) : Prog Unit := do
  lock .i2c
  let s ← fetch
  if s.angle num < num.min then
    update fun s => s.setAngle num.min num
    say s!"It's already reached to MIN_{num.name} value."
  else if num.max < s.angle num then
    update fun s => s.setAngle num.max num
    say s!"It's already reached to MAX_{num.name} value."
  else pure ()
  update fun s => s.command num
  unlock .i2c

/-- The projection does not look at the servos and their angles. -/
structure BlindToServos {γ : Type} (π : Server → γ) : Prop where
  setAngle (s : Server) (angle : Rat) (num : ServoNum) : π (s.setAngle angle num) = π s
  command (s : Server) (num : ServoNum) : π (s.command num) = π s

theorem keeps_servoAngle {γ : Type} {π : Server → γ} (hπ : BlindToServos π)
    (num : ServoNum) : Keeps π (servoAngle num) := by
  have hcommand : Keeps π (do
      update fun s => s.command num
      unlock .i2c : Prog Unit) :=
    Acts.update_then (fun s => hπ.command s num) fun _ => keeps_unlock .i2c
  have hclamp : ∀ (angle : Rat) (text : String), Keeps π (do
      update fun s => s.setAngle angle num
      say text
      update fun s => s.command num
      unlock .i2c : Prog Unit) := by
    intro angle text
    refine Acts.update_then (fun s => hπ.setAngle s angle num) fun _ => ?_
    exact (keeps_say text).keeps_bind fun _ => hcommand
  -- below the limit, above the limit, or in between
  refine (keeps_lock .i2c).keeps_bind fun _ => Acts.read fun s => ?_
  exact (hclamp _ _).ite ((hclamp _ _).ite hcommand)

/-! ## GPIO -/

/-- The states in which `fire(true)` is refused. -/
def firingDenied (s : SystemState) : Prop :=
  base s = unknown ∨ base s = safe ∨ base s = prearmed

instance (s : SystemState) : Decidable (firingDenied s) :=
  inferInstanceAs (Decidable (_ ∨ _ ∨ _))

/-- `fire`. -/
def fire (value : Bool) : Prog Unit := do
  let s ← fetch
  if value = true ∧ firingDenied s.systemState then
    say "Firing can't be permitted in several state."
    -- from `SAFE` as well
    update fun s => { s with systemState := prearmed }
    sendCurrentState
  else
    lock .gpio
    if value then
      auditlog "FIRE ON"
      update fun s => { s with systemState := s.systemState ||| firing }
    else
      update fun s => { s with systemState := s.systemState &&& clearFiringMask }
    update fun s => { s with gpio17 := value }
    unlock .gpio

/-- `armed`. -/
def armed (value : Bool) : Prog Unit := do
  lock .gpio
  if value then
    update fun s => { s with systemState := s.systemState ||| SystemState.armed }
  else
    update fun s => { s with systemState := s.systemState &&& clearArmedMask }
  unlock .gpio

/-- `calibrate`. -/
def calibrate (value : Bool) : Prog Unit := do
  lock .gpio
  if value then
    update fun s => { s with systemState := s.systemState ||| calibOn }
  else
    update fun s => { s with systemState := s.systemState &&& clearCalibMask }
  unlock .gpio

/-- `laser`. -/
def laser (value : Bool) : Prog Unit := do
  lock .gpio
  if value then
    auditlog "LASER ON"
    update fun s => { s with systemState := s.systemState ||| laserOn }
  else
    update fun s => { s with systemState := s.systemState &&& clearLaserMask }
  update fun s => { s with gpio18 := value }
  unlock .gpio

/-- The projection does not look at the outputs, nor at the word and the display that
    show them. -/
structure BlindToOutputs {γ : Type} (π : Server → γ) : Prop where
  oled : BlindToOled π
  systemState (s : Server) (w : SystemState) : π { s with systemState := w } = π s
  gpio17 (s : Server) (v : Bool) : π { s with gpio17 := v } = π s
  gpio18 (s : Server) (v : Bool) : π { s with gpio18 := v } = π s

section Outputs

variable {γ : Type} {π : Server → γ}

/-- A flag of the state word that is set or cleared under the lock. -/
theorem keeps_flag {f h : Server → Server} {value : Bool} (hf : ∀ s, π (f s) = π s)
    (hh : ∀ s, π (h s) = π s) : Keeps π (do
      lock .gpio
      if value then update f else update h
      unlock .gpio : Prog Unit) := by
  refine (keeps_lock .gpio).keeps_bind fun _ => Acts.ite ?_ ?_
  · exact Acts.update_then hf fun _ => keeps_unlock .gpio
  · exact Acts.update_then hh fun _ => keeps_unlock .gpio

theorem keeps_armed (hπ : BlindToOutputs π) (value : Bool) : Keeps π (armed value) :=
  keeps_flag (fun s => hπ.systemState s _) fun s => hπ.systemState s _

theorem keeps_calibrate (hπ : BlindToOutputs π) (value : Bool) : Keeps π (calibrate value) :=
  keeps_flag (fun s => hπ.systemState s _) fun s => hπ.systemState s _

theorem keeps_laser (hπ : BlindToOutputs π) (value : Bool) : Keeps π (laser value) := by
  have hpin : Keeps π (do
      update fun s => { s with gpio18 := value }
      unlock .gpio : Prog Unit) :=
    Acts.update_then (fun s => hπ.gpio18 s value) fun _ => keeps_unlock .gpio
  refine (keeps_lock .gpio).keeps_bind fun _ => Acts.ite ?_ ?_
  · exact (keeps_auditlog _).keeps_bind fun _ =>
      Acts.update_then (fun s => hπ.systemState s _) fun _ => hpin
  · exact Acts.update_then (fun s => hπ.systemState s _) fun _ => hpin

theorem keeps_fire (hπ : BlindToOutputs π) (value : Bool) : Keeps π (fire value) := by
  have hpin : Keeps π (do
      update fun s => { s with gpio17 := value }
      unlock .gpio : Prog Unit) :=
    Acts.update_then (fun s => hπ.gpio17 s value) fun _ => keeps_unlock .gpio
  -- the attempt in a state without permission changes the word as well
  refine Acts.read fun _ => Acts.ite ?_ ?_
  · exact (keeps_say _).keeps_bind fun _ =>
      Acts.update_then (fun s => hπ.systemState s _) fun _ => keeps_sendCurrentState hπ.oled
  · refine (keeps_lock .gpio).keeps_bind fun _ => Acts.ite ?_ ?_
    · exact (keeps_auditlog _).keeps_bind fun _ =>
        Acts.update_then (fun s => hπ.systemState s _) fun _ => hpin
    · exact Acts.update_then (fun s => hπ.systemState s _) fun _ => hpin

end Outputs

end DemoCannon
