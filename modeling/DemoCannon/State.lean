import DemoCannon.Lib.Program
import DemoCannon.NetworkInput

/-! # The server's state and its environment

    `Server` is what the threads of `DemoCannon.cpp` share: the global and the
    function-local static variables, and of the hardware what was last written
    to it.  Angles and offsets are exact rationals.  Everything the code calls
    outside itself is a `Call` with an arbitrary answer; the threads are
    programs over both. -/

namespace DemoCannon

open Interaction

/-- `TEngagementState`. -/
inductive TEngagementState where
  | notActive
  | activate
  | newTarget
  | lookingForTarget
  | tracking
  | trackingStable
  | engagementInProgress
  | engagementComplete
  deriving DecidableEq, Repr

/-- `TAutoEngage`. -/
structure TAutoEngage where
  numberOfTartgets : Nat := 0
  firingOrder : Vector Nat 10 := .replicate 10 0
  currentIndex : Nat := 0
  haveFiringOrder : Bool := false
  state : TEngagementState := .notActive
  stableCount : Nat := 0
  lastPan : Rat := 0
  lastTilt : Rat := 0
  target : Nat := 0

/-- The statement `EngagementThread` executes next. -/
inductive EngagementPc where
  /-- Lock `Engmnt_Mutex` and call `pthread_cond_wait`. -/
  | wait
  /-- Blocked in `pthread_cond_wait`. -/
  | waiting
  | laserTrue
  | sendLaser
  | fireTrue
  | sendFire
  | fireFalse
  | laserFalse
  | armedFalse
  | sendEngaged
  | printfEngaged
  | setComplete
  /-- Unlock `Engmnt_Mutex` and start the loop again. -/
  | unlock
  deriving DecidableEq, Repr

/-- The OLED with the two static variables of `OLED_UpdateStatus`. -/
structure Oled where
  lastSystemState : SystemState := .unknown
  lastSystemStateBase : SystemState := .unknown
  line0 : String := "READY"
  line1 : String := ""
  line2 : String := ""

/-- The `FILE*` of the audit log. -/
inductive AuditFile where
  | null
  | opened
  | closed
  deriving DecidableEq, Repr

/-- A row of the table `user`; the last two columns may be `NULL`. -/
structure UserRow where
  username : Bytes
  password : Bytes
  createdAt : Option Bytes
  isAdmin : Option Bytes
  deriving DecidableEq, Repr

/-- What the threads share. -/
structure Server where
  autoEngage : TAutoEngage := {}
  pan : Rat := 0
  tilt : Rat := 0
  runCmds : BitVec 8 := 0
  systemState : SystemState := .safe
  xCorrect : Rat := 60
  yCorrect : Rat := -90
  isConnected : Bool := true
  isCameraOn : Bool := true
  isLoggedIn : Bool := false
  /-- `HeartBeatThreadID != -1`. -/
  heartBeatThread : Bool := false
  /-- `CalibrateWasOn` of `ProcessStateChangeRequest`. -/
  calibrateWasOn : Bool := false
  /-- `trying` and `Tbegin` of `TryToMatch`. -/
  trying : Bool := false
  tbegin : Nat := 0
  haveOled : Bool := false
  oled : Oled := {}
  auditFile : AuditFile := .null
  /-- Where `EngagementThread` is. -/
  engagement : EngagementPc := .wait
  /-- The table of `user.db`. -/
  user : List UserRow := []
  /-- The file `Correct.ini`, where there is one. -/
  correctIni : Option Bytes := none
  /-- The last value written to GPIO 17, the cannon. -/
  gpio17 : Bool := false
  /-- The last value written to GPIO 18, the laser. -/
  gpio18 : Bool := false
  /-- The angles last commanded to the two servos. -/
  panServo : Rat := 0
  tiltServo : Rat := 0

/-- The mutexes. -/
inductive Mutex where
  | tcp
  | gpio
  | i2c
  | engmnt
  deriving DecidableEq, Repr

/-- What comes of writing `Correct.ini`. -/
inductive IniWrite where
  /-- `fopen` fails, and the file stays as it is. -/
  | notOpened
  | written
  /-- The file is opened, which empties it, but an `fprintf` or `fclose` fails: this is what
      gets into it. -/
  | broken (left : Bytes)
  deriving DecidableEq, Repr

/-- What the code calls outside itself. -/
inductive Call where
  | lock (m : Mutex)
  | unlock (m : Mutex)
  /-- The `SSL_write`s of one `WriteDataTcp`. -/
  | sslWrite (data : Bytes)
  /-- The `SSL_read`s of one round of `NetworkInputThread`. -/
  | sslRead
  /-- A line of the audit log, written to a file in the given state. -/
  | auditLine (file : AuditFile) (msg : String)
  | condSignal
  | pthreadCreate
  /-- `fopen` of `Correct.ini` for writing, the `fprintf`s and `fclose`. -/
  | fopenIni
  /-- `fopen` of the audit log. -/
  | fopenLog
  /-- A call that never returns. -/
  | never

/-- The answers of a call; errors of the `pthread` functions are numbers other
    than `0`. -/
def Call.Answer : Call → Type
  | .lock _ | .unlock _ | .auditLine _ _ => Unit
  | .sslWrite _ => List SslRet
  | .sslRead => List SslRet × Bytes
  | .condSignal | .pthreadCreate => Int
  | .fopenIni => IniWrite
  | .fopenLog => Bool
  | .never => Empty

/-- How a thread ends the process from inside. -/
inductive Halt where
  /-- `exit(EXIT_FAILURE)` of `ReadDataTcp` on `SSL_ERROR_SYSCALL`. -/
  | readDataTcp
  /-- `exit(EXIT_FAILURE)` of `WriteDataTcp` on `SSL_ERROR_SYSCALL`. -/
  | writeDataTcp
  /-- `exit(0)` of `ProcessTargetEngagements` when the signal fails. -/
  | condSignal
  /-- `exit(0)` when a thread cannot be created. -/
  | pthreadCreate
  /-- An exception that nothing catches. -/
  | terminate
  /-- `fclose` of no file. -/
  | crash
  deriving DecidableEq, Repr

/-- A thread of the server. -/
abbrev Prog := Program Server Call Call.Answer Halt

/-- An environment in which every call succeeds at once. -/
def smooth : (c : Call) → Option c.Answer
  | .lock _ | .unlock _ | .auditLine _ _ => some ()
  | .sslWrite data => some [.bytes data.length]
  | .sslRead => none
  | .condSignal | .pthreadCreate => some (0 : Int)
  | .fopenIni => some IniWrite.written
  | .fopenLog => some true
  | .never => none

end DemoCannon
