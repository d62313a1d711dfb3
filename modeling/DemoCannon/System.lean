import DemoCannon.Lib.Run
import DemoCannon.Handlers

/-! # The server as a transition system

    The steps of the server are whole network-message handlers, whole calls of
    `ProcessTargetEngagements` and single statements of `EngagementThread`, in
    any order.  POSIX lets `pthread_cond_wait` return without a signal, and so
    does a step here. -/

namespace DemoCannon

open Interaction Interaction.Program

/-- What a step of the server is. -/
inductive Act where
  /-- A message was received and is handled. -/
  | message (m : Received)
  /-- `ProcessTargetEngagements` is called on a frame. -/
  | frame (f : Frame)
  /-- `EngagementThread` executes a statement. -/
  | statement
  /-- `pthread_cond_wait` returns without a signal. -/
  | spuriousWakeup

/-- A return of `pthread_cond_wait` without a signal. -/
def wakeUp : Prog Unit := do
  let s ← fetch
  if s.engagement = .waiting then goto .laserTrue else never

/-- The code of a step. -/
def Act.prog (P : Platform) : Act → Prog Unit
  | .message m => dispatch P m
  | .frame f => processTargetEngagements f
  | .statement => engagementStatement
  | .spuriousWakeup => wakeUp

/-- A step of the server: the code runs to its end. -/
def Step (P : Platform) (s : Server) (a : Act) (t : Server) : Prop :=
  Ends (a.prog P) s () t

/-- A step in which every call succeeds at once. -/
def next (P : Platform) (s : Server) (a : Act) : Option Server :=
  match exec smooth (a.prog P) s with
  | .done _ t => some t
  | .exited _ _ => none
  | .blocked => none

theorem exec_of_next {P : Platform} {s t : Server} {a : Act}
    (h : next P s a = some t) : exec smooth (a.prog P) s = .done () t := by
  rw [next] at h
  cases hexec : exec smooth (a.prog P) s with
  | done u t' =>
      rw [hexec] at h
      cases h
      rfl
  | exited x t' => rw [hexec] at h; cases h
  | blocked => rw [hexec] at h; cases h

theorem step_of_next {P : Platform} {s t : Server} {a : Act}
    (h : next P s a = some t) : Step P s a t := ends_of_exec (exec_of_next h)

/-- A step that is allowed, and in which every call succeeds at once. -/
def nextOf (allowed : Act → Bool) (P : Platform) (s : Server) (a : Act) :
    Option Server :=
  if allowed a then next P s a else none

theorem step_of_nextOf {allowed : Act → Bool} {P : Platform} (s : Server) (a : Act)
    (t : Server) (h : nextOf allowed P s a = some t) :
    Step P s a t ∧ allowed a = true := by
  rw [nextOf] at h
  by_cases ha : allowed a = true
  · rw [if_pos ha] at h
    exact ⟨step_of_next h, ha⟩
  · rw [if_neg ha] at h
    cases h

/-- What the server finds when it starts. -/
structure Config where
  user : List UserRow := []
  /-- `Correct.ini`, where it is there. -/
  correctIni : Option Bytes := none
  haveOled : Bool := false
  auditFile : AuditFile := .null

/-- The state after `main` has switched both outputs off and created the
    threads. -/
def start (c : Config) : Server where
  user := c.user
  correctIni := c.correctIni
  xCorrect := ((c.correctIni.bind readOffsets).map Prod.fst).getD 60
  yCorrect := ((c.correctIni.bind readOffsets).map Prod.snd).getD (-90)
  haveOled := c.haveOled
  auditFile := c.auditFile

/-- A run of the server from the start. -/
abbrev ServerRun (P : Platform) (c : Config) :
    List (Server × Act) → Server → Prop :=
  Run (Step P) (start c)

/-- A run in which the server handles messages only, from `s₀` on. -/
abbrev MessageRun (P : Platform) (s₀ : Server) :
    List (Server × Received) → Server → Prop :=
  Run (fun s m t => Step P s (.message m) t) s₀

/-! ## A session

    The runs that show what can go wrong are runs of one operator, `op` with
    the password `1234`, and one target in the middle of the picture. -/

namespace Session

/-- A digest from its value as a number. -/
def digest (n : Nat) : Vector UInt8 64 := .ofFn fun i => .ofNat (n >>> (8 * (63 - i.val)))

/-- A password with the digests that are asked for on its way to the user
    table: its own, and that of its own in hexadecimal with the salt `Mango`. -/
structure Password where
  text : Bytes
  digest : Vector UInt8 64
  salted : Vector UInt8 64

/-- `1234`. -/
def password : Password where
  text := [0x31, 0x32, 0x33, 0x34]
  digest := digest (0xd404559f602eab6fd602ac7680dacbfaadd13630335e951f097af3900e9de176 <<< 256
    + 0xb6db28512f2e000b9d04fba5133e8b1c6e8df59db3a8ab9d60be4b97cc9e81db)
  salted := digest (0x54f9ac94dd6aff1f012d93b1741cb35620392ec0a6bdf373556ed1fcd2d2cf73 <<< 256
    + 0xda14852e3cbfea51fdeb54e04751ea3575af65293378f488d5606f3fc735937e)

/-- `1235`. -/
def wrongPassword : Password where
  text := [0x31, 0x32, 0x33, 0x35]
  digest := digest (0x0e6e84887f4b6372847b5602f3320da2683186a5013d61c9cc0c53e52ab1a01b <<< 256
    + 0xc45a1560fa1cabb08d3cbedf12bc373e85678ec69b65813ca2e3c8868c4f0834)
  salted := digest (0xa58daf892c0e542409d347aad426b6f84f798ebc217e19c27ea143606bae69d5 <<< 256
    + 0x52e32b801f58fbae0927d3b400336887572c82a096011a81c790807a84f14a4c)

/-- Two hexadecimal digits for each byte. -/
def hex (bs : Vector UInt8 64) : Bytes :=
  bs.toList.flatMap fun b => [hexDigit (b.toNat / 16), hexDigit (b.toNat % 16)]

/-- `Mango`. -/
def salt : Bytes := [0x4d, 0x61, 0x6e, 0x67, 0x6f]

/-- `"2024-01-01 00:00:00"` and its time. -/
def newYear : Bytes := "2024-01-01 00:00:00".toUTF8.data.toList

def newYearTime : Int := 1704067200

/-- The platform, as far as a session of `op` asks it. -/
def platform : Platform where
  sha512 bs :=
    if bs = password.text then password.digest
    else if bs = hex password.digest ++ salt then password.salted
    else if bs = wrongPassword.text then wrongPassword.digest
    else if bs = hex wrongPassword.digest ++ salt then wrongPassword.salted
    else .replicate 64 0
  getTime bs := if bs = newYear then some newYearTime else none
  currentTimestamp _ := newYear

/-- The user table with `op` in it. -/
def config : Config where
  user := [{
    username := [0x6f, 0x70]
    password := hex password.salted
    createdAt := some newYear
    isAdmin := some [0x30] }]

/-- A message from the client, an hour into the year. -/
def ofClient (m : TMessage) : Received := ⟨m.buffer, [], newYearTime + 3600⟩

/-- A login of `op` without a change of the password. -/
def loginWith (p : Password) : Received :=
  let payload := ([0x6f, 0x70] ++ List.replicate 8 0
    ++ p.text ++ List.replicate 40 0).take 54
  ofClient ⟨mtLoginReq, payload,
    Nat.lt_of_le_of_lt (List.length_take_le _ _) (by decide)⟩

def login : Received := loginWith password

def badLogin : Received := loginWith wrongPassword

/-- `MT_PREARM` with `"12345678"`. -/
def prearm : Received :=
  ofClient ⟨mtPrearm,
    [0x31, 0x32, 0x33, 0x34, 0x35, 0x36, 0x37, 0x38, 0, 0], by decide⟩

def request (state : SystemState) : Received :=
  ofClient ⟨mtStateChangeReq, htonl state, by rw [htonl_length]; decide⟩

/-- The order to engage target 3. -/
def order : Received := ofClient ⟨mtTargetSequence, [0x33, 0], by decide⟩

def command (cmd : UInt8) : Received :=
  ofClient ⟨mtCommands, [cmd], show 1 < UInt32.size by decide⟩

def calibCommand (cmd : UInt8) : Received :=
  ofClient ⟨mtCalibCommands, [cmd], show 1 < UInt32.size by decide⟩

/-- A frame with target 3 in the middle, the offsets counted in. -/
def targetFrame : Act :=
  .frame { detectedMatches := [⟨3, 900, 630⟩], width := 1920, height := 1080, now := 0 }

/-- From the login to the signal for an engagement. -/
def engage : List Act :=
  [.message login, .message prearm, .message order,
    .message (request .engageAuto), .statement,
    targetFrame, targetFrame, targetFrame, targetFrame]

/-- A session is followed with every call succeeding at once. -/
theorem reaches (acts : List Act) (Q : Server → Bool)
    (h : (follow (next platform) (start config) acts.reverse).any
      (fun r => Q r.2) = true) :
    ∃ h s, ServerRun platform config h s ∧ Q s = true :=
  exists_run_of_follow (fun _ _ _ => step_of_next) acts.reverse Q h

/-- A session of messages from a given state. -/
theorem reaches_messages (s₀ : Server) (ms : List Received) (Q : Server → Bool)
    (h : (follow (fun s m => next platform s (.message m)) s₀ ms.reverse).any
      (fun r => Q r.2) = true) :
    ∃ h s, MessageRun platform s₀ h s ∧ Q s = true :=
  exists_run_of_follow (fun _ _ _ => step_of_next) ms.reverse Q h

/-- A session and one more step, with a property of that step. -/
theorem reaches_step (acts : List Act) (a : Act) (Q : Server → Server → Bool)
    (h : (follow (next platform) (start config) acts.reverse).any
      (fun r => (next platform r.2 a).any (Q r.2)) = true) :
    ∃ h s t, ServerRun platform config h s ∧ Step platform s a t
      ∧ Q s t = true := by
  obtain ⟨hist, s, hr, hs⟩ := reaches acts (fun s => (next platform s a).any (Q s)) h
  cases hn : next platform s a with
  | none => rw [hn] at hs; cases hs
  | some t =>
      rw [hn] at hs
      exact ⟨hist, s, t, hr, step_of_next hn, hs⟩

end Session

end DemoCannon
