import DemoCannon.Lib.Calls
import DemoCannon.Tracking

/-! # What is written to the audit log

    `auditlog` is called in the handlers, in the functions that switch the
    outputs on, and where a target is skipped.  Of each function it is said
    once when it writes, and that it leaves the file as it is (`Logs`,
    `LogsAt`), and so of each step of the server (`logsAt_act`). -/

namespace DemoCannon

open Interaction Interaction.Program SystemState

/-! ## What a program writes to the log -/

/-- A line is written only if it may, and to the file that there is. -/
def LineTo (may : Prop) (file : AuditFile) : Call → Prop
  | .auditLine file' _ => may ∧ file' = file ∧ file ≠ .null
  | _ => True

/-- What `p` does with the log from `s`: it writes only if it may, and neither opens
    nor closes the file. -/
structure LogsAt {α : Type} (may : Prop) (p : Prog α) (s : Server) : Prop where
  asks : Asks (LineTo may s.auditFile) p s
  keeps : Post p s fun _ t => t.auditFile = s.auditFile

/-- From everywhere. -/
def Logs {α : Type} (may : Prop) (p : Prog α) : Prop := ∀ s, LogsAt may p s

section Rules

variable {α β : Type} {may : Prop} {s : Server}

theorem Logs.logsAt {p : Prog α} (h : Logs may p) : LogsAt may p s := h s

/-- The rest of a program, from wherever its beginning leads. -/
theorem LogsAt.bind {p : Prog α} {q : α → Prog β} {R : α → Server → Prop}
    (hp : LogsAt may p s) (hR : Post p s R) (hq : ∀ a t, R a t → LogsAt may (q a) t) :
    LogsAt may (p >>= q) s where
  asks := by
    refine (asks_bind p q).mpr ⟨hp.asks, fun a t hend => ?_⟩
    rw [← hp.keeps a t hend]
    exact (hq a t (hR a t hend)).asks
  keeps := by
    refine (post_bind p q s _).mpr fun a t hend => ?_
    refine (hq a t (hR a t hend)).keeps.mono ?_
    intro _ u hu
    exact hu.trans (hp.keeps a t hend)

theorem Logs.bind {p : Prog α} {q : α → Prog β} (hp : Logs may p)
    (hq : ∀ a, Logs may (q a)) : Logs may (p >>= q) :=
  fun s => (hp s).bind (R := fun _ _ => True) (fun _ _ _ => trivial) fun a t _ => hq a t

theorem Logs.pure (a : α) : Logs may (Pure.pure a : Prog α) :=
  fun s => ⟨trivial, (post_pure a s _).mpr rfl⟩

theorem Logs.exit (x : Halt) : Logs may (.exit x : Prog α) :=
  fun s => ⟨trivial, (post_exit x s _).mpr trivial⟩

theorem Logs.call {c : Call} (hc : ∀ file, LineTo may file c) : Logs may (call c) :=
  fun s => ⟨⟨hc s.auditFile, fun _ => trivial⟩, (post_ask c s _).mpr fun _ => rfl⟩

theorem Logs.never : Logs may (never : Prog α) :=
  fun s => ⟨⟨trivial, fun r => Empty.elim r⟩, post_never s _⟩

theorem Logs.update {f : Server → Server} (hf : ∀ s, (f s).auditFile = s.auditFile) :
    Logs may (Program.update f : Prog Unit) :=
  fun s => ⟨trivial, (post_update f s _).mpr (hf s)⟩

/-- A write that leaves the file alone, and what comes after. -/
theorem Logs.write {f : Server → Server} {q : Unit → Prog α}
    (hf : ∀ s, (f s).auditFile = s.auditFile) (hq : Logs may (q ())) :
    Logs may (Program.update f >>= q) := (Logs.update hf).bind fun _ => hq

theorem LogsAt.fetch {k : Server → Prog α} (h : LogsAt may (k s) s) :
    LogsAt may (Program.fetch >>= k) s := ⟨h.asks, h.keeps⟩

theorem Logs.read {k : Server → Prog α} (h : ∀ s, Logs may (k s)) :
    Logs may (Program.fetch >>= k) := fun s => .fetch (h s s)

theorem LogsAt.ite {c : Prop} [Decidable c] {p q : Prog α} (hp : c → LogsAt may p s)
    (hq : ¬ c → LogsAt may q s) : LogsAt may (if c then p else q) s := by
  by_cases h : c
  · rw [if_pos h]
    exact hp h
  · rw [if_neg h]
    exact hq h

theorem Logs.ite {c : Prop} [Decidable c] {p q : Prog α} (hp : Logs may p)
    (hq : Logs may q) : Logs may (if c then p else q) :=
  fun s => .ite (fun _ => hp s) fun _ => hq s

theorem logs_lock (m : Mutex) : Logs may (lock m) := .call fun _ => trivial

theorem logs_unlock (m : Mutex) : Logs may (unlock m) := .call fun _ => trivial

/-- `auditlog` writes to the file, if there is one. -/
theorem logs_auditlog (hmay : may) (msg : String) : Logs may (auditlog msg) := by
  intro s
  have hline : s.auditFile ≠ .null → LogsAt may (call (.auditLine s.auditFile msg)) s :=
    fun hfile => ⟨⟨⟨hmay, rfl, hfile⟩, fun _ => trivial⟩, (post_ask _ s _).mpr fun _ => rfl⟩
  exact .fetch (.ite hline fun _ => Logs.pure () s)

end Rules

/-! ## Sends, servos and outputs -/

section Outputs

variable {may : Prop}

theorem logs_writeDataTcp (data : Bytes) : Logs may (Thread.writeDataTcp data) := by
  refine Logs.bind (.call fun _ => trivial) fun script => ?_
  change Logs may (DemoCannon.writeDataTcp data.length script 0).leave
  cases DemoCannon.writeDataTcp data.length script 0 with
  | returned retval => exact .pure _
  | exited => exact .exit _
  | waiting => exact .never

theorem logs_printfSend (text : String) : Logs may (printfSend text) := by
  have hdone : ∀ n : Int, Logs may (do unlock .tcp; pure n) :=
    fun n => (logs_unlock .tcp).bind fun _ => .pure n
  refine (logs_lock .tcp).bind fun _ => Logs.ite ?_ (hdone _)
  refine (logs_writeDataTcp _).bind fun _ => Logs.ite (hdone _) ?_
  exact (logs_writeDataTcp _).bind fun _ => Logs.ite (hdone _) (hdone _)

theorem logs_say (text : String) : Logs may (say text) :=
  (logs_printfSend text).bind fun _ => .pure ()

/-- A send of one word under the lock. -/
theorem logs_sendWord (data : Bytes) : Logs may (do
    lock .tcp
    let retval ← Thread.writeDataTcp data
    unlock .tcp
    pure retval) :=
  (logs_lock .tcp).bind fun _ => (logs_writeDataTcp data).bind fun _ =>
    (logs_unlock .tcp).bind fun _ => .pure _

theorem logs_sendCurrentState : Logs may sendCurrentState := by
  have hdraw : Logs may oledUpdateStatus := by
    refine Logs.read fun _ => Logs.ite ((logs_lock .i2c).bind fun _ => ?_) (.pure ())
    exact Logs.write (fun _ => rfl) (logs_unlock .i2c)
  have hsend : ∀ state, Logs may (sendSystemState state) := fun state =>
    (logs_lock .tcp).bind fun _ => hdraw.bind fun _ => (logs_writeDataTcp _).bind fun _ =>
      (logs_unlock .tcp).bind fun _ => .pure _
  exact Logs.read fun s => (hsend s.systemState).bind fun _ => .pure ()

theorem logs_servoAngle (num : ServoNum) : Logs may (servoAngle num) := by
  have hcommand : Logs may (do
      update fun s => s.command num
      unlock .i2c : Prog Unit) :=
    Logs.write (fun s => by cases num <;> rfl) (logs_unlock .i2c)
  have hclamp : ∀ (angle : Rat) (text : String), Logs may (do
      update fun s => s.setAngle angle num
      say text
      update fun s => s.command num
      unlock .i2c : Prog Unit) := fun angle text =>
    Logs.write (fun s => by cases num <;> rfl) ((logs_say text).bind fun _ => hcommand)
  refine (logs_lock .i2c).bind fun _ => Logs.read fun s => ?_
  exact (hclamp _ _).ite ((hclamp _ _).ite hcommand)

/-- A flag of the state word that is set or cleared under the lock. -/
theorem logs_flag {f g : Server → Server} (value : Bool)
    (hf : ∀ s, (f s).auditFile = s.auditFile) (hg : ∀ s, (g s).auditFile = s.auditFile) :
    Logs may (do
      lock .gpio
      if value then update f else update g
      unlock .gpio : Prog Unit) :=
  (logs_lock .gpio).bind fun _ => Logs.ite (Logs.write hf (logs_unlock .gpio))
    (Logs.write hg (logs_unlock .gpio))

theorem logs_armed (value : Bool) : Logs may (armed value) :=
  logs_flag value (fun _ => rfl) fun _ => rfl

theorem logs_calibrate (value : Bool) : Logs may (calibrate value) :=
  logs_flag value (fun _ => rfl) fun _ => rfl

/-- An output and its flag, switched under the lock; that it is switched on is
    logged. -/
theorem logs_switch {f g k : Server → Server} {value : Bool} (hmay : value = true → may)
    (msg : String) (hf : ∀ s, (f s).auditFile = s.auditFile)
    (hg : ∀ s, (g s).auditFile = s.auditFile) (hk : ∀ s, (k s).auditFile = s.auditFile) :
    Logs may (do
      lock .gpio
      if value then
        auditlog msg
        update f
      else update g
      update k
      unlock .gpio : Prog Unit) := by
  have hpin : Logs may (do update k; unlock .gpio : Prog Unit) :=
    Logs.write hk (logs_unlock .gpio)
  refine (logs_lock .gpio).bind fun _ s => .ite (fun hvalue => ?_) fun _ => ?_
  · exact Logs.logsAt ((logs_auditlog (hmay hvalue) msg).bind fun _ => Logs.write hf hpin)
  · exact Logs.logsAt (Logs.write hg hpin)

theorem logs_laser {value : Bool} (hmay : value = true → may) : Logs may (laser value) :=
  logs_switch hmay _ (fun _ => rfl) (fun _ => rfl) fun _ => rfl

/-- A shot is logged, a refusal of it is not. -/
theorem logsAt_fire {value : Bool} {s : Server}
    (hmay : value = true → ¬ firingDenied s.systemState → may) : LogsAt may (fire value) s := by
  refine .fetch (.ite (fun _ => ?_) fun hpermitted => ?_)
  · exact Logs.logsAt ((logs_say _).bind fun _ =>
      Logs.write (fun _ => rfl) logs_sendCurrentState)
  · have hshot : value = true → may := fun hvalue =>
      hmay hvalue fun hdenied => hpermitted ⟨hvalue, hdenied⟩
    exact Logs.logsAt (logs_switch hshot _ (fun _ => rfl) (fun _ => rfl) fun _ => rfl)

theorem logs_fire {value : Bool} (hmay : value = true → may) : Logs may (fire value) :=
  fun _ => logsAt_fire fun hvalue _ => hmay hvalue

end Outputs

/-! ## Messages

    A message is only handled while the thread runs that has opened the log. -/

section Messages

variable {may : Prop}

theorem logs_setState (state : SystemState) : Logs may (setState state) :=
  .update fun _ => rfl

theorem logs_updateAuto (f : TAutoEngage → TAutoEngage) : Logs may (updateAuto f) :=
  .update fun _ => rfl

theorem logs_processLogin (P : Platform) (m : Received) : Logs may (processLogin P m) := by
  refine Logs.read fun s => ?_
  cases checkLogin P m s.user with
  | none => exact Logs.exit _
  | some result =>
      obtain ⟨lState, user⟩ := result
      refine Logs.write (fun _ => rfl) ((logs_sendWord _).bind fun _ => ?_)
      refine Logs.write (fun _ => rfl) (Logs.read fun _ => Logs.ite ?_ (.pure ()))
      refine Logs.bind (.call fun _ => trivial) fun (_ : Int) => ?_
      exact Logs.ite (.exit _) (.update fun _ => rfl)

theorem logs_processCamStateChangeRequest (state : BitVec 32) :
    Logs may (processCamStateChangeRequest state) := by
  have hset : ∀ on word, Logs may (do
      update fun s => { s with isCameraOn := on }
      let _ ← sendCamState word
      pure () : Prog Unit) := fun on word =>
    Logs.write (fun _ => rfl) ((logs_sendWord _).bind fun _ => .pure ())
  exact Logs.ite (hset true camOn) (Logs.ite (hset false camOff) (.pure ()))

theorem logs_processPreArm (code : Bytes) : Logs may (processPreArm code) := by
  refine Logs.read fun _ => Logs.ite (Logs.ite (Logs.ite ?_ (.pure ())) (logs_say _)) (.pure ())
  exact Logs.write (fun _ => rfl) logs_sendCurrentState

theorem logs_processFiringOrder (firingOrder : Bytes) :
    Logs may (processFiringOrder firingOrder) := by
  refine (logs_updateAuto _).bind fun _ => Logs.ite (.pure ()) (Logs.read fun s => ?_)
  refine (logs_updateAuto _).bind fun _ => Logs.ite (.pure ()) (Logs.ite ?_ ?_)
  · exact (logs_updateAuto _).bind fun _ => logs_updateAuto _
  · exact (logs_updateAuto _).bind fun _ => logs_say _

theorem logs_processCalibCommands (cmd : UInt8) : Logs may (processCalibCommands cmd) := by
  refine Logs.read fun _ => Logs.ite (.pure ()) (Logs.ite (.update fun _ => rfl) ?_)
  refine Logs.ite (.update fun _ => rfl) (Logs.ite (.update fun _ => rfl) ?_)
  exact Logs.ite (.update fun _ => rfl) (.pure ())

theorem logs_processCommands (hmay : may) (cmd : UInt8) : Logs may (processCommands cmd) := by
  have hstop : ∀ on off, Logs may (runCmd on off) := fun on off => .update fun _ => rfl
  have hmove : ∀ on off num delta, Logs may (do
      runCmd on off
      step num delta) := fun on off num delta =>
    (hstop on off).bind fun _ =>
      Logs.write (fun s => by cases num <;> rfl) (logs_servoAngle num)
  have hfire : ∀ on off value, Logs may (do
      runCmd on off
      fire value
      sendCurrentState) := fun on off value =>
    (hstop on off).bind fun _ => (logs_fire fun _ => hmay).bind fun _ => logs_sendCurrentState
  refine Logs.read fun _ => Logs.ite (.pure ()) (Logs.ite (.pure ()) ?_)
  refine Logs.ite (hmove _ _ _ _) (Logs.ite (hmove _ _ _ _) ?_)
  refine Logs.ite (hmove _ _ _ _) (Logs.ite (hmove _ _ _ _) ?_)
  refine Logs.ite (hfire _ _ _) (Logs.ite (hstop _ _) (Logs.ite (hstop _ _) ?_))
  refine Logs.ite (hstop _ _) (Logs.ite (hstop _ _) ?_)
  exact Logs.ite (hfire _ _ _) (.pure ())

theorem logs_applyFlags (hmay : may) : Logs may applyFlags := by
  have hwrite : Logs may writeOffsets :=
    Logs.bind (.call fun _ => trivial) fun (_ : IniWrite) => .update fun _ => rfl
  refine Logs.read fun _ => (logs_laser fun _ => hmay).bind fun _ => Logs.read fun _ => ?_
  refine Logs.ite ?_ ((logs_calibrate false).bind fun _ => Logs.read fun _ => Logs.ite ?_ ?_)
  · exact (logs_calibrate true).bind fun _ => Logs.write (fun _ => rfl) logs_sendCurrentState
  · exact Logs.write (fun _ => rfl) (hwrite.bind fun _ => logs_sendCurrentState)
  · exact logs_sendCurrentState

theorem logs_processStateChangeRequest (hmay : may) (state : SystemState) :
    Logs may (processStateChangeRequest state) := by
  have hlaser : Logs may (laser false) := logs_laser fun h => absurd h Bool.false_ne_true
  have hfire : Logs may (fire false) := logs_fire fun h => absurd h Bool.false_ne_true
  have hcalibrate : Logs may (calibrate false) := logs_calibrate false
  have hthen : ∀ {p : Prog Unit}, Logs may p → Logs may (p >>= fun _ => applyFlags) :=
    fun hp => hp.bind fun _ => logs_applyFlags hmay
  refine Logs.ite (hthen ?_) (Logs.ite (hthen (Logs.read fun _ => Logs.ite ?_ (.pure ()))) ?_)
  · exact hlaser.bind fun _ => hcalibrate.bind fun _ => hfire.bind fun _ =>
      (logs_setState _).bind fun _ => logs_updateAuto _
  · refine hlaser.bind fun _ => hfire.bind fun _ => hcalibrate.bind fun _ => ?_
    exact Logs.read fun _ => Logs.ite ((logs_updateAuto _).bind fun _ => logs_setState _)
      (logs_setState _)
  refine Logs.ite (hthen ?_) (Logs.ite (hthen ?_) (logs_applyFlags hmay))
  · refine Logs.read fun _ => Logs.ite (logs_say _) (Logs.ite (logs_say _) ?_)
    exact hlaser.bind fun _ => hcalibrate.bind fun _ => hfire.bind fun _ =>
      (logs_setState _).bind fun _ => logs_updateAuto _
  · refine Logs.read fun _ => Logs.ite (logs_say _) (Logs.ite ?_ (logs_setState _))
    exact hlaser.bind fun _ => hcalibrate.bind fun _ => hfire.bind fun _ => logs_setState _

theorem logs_dispatch (hmay : may) (P : Platform) (m : Received) :
    Logs may (dispatch P m) := by
  have hlogged : ∀ {name : String} {p : Prog Unit}, Logs may p →
      Logs may (do auditlog name; p) :=
    fun hp => (logs_auditlog hmay _).bind fun _ => hp
  refine Logs.ite (hlogged (logs_processLogin P _)) (Logs.read fun _ => ?_)
  refine Logs.ite (.pure ()) ?_
  refine Logs.ite (hlogged (logs_processCamStateChangeRequest _)) ?_
  refine Logs.ite (hlogged (logs_processCommands hmay _)) ?_
  refine Logs.ite (hlogged (logs_processCalibCommands _)) ?_
  refine Logs.ite (hlogged (logs_processFiringOrder _)) ?_
  refine Logs.ite (hlogged (logs_processPreArm _)) ?_
  exact Logs.ite (hlogged (logs_processStateChangeRequest hmay _)) (logs_auditlog hmay _)

end Messages

/-! ## Frames

    Only a target that is skipped is logged. -/

/-- `TryToMatch` gives the target up: it cannot be aimed at, or has not been found for
    too long. -/
def Server.Skips (s : Server) (f : Frame) : Prop :=
  match s.firstMatch f with
  | some d => ¬ (s.PanInside f d ∧ s.TiltInside f d)
  | none => s.trying = true ∧ skipDelayMs < (f.now - s.tbegin) / 1000000

instance (s : Server) (f : Frame) : Decidable (s.Skips f) :=
  match hfirst : s.firstMatch f with
  | some d => decidable_of_iff (¬ (s.PanInside f d ∧ s.TiltInside f d)) (by
      rw [Server.Skips, hfirst])
  | none => decidable_of_iff (s.trying = true ∧ skipDelayMs < (f.now - s.tbegin) / 1000000) (by
      rw [Server.Skips, hfirst])

theorem Matched.engagementComplete_iff {s m : Server} {f : Frame} {r : TEngagementState}
    (h : Matched s f r m) : r = .engagementComplete ↔ s.Skips f := by
  cases h with
  | panLimit hfirst hpan =>
      rw [Server.Skips, hfirst]
      exact ⟨fun _ h => hpan h.1, fun _ => rfl⟩
  | tiltLimit hfirst hpan htilt =>
      rw [Server.Skips, hfirst]
      exact ⟨fun _ h => htilt h.2, fun _ => rfl⟩
  | aimed hfirst hpan htilt =>
      rw [Server.Skips, hfirst]
      constructor
      · intro h
        split at h <;> cases h
      · intro h
        exact absurd ⟨hpan, htilt⟩ h
  | starts hfirst htrying =>
      rw [Server.Skips, hfirst]
      refine ⟨by rintro ⟨⟩, fun h => ?_⟩
      rw [htrying] at h
      exact absurd h.1 Bool.false_ne_true
  | goesOn hfirst htrying htime =>
      rw [Server.Skips, hfirst]
      exact ⟨by rintro ⟨⟩, fun h => absurd h.2 htime⟩
  | givesUp hfirst htrying htime =>
      rw [Server.Skips, hfirst]
      exact ⟨fun _ => ⟨htrying, htime⟩, fun _ => rfl⟩

section Frames

variable {may : Prop} {f : Frame}

theorem logs_aimAt (d : TDetectedMatches) : Logs may (aimAt f d) := by
  have hcount : Logs may countStable := Logs.read fun _ => Logs.write (fun _ => rfl) (.pure _)
  have hskip : ∀ text, Logs may (do
      say text
      pure .engagementComplete : Prog TEngagementState) := fun text =>
    (logs_say text).bind fun _ => .pure _
  have htilt : Logs may (aimTilt f d) := by
    refine Logs.read fun _ => Logs.write (fun _ => rfl) (Logs.read fun _ => ?_)
    exact Logs.ite ((logs_servoAngle _).bind fun _ => hcount) (hskip _)
  refine Logs.read fun _ => Logs.write (fun _ => rfl) (Logs.read fun _ => ?_)
  exact Logs.ite ((logs_servoAngle _).bind fun _ => htilt) (hskip _)

theorem logs_tryToMatch : Logs may (tryToMatch f) := by
  have hlast : ∀ state : TEngagementState, Logs may (do
      if state ≠ .lookingForTarget then update fun s => { s with trying := false }
      else pure ()
      pure state : Prog TEngagementState) := fun state =>
    Logs.ite (Logs.write (fun _ => rfl) (.pure _)) (.pure _)
  have hlook : Logs may (lookOn f) :=
    Logs.read fun _ => Logs.ite (Logs.write (fun _ => rfl) (.pure _))
      (Logs.ite (.pure _) (.pure _))
  refine Logs.read fun s => ?_
  cases f.detectedMatches.find? _ with
  | some d => exact (logs_aimAt d).bind hlast
  | none => exact hlook.bind hlast

theorem logs_enterState {state : TEngagementState} (hmay : state = .engagementComplete → may) :
    Logs may (enterState state) := by
  refine Logs.read fun s => ?_
  cases state with
  | lookingForTarget | tracking =>
      exact (logs_armed _).bind fun _ => logs_sendCurrentState.bind fun _ => logs_say _
  | trackingStable =>
      refine (logs_say _).bind fun _ => (logs_updateAuto _).bind fun _ => ?_
      refine Logs.bind (.call fun _ => trivial) fun (_ : Int) => Logs.ite (.exit _) ?_
      refine .update fun s => ?_
      rw [Server.signal]
      split <;> rfl
  | engagementComplete => exact (logs_say _).bind fun _ => logs_auditlog (hmay rfl) _
  | notActive | activate | newTarget | engagementInProgress => exact Logs.pure ()

theorem logsAt_track {s : Server} (hmay : s.Skips f → may) (newState : Bool) :
    LogsAt may (track f newState) s := by
  refine (logs_tryToMatch s).bind (matched_tryToMatch f s) fun state m hm => ?_
  have henter : ∀ changed : Bool, Logs may
      (if newState || changed then enterState state else pure ()) := fun changed =>
    Logs.ite (logs_enterState fun h => hmay (hm.engagementComplete_iff.mp h)) (.pure ())
  exact Logs.logsAt (Logs.read fun s =>
    Logs.ite ((logs_updateAuto _).bind fun _ => henter _) (henter _))

theorem logs_nextTarget : Logs may nextTarget := by
  refine (logs_updateAuto _).bind fun _ => Logs.read fun _ => Logs.ite ?_ (logs_updateAuto _)
  exact (logs_updateAuto _).bind fun _ => Logs.write (fun _ => rfl)
    (logs_sendCurrentState.bind fun _ => logs_say _)

/-- `ProcessTargetEngagements` looks for a target that it has selected before. -/
theorem search_track {s : Server} (hs : s.Searches) : ∃ newState,
    (∀ G, Asks G (processTargetEngagements f) s ↔ Asks G (track f newState) s.searching)
    ∧ ∀ Q, Post (processTargetEngagements f) s Q ↔ Post (track f newState) s.searching Q := by
  have hasks : ∀ {G : Call → Prop} {k : Server → Prog Unit},
      Asks G (fetch >>= k) s ↔ Asks G (k s) s := Iff.rfl
  have hpost : ∀ {Q : Unit → Server → Prop} {k : Server → Prog Unit},
      Post (fetch >>= k) s Q ↔ Post (k s) s Q := Iff.rfl
  cases hstate : s.autoEngage.state with
  | activate | newTarget =>
      refine ⟨true, fun G => ?_, fun Q => ?_⟩
      · rw [processTargetEngagements, hasks, Server.searching, TAutoEngage.searching, hstate]
        exact Iff.rfl
      · rw [processTargetEngagements, hpost, Server.searching, TAutoEngage.searching, hstate]
        exact Iff.rfl
  | lookingForTarget | tracking =>
      refine ⟨false, fun G => ?_, fun Q => ?_⟩
      · rw [processTargetEngagements, hasks, Server.searching, TAutoEngage.searching, hstate]
      · rw [processTargetEngagements, hpost, Server.searching, TAutoEngage.searching, hstate]
  | notActive | engagementInProgress | engagementComplete | trackingStable =>
      rw [Server.Searches, hstate] at hs
      exact absurd hs (by decide)

theorem logsAt_processTargetEngagements {s : Server}
    (hmay : s.Searches ∧ s.searching.Skips f → may) :
    LogsAt may (processTargetEngagements f) s := by
  by_cases hs : s.Searches
  · obtain ⟨newState, hasks, hpost⟩ := search_track (f := f) hs
    have htrack := logsAt_track (fun h => hmay ⟨hs, h⟩) newState
    exact ⟨(hasks _).mpr htrack.asks, (hpost _).mpr htrack.keeps⟩
  · refine .fetch ?_
    cases hstate : s.autoEngage.state with
    | notActive | engagementInProgress | trackingStable => exact Logs.logsAt (.pure ())
    | engagementComplete => exact Logs.logsAt logs_nextTarget
    | activate | newTarget | lookingForTarget | tracking =>
        rw [Server.Searches, hstate] at hs
        exact absurd hs (by decide)

end Frames

/-! ## What a step writes -/

/-- The step writes to the log, if there is a file. -/
def Server.WritesLog (s : Server) : Act → Prop
  | .message _ => True
  | .frame f => s.Searches ∧ s.searching.Skips f
  | .statement =>
      s.engagement = .laserTrue ∨ s.engagement = .fireTrue ∧ ¬ firingDenied s.systemState
  | .spuriousWakeup => False

instance (s : Server) (a : Act) : Decidable (s.WritesLog a) :=
  match a with
  | .message _ => isTrue trivial
  | .frame f => inferInstanceAs (Decidable (s.Searches ∧ s.searching.Skips f))
  | .statement => inferInstanceAs (Decidable (_ ∨ _ ∧ ¬ _))
  | .spuriousWakeup => isFalse id

theorem logsAt_engagementStatement {may : Prop} {s : Server}
    (hmay : s.WritesLog .statement → may) : LogsAt may engagementStatement s := by
  have hgo : ∀ {p : Prog Unit} {pc : EngagementPc}, LogsAt may p s →
      LogsAt may (do p; goto pc) s := fun hp =>
    hp.bind (R := fun _ _ => True) (fun _ _ _ => trivial) fun _ _ _ =>
      Logs.logsAt (.update fun _ => rfl)
  have hoff : false = true → may := fun h => absurd h Bool.false_ne_true
  refine .fetch ?_
  cases hpc : s.engagement with
  | wait => exact hgo (logs_lock _).logsAt
  | waiting => exact Logs.never s
  | laserTrue => exact hgo (logs_laser fun _ => hmay (Or.inl hpc)).logsAt
  | fireTrue => exact hgo (logsAt_fire fun _ hpermitted => hmay (Or.inr ⟨hpc, hpermitted⟩))
  | laserFalse => exact hgo (logs_laser hoff).logsAt
  | fireFalse => exact hgo (logs_fire hoff).logsAt
  | armedFalse => exact hgo (logs_armed _).logsAt
  | sendLaser | sendFire | sendEngaged => exact hgo logs_sendCurrentState.logsAt
  | printfEngaged => exact hgo (logs_say _).logsAt
  | setComplete => exact hgo (logs_updateAuto _).logsAt
  | unlock => exact hgo (logs_unlock _).logsAt

/-- **What a step does with the log**: nothing else is written, and the file is neither
    opened nor closed. -/
theorem logsAt_act (P : Platform) (a : Act) (s : Server) :
    LogsAt (s.WritesLog a) (a.prog P) s := by
  cases a with
  | message m => exact logs_dispatch trivial P m s
  | frame f => exact logsAt_processTargetEngagements id
  | statement => exact logsAt_engagementStatement id
  | spuriousWakeup =>
      exact Logs.logsAt (Logs.read fun _ => Logs.ite (.update fun _ => rfl) .never)

end DemoCannon
