import DemoCannon.Accesses

/-! # What the server does to the user table

    Only a login changes the table: of all accesses to the state no other writes it.  So
    it is known what a step leaves of it, also when it ends with the process
    (`user_of_stops`). -/

namespace DemoCannon

open Interaction Interaction.Program SystemState

/-! ## Only a login changes the table -/

/-- The table is the same. -/
def SameUser (s t : Server) : Prop := t.user = s.user

section SameUser

variable {α : Type}

theorem sameUser_fetch {k : Server → Prog α} (h : ∀ s, Accesses SameUser (k s)) :
    Accesses SameUser (fetch >>= k) := .read (fun _ => rfl) h

theorem sameUser_write {f : Server → Server} {q : Unit → Prog α} (hf : ∀ s, (f s).user = s.user)
    (hq : Accesses SameUser (q ())) : Accesses SameUser (update f >>= q) :=
  (Accesses.update hf).bind fun _ => hq

/-- A statement and what comes after it. -/
theorem sameUser_next {p : Prog Unit} {q : Unit → Prog α} (hp : Accesses SameUser p)
    (hq : Accesses SameUser (q ())) : Accesses SameUser (p >>= q) := hp.bind fun _ => hq

theorem sameUser_auditlog (msg : String) : Accesses SameUser (auditlog msg) :=
  sameUser_fetch fun _ => (accesses_call _).ite (.pure _)

theorem sameUser_oledUpdateStatus : Accesses SameUser oledUpdateStatus := by
  refine sameUser_fetch fun _ => Accesses.ite ?_ (.pure _)
  exact sameUser_next (accesses_call _) (sameUser_write (fun _ => rfl) (accesses_call _))

theorem sameUser_sendCurrentState : Accesses SameUser sendCurrentState := by
  refine sameUser_fetch fun s => ?_
  have hsend : Accesses SameUser (sendSystemState s.systemState) :=
    sameUser_next (accesses_call _) (sameUser_next sameUser_oledUpdateStatus
      ((accesses_writeDataTcp _).bind fun _ => sameUser_next (accesses_call _) (.pure _)))
  exact hsend.bind fun _ => .pure _

theorem sameUser_servoAngle (num : ServoNum) : Accesses SameUser (servoAngle num) := by
  have hcommand : Accesses SameUser (do
      update fun s => s.command num
      unlock .i2c : Prog Unit) :=
    sameUser_write (fun _ => by cases num <;> rfl) (accesses_call _)
  have hclamp : ∀ (angle : Rat) (text : String), Accesses SameUser (do
      update fun s => s.setAngle angle num
      say text
      update fun s => s.command num
      unlock .i2c : Prog Unit) := fun angle text =>
    sameUser_write (fun _ => by cases num <;> rfl) (sameUser_next (accesses_say text) hcommand)
  refine sameUser_next (accesses_call _) (sameUser_fetch fun s => ?_)
  exact (hclamp _ _).ite ((hclamp _ _).ite hcommand)

theorem sameUser_fire (value : Bool) : Accesses SameUser (fire value) := by
  have hpin : Accesses SameUser (do
      update fun s => { s with gpio17 := value }
      unlock .gpio : Prog Unit) := sameUser_write (fun _ => rfl) (accesses_call _)
  refine sameUser_fetch fun _ => Accesses.ite ?_ (sameUser_next (accesses_call _) ?_)
  · exact sameUser_next (accesses_say _)
      (sameUser_write (fun _ => rfl) sameUser_sendCurrentState)
  · cases value with
    | true =>
        exact sameUser_next (sameUser_auditlog _) (sameUser_write (fun _ => rfl) hpin)
    | false => exact sameUser_write (fun _ => rfl) hpin

theorem sameUser_laser (value : Bool) : Accesses SameUser (laser value) := by
  have hpin : Accesses SameUser (do
      update fun s => { s with gpio18 := value }
      unlock .gpio : Prog Unit) := sameUser_write (fun _ => rfl) (accesses_call _)
  refine sameUser_next (accesses_call _) ?_
  cases value with
  | true => exact sameUser_next (sameUser_auditlog _) (sameUser_write (fun _ => rfl) hpin)
  | false => exact sameUser_write (fun _ => rfl) hpin

theorem sameUser_flag {f g : Server → Server} (value : Bool) (hf : ∀ s, (f s).user = s.user)
    (hg : ∀ s, (g s).user = s.user) : Accesses SameUser (do
      lock .gpio
      if value then update f else update g
      unlock .gpio : Prog Unit) := by
  refine sameUser_next (accesses_call _) ?_
  cases value with
  | true => exact sameUser_write hf (accesses_call _)
  | false => exact sameUser_write hg (accesses_call _)

theorem sameUser_armed (value : Bool) : Accesses SameUser (armed value) :=
  sameUser_flag value (fun _ => rfl) fun _ => rfl

theorem sameUser_calibrate (value : Bool) : Accesses SameUser (calibrate value) :=
  sameUser_flag value (fun _ => rfl) fun _ => rfl

/-- All three off, as most requests begin. -/
theorem sameUser_off {q : Prog Unit} (hq : Accesses SameUser q) : Accesses SameUser (do
    laser false
    calibrate false
    fire false
    q : Prog Unit) :=
  sameUser_next (sameUser_laser _) (sameUser_next (sameUser_calibrate _)
    (sameUser_next (sameUser_fire _) hq))

/-! ### The handlers -/

theorem sameUser_processPreArm (code : Bytes) : Accesses SameUser (processPreArm code) :=
  sameUser_fetch fun _ => Accesses.ite (Accesses.ite (Accesses.ite
    (sameUser_write (fun _ => rfl) sameUser_sendCurrentState) (.pure _)) (accesses_say _)) (.pure _)

theorem sameUser_applyFlags : Accesses SameUser applyFlags := by
  have hwrite : Accesses SameUser writeOffsets :=
    (accesses_call _).bind fun (_ : IniWrite) => .update fun _ => rfl
  refine sameUser_fetch fun _ => sameUser_next (sameUser_laser _) (sameUser_fetch fun _ => ?_)
  refine Accesses.ite (sameUser_next (sameUser_calibrate _)
    (sameUser_write (fun _ => rfl) sameUser_sendCurrentState)) ?_
  refine sameUser_next (sameUser_calibrate _) (sameUser_fetch fun _ => Accesses.ite ?_ ?_)
  · exact sameUser_write (fun _ => rfl) (sameUser_next hwrite sameUser_sendCurrentState)
  · exact sameUser_sendCurrentState

theorem sameUser_processStateChangeRequest (state : SystemState) :
    Accesses SameUser (processStateChangeRequest state) := by
  have hset : ∀ word, Accesses SameUser (setState word) := fun _ => .update fun _ => rfl
  have hauto : ∀ f, Accesses SameUser (updateAuto f) := fun _ => .update fun _ => rfl
  have hthen : ∀ {p : Prog Unit}, Accesses SameUser p → Accesses SameUser (do p; applyFlags) :=
    fun hp => sameUser_next hp sameUser_applyFlags
  refine Accesses.ite (hthen ?_) (Accesses.ite (hthen ?_) (Accesses.ite (hthen ?_)
    (Accesses.ite (hthen ?_) sameUser_applyFlags)))
  · exact sameUser_off (sameUser_next (hset _) (hauto _))
  · refine sameUser_fetch fun _ => Accesses.ite ?_ (.pure _)
    refine sameUser_next (sameUser_laser _) (sameUser_next (sameUser_fire _)
      (sameUser_next (sameUser_calibrate _) (sameUser_fetch fun _ => ?_)))
    exact Accesses.ite (sameUser_next (hauto _) (hset _)) (hset _)
  · refine sameUser_fetch fun _ => Accesses.ite (accesses_say _) (Accesses.ite (accesses_say _) ?_)
    exact sameUser_off (sameUser_next (hset _) (hauto _))
  · refine sameUser_fetch fun _ => Accesses.ite (accesses_say _) (Accesses.ite ?_ (hset _))
    exact sameUser_off (hset _)

theorem sameUser_processFiringOrder (firingOrder : Bytes) :
    Accesses SameUser (processFiringOrder firingOrder) := by
  refine sameUser_write (fun _ => rfl) (Accesses.ite (.pure _) (sameUser_fetch fun _ => ?_))
  refine sameUser_write (fun _ => rfl) (Accesses.ite (.pure _) (Accesses.ite ?_ ?_))
  · exact sameUser_write (fun _ => rfl) (.update fun _ => rfl)
  · exact sameUser_write (fun _ => rfl) (accesses_say _)

theorem sameUser_processCommands (cmd : UInt8) : Accesses SameUser (processCommands cmd) := by
  have hrun : ∀ on off, Accesses SameUser (runCmd on off) := fun _ _ => .update fun _ => rfl
  have hmove : ∀ on off num delta, Accesses SameUser (do runCmd on off; step num delta) :=
    fun on off num delta => sameUser_next (hrun on off)
      (sameUser_write (fun _ => by cases num <;> rfl) (sameUser_servoAngle num))
  have hfire : ∀ on off value, Accesses SameUser (do
      runCmd on off
      fire value
      sendCurrentState) := fun on off value =>
    sameUser_next (hrun on off) (sameUser_next (sameUser_fire value) sameUser_sendCurrentState)
  refine sameUser_fetch fun _ => Accesses.ite (.pure _) (Accesses.ite (.pure _) ?_)
  exact (hmove _ _ _ _).ite ((hmove _ _ _ _).ite ((hmove _ _ _ _).ite ((hmove _ _ _ _).ite
    ((hfire _ _ _).ite ((hrun _ _).ite ((hrun _ _).ite ((hrun _ _).ite ((hrun _ _).ite
      ((hfire _ _ _).ite (.pure _))))))))))

theorem sameUser_processCalibCommands (cmd : UInt8) :
    Accesses SameUser (processCalibCommands cmd) := by
  have hset : ∀ {f : Server → Server}, (∀ s, (f s).user = s.user) →
      Accesses SameUser (update f : Prog Unit) := fun hf => .update hf
  refine sameUser_fetch fun _ => Accesses.ite (.pure _) ?_
  exact Accesses.ite (hset fun _ => rfl) (Accesses.ite (hset fun _ => rfl)
    (Accesses.ite (hset fun _ => rfl) (Accesses.ite (hset fun _ => rfl) (.pure _))))

theorem sameUser_processCamStateChangeRequest (state : BitVec 32) :
    Accesses SameUser (processCamStateChangeRequest state) := by
  have hset : ∀ on word, Accesses SameUser (do
      update fun s => { s with isCameraOn := on }
      let _ ← sendCamState word
      pure () : Prog Unit) := fun _ _ =>
    sameUser_write (fun _ => rfl) ((accesses_sendWord _).bind fun _ => .pure _)
  exact Accesses.ite (hset true camOn) (Accesses.ite (hset false camOff) (.pure _))

theorem sameUser_switchType (m : Received) : Accesses SameUser (switchType m) := by
  have hcase : ∀ {msg : String} {p : Prog Unit}, Accesses SameUser p →
      Accesses SameUser (do auditlog msg; p) := fun hp => sameUser_next (sameUser_auditlog _) hp
  refine (hcase (sameUser_processCamStateChangeRequest _)).ite ?_
  refine (hcase (sameUser_processCommands _)).ite ?_
  refine (hcase (sameUser_processCalibCommands _)).ite ?_
  refine (hcase (sameUser_processFiringOrder _)).ite ?_
  refine (hcase (sameUser_processPreArm _)).ite ?_
  exact Accesses.ite (hcase (sameUser_processStateChangeRequest _)) (sameUser_auditlog _)

/-! ### Frames and statements -/

theorem sameUser_tryToMatch (f : Frame) : Accesses SameUser (tryToMatch f) := by
  have hcount : Accesses SameUser countStable :=
    sameUser_fetch fun _ => sameUser_write (fun _ => rfl) (.pure _)
  have htilt : ∀ d, Accesses SameUser (aimTilt f d) := fun d =>
    sameUser_fetch fun _ => sameUser_write (fun _ => rfl) (sameUser_fetch fun _ =>
      (sameUser_next (sameUser_servoAngle _) hcount).ite
        (sameUser_next (accesses_say _) (.pure _)))
  have haim : ∀ d, Accesses SameUser (aimAt f d) := fun d =>
    sameUser_fetch fun _ => sameUser_write (fun _ => rfl) (sameUser_fetch fun _ =>
      (sameUser_next (sameUser_servoAngle _) (htilt d)).ite
        (sameUser_next (accesses_say _) (.pure _)))
  have hlook : Accesses SameUser (lookOn f) :=
    sameUser_fetch fun _ => Accesses.ite (sameUser_write (fun _ => rfl) (.pure _))
      (Accesses.ite (.pure _) (.pure _))
  have hlast : ∀ state : TEngagementState, Accesses SameUser (do
      if state ≠ .lookingForTarget then
        update fun s => { s with trying := false }
      else pure ()
      pure state : Prog TEngagementState) := fun _ =>
    Accesses.ite (sameUser_write (fun _ => rfl) (.pure _)) (.pure _)
  refine sameUser_fetch fun s => ?_
  cases f.detectedMatches.find? _ with
  | some d => exact (haim d).bind hlast
  | none => exact hlook.bind hlast

theorem sameUser_enterState (state : TEngagementState) :
    Accesses SameUser (enterState state) := by
  refine sameUser_fetch fun s => ?_
  cases state with
  | lookingForTarget | tracking =>
      exact sameUser_next (sameUser_armed _)
        (sameUser_next sameUser_sendCurrentState (accesses_say _))
  | trackingStable =>
      refine sameUser_next (accesses_say _) (sameUser_write (fun _ => rfl) ?_)
      refine (accesses_call _).bind fun (_ : Int) => Accesses.ite (.exit _) (.update fun s => ?_)
      rw [SameUser, Server.signal]
      split <;> rfl
  | engagementComplete => exact sameUser_next (accesses_say _) (sameUser_auditlog _)
  | notActive | activate | newTarget | engagementInProgress => exact .pure _

theorem sameUser_track (f : Frame) (newState : Bool) : Accesses SameUser (track f newState) := by
  refine (sameUser_tryToMatch f).bind fun state => sameUser_fetch fun _ => ?_
  have henter : ∀ c : Bool, Accesses SameUser
      (if c then enterState state else pure () : Prog Unit) := fun _ =>
    (sameUser_enterState state).ite (.pure _)
  exact Accesses.ite (sameUser_write (fun _ => rfl) (henter _)) (henter _)

theorem sameUser_processTargetEngagements (f : Frame) :
    Accesses SameUser (processTargetEngagements f) := by
  refine sameUser_fetch fun s => ?_
  cases s.autoEngage.state with
  | notActive | engagementInProgress | trackingStable => exact .pure _
  | activate =>
      exact sameUser_write (fun _ => rfl)
        (sameUser_write (fun _ => rfl) (sameUser_track f true))
  | newTarget => exact sameUser_write (fun _ => rfl) (sameUser_track f true)
  | lookingForTarget | tracking => exact sameUser_track f false
  | engagementComplete =>
      refine sameUser_write (fun _ => rfl) (sameUser_fetch fun _ => Accesses.ite ?_ ?_)
      · exact sameUser_write (fun _ => rfl) (sameUser_write (fun _ => rfl)
          (sameUser_next sameUser_sendCurrentState (accesses_say _)))
      · exact .update fun _ => rfl

theorem sameUser_engagementStatement : Accesses SameUser engagementStatement := by
  have hgo : ∀ {p : Prog Unit} {pc : EngagementPc}, Accesses SameUser p →
      Accesses SameUser (do p; goto pc) := fun hp => sameUser_next hp (.update fun _ => rfl)
  refine sameUser_fetch fun s => ?_
  cases s.engagement with
  | wait | unlock => exact hgo (accesses_call _)
  | waiting => exact accesses_never
  | laserTrue | laserFalse => exact hgo (sameUser_laser _)
  | fireTrue | fireFalse => exact hgo (sameUser_fire _)
  | armedFalse => exact hgo (sameUser_armed _)
  | sendLaser | sendFire | sendEngaged => exact hgo sameUser_sendCurrentState
  | printfEngaged => exact hgo (accesses_say _)
  | setComplete => exact hgo (.update fun _ => rfl)

end SameUser

/-! ## What a step leaves -/

/-- The table after a step, however the step ends. -/
def Act.userAfter (P : Platform) (user : List UserRow) : Act → List UserRow
  | .message m =>
      if m.buffer.type = mtLoginReq then
        ((checkLogin P (m.ntohlAt offsetIsChangePassword) user).map Prod.snd).getD user
      else user
  | .frame _ | .statement | .spuriousWakeup => user

section Stops

variable {α : Type} {P : Platform} {s t : Server}

theorem Accesses.sameUser {p : Prog α} (hp : Accesses SameUser p) (h : Stops p s t) :
    t.user = s.user := hp.stops (fun _ => rfl) (fun _ _ _ hsm hmt => hmt.trans hsm) h

/-- The table is written before the answer is sent, and not again. -/
theorem user_of_stops_processLogin {m : Received} (h : Stops (processLogin P m) s t) :
    t.user = ((checkLogin P m s.user).map Prod.snd).getD s.user := by
  rw [processLogin] at h
  rcases stops_bind.mp h with ⟨_, hno⟩ | ⟨_, _, ⟨hread, hsame⟩, h⟩
  · exact hno.elim
  rw [hread, hsame] at h
  cases hcheck : checkLogin P m s.user with
  | none =>
      rw [hcheck] at h
      exact Accesses.sameUser (.exit _) h
  | some result =>
      obtain ⟨lState, user⟩ := result
      rw [hcheck] at h
      have hrest : Accesses SameUser (do
          let _ ← sendLoginState lState.word
          update fun s => { s with isLoggedIn := decide (lState = .loginOk) }
          let s ← fetch
          if s.isLoggedIn = true ∧ s.heartBeatThread = false then
            let created : Int ← call .pthreadCreate
            if created ≠ 0 then .exit .pthreadCreate
            else update fun s => { s with heartBeatThread := true }
          else pure () : Prog Unit) := by
        refine (accesses_sendWord _).bind fun _ => sameUser_write (fun _ => rfl) ?_
        refine sameUser_fetch fun _ => Accesses.ite ?_ (.pure _)
        exact (accesses_call _).bind fun (_ : Int) => Accesses.ite (.exit _) (.update fun _ => rfl)
      exact Accesses.sameUser hrest (s := { s with user := user }) h

theorem user_of_stops_dispatch {m : Received} (h : Stops (dispatch P m) s t) :
    t.user = (Act.message m).userAfter P s.user := by
  rw [Act.userAfter]
  by_cases hlogin : m.buffer.type = mtLoginReq
  · rw [if_pos hlogin]
    rw [dispatch, if_pos hlogin] at h
    -- the line in the log neither fails nor writes the table
    rcases stops_bind.mp h with ⟨x, hexit⟩ | ⟨_, s', hlog, h⟩
    · have hno : Avoids x (auditlog "MT_LOGIN_REQ") :=
        Avoids.bind (fun _ => trivial) fun _ => Avoids.ite (fun _ => trivial) trivial
      exact absurd hexit (hno.not_exits _ _)
    · have huser : s'.user = s.user :=
        Accesses.sameUser (sameUser_auditlog _) (Or.inl ⟨_, hlog⟩)
      rw [user_of_stops_processLogin h, huser]
  · rw [if_neg hlogin]
    rw [dispatch, if_neg hlogin] at h
    refine Accesses.sameUser (sameUser_fetch fun s => ?_) h
    exact Accesses.ite (.pure _) (sameUser_switchType m)

/-- **What a step leaves of the table**, whether it comes to its end or the process ends
    in it. -/
theorem user_of_stops {a : Act} (h : Stops (a.prog P) s t) : t.user = a.userAfter P s.user := by
  cases a with
  | message m => exact user_of_stops_dispatch h
  | frame f => exact Accesses.sameUser (sameUser_processTargetEngagements f) h
  | statement => exact Accesses.sameUser sameUser_engagementStatement h
  | spuriousWakeup =>
      have hwake : Accesses SameUser wakeUp :=
        sameUser_fetch fun _ => Accesses.ite (.update fun _ => rfl) accesses_never
      exact Accesses.sameUser hwake h

end Stops

end DemoCannon
