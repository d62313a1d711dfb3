import DemoCannon.Moves

/-! # The operator: what messages make of the outputs

    Two results on the messages alone, in any order and with any content.  The
    state word shows the outputs as they are, as long as the client does not
    overwrite the `FIRING` bit (`outputs_shown_iff`); and without an operator
    the outputs are off, as long as no login is refused while one is on
    (`off_without_operator_iff`). -/

namespace DemoCannon

open Interaction Interaction.Program SystemState

namespace Control

/-! ## The state word and the pins -/

/-- The state word shows the pins. -/
structure Shown (c : Control) : Prop where
  firing : has c.systemState SystemState.firing = c.gpio17
  laser : has c.systemState laserOn = c.gpio18

theorem Shown.fire {c : Control} (h : c.Shown) {value : Bool}
    (hpermitted : value = true → ¬ firingDenied c.systemState) :
    (c.fire value).Shown := by
  have hlaser : has SystemState.firing laserOn = false := by decide
  have hfiring : has SystemState.firing SystemState.firing = true := by decide
  cases value with
  | true =>
      rw [Control.fire, if_neg (fun hd => hpermitted rfl hd.2), if_pos rfl]
      constructor
      · change has (c.systemState ||| SystemState.firing) _ = true
        rw [has_or _ _ .firing, hfiring, Bool.or_true]
      · change has (c.systemState ||| SystemState.firing) _ = c.gpio18
        rw [has_or _ _ .laserOn, hlaser, Bool.or_false]
        exact h.laser
  | false =>
      rw [fire_false]
      constructor
      · change has (c.systemState &&& ~~~SystemState.firing) _ = false
        rw [has_clear _ _ .firing, hfiring, Bool.not_true, Bool.and_false]
      · change has (c.systemState &&& ~~~SystemState.firing) _ = c.gpio18
        rw [has_clear _ _ .laserOn, hlaser, Bool.not_false, Bool.and_true]
        exact h.laser

/-- The request overwrites the `FIRING` bit with another value. -/
def Overwrites (state : SystemState) (c : Control) : Prop :=
  state.base = SystemState.armedManual ∧ c.base = SystemState.armedManual
    ∧ has state SystemState.firing ≠ has c.systemState SystemState.firing

/-- The end of a request shows the laser, whatever was before. -/
theorem shown_showLaser_iff (c : Control) :
    c.showLaser.Shown ↔ has c.systemState SystemState.firing = c.gpio17 :=
  ⟨fun h => h.firing, fun h => ⟨h, rfl⟩⟩

/-- Every other request leaves the cannon as the state word shows it. -/
theorem firing_change {state : SystemState} {c : Control}
    (h : has c.systemState SystemState.firing = c.gpio17)
    (hflags : ¬ (state.base = SystemState.armedManual
      ∧ c.base = SystemState.armedManual)) :
    has (c.change state).systemState SystemState.firing = (c.change state).gpio17 := by
  obtain ⟨hs, hp, hauto, hm⟩ := has_base_state .firing
  rw [change]
  by_cases hsafe : state.base = SystemState.safe
  · rw [if_pos hsafe]
    exact hs
  rw [if_neg hsafe]
  by_cases hpre : state.base = SystemState.prearmed
  · rw [if_pos hpre]
    split
    · exact hp
    · split
      · exact hp
      · exact h
  rw [if_neg hpre]
  by_cases hengage : state.base = SystemState.engageAuto
  · rw [if_pos hengage]
    split
    · exact hauto
    · exact h
  rw [if_neg hengage]
  by_cases hmanual : state.base = SystemState.armedManual
  · rw [if_pos hmanual, if_neg fun hbase => hflags ⟨hmanual, hbase⟩]
    split
    · exact hm
    · exact h
  · rw [if_neg hmanual]
    exact h

theorem shown_request_iff {c : Control} (h : c.Shown) (state : SystemState) :
    (c.request state).Shown ↔ ¬ Overwrites state c := by
  rw [request, shown_showLaser_iff]
  by_cases hflags : state.base = SystemState.armedManual
      ∧ c.base = SystemState.armedManual
  · -- the word is stored as it came, and the cannon is left as it was
    obtain ⟨hstate, hbase⟩ := hflags
    have hchange : c.change state = { c with systemState := state } := by
      rw [change, hstate, hbase]
      rfl
    rw [hchange, ← h.firing, Overwrites]
    simp [hstate, hbase]
  · have hno : ¬ Overwrites state c := fun ho => hflags ⟨ho.1, ho.2.1⟩
    exact iff_of_true (firing_change h.firing hflags) hno

theorem Shown.command {c : Control} (h : c.Shown) (cmd : UInt8) :
    (c.command cmd).Shown := by
  rw [Control.command]
  by_cases hstart : c.base = SystemState.armedManual ∧ cmd = fireStart
  · rw [if_pos hstart]
    exact h.fire fun _ => not_firingDenied hstart.1
  rw [if_neg hstart]
  by_cases hstop : c.base = SystemState.armedManual ∧ cmd = fireStop
  · rw [if_pos hstop]
    exact h.fire (by rintro ⟨⟩)
  · rw [if_neg hstop]
    exact h

theorem Shown.order {c : Control} (h : c.Shown) (firingOrder : Bytes) :
    (c.order firingOrder).Shown := by
  rw [Control.order]
  split <;> exact ⟨h.firing, h.laser⟩

theorem Shown.prearm {c : Control} (h : c.Shown) (code : Bytes) :
    (c.prearm code).Shown := by
  rw [Control.prearm]
  by_cases hcode : c.systemState = SystemState.safe ∧ code.take 9 = prearmCode
  · obtain ⟨hs, hp, -⟩ := has_base_state .firing
    obtain ⟨hs', hp', -⟩ := has_base_state .laserOn
    have hfiring := h.firing
    have hlaser := h.laser
    rw [hcode.1] at hfiring hlaser
    rw [if_pos hcode]
    exact ⟨hp.trans (hs.symm.trans hfiring), hp'.trans (hs'.symm.trans hlaser)⟩
  · rw [if_neg hcode]
    exact h

/-- What a message makes of a state word that shows the pins. -/
theorem shown_next_event_iff {c : Control} (h : c.Shown) (m : Received)
    (accepted : Bool) :
    (c.next (m.event accepted)).Shown
      ↔ ¬ (c.isLoggedIn = true ∧ m.buffer.type = mtStateChangeReq
        ∧ Overwrites (ntohl (m.mem 0)) c) := by
  have hother : ∀ {t : BitVec 32}, m.buffer.type = t → t ≠ mtStateChangeReq →
      ¬ (c.isLoggedIn = true ∧ m.buffer.type = mtStateChangeReq
        ∧ Overwrites (ntohl (m.mem 0)) c) :=
    fun ht hne hall => hne (ht.symm.trans hall.2.1)
  -- a message handled after a login, or not at all
  have hkept : ∀ {d : Control}, d.Shown → (if c.isLoggedIn then d else c).Shown := by
    intro d hd
    split
    · exact hd
    · exact h
  rcases m.event_cases accepted with
    ⟨ht, hm⟩ | ⟨ht, hm⟩ | ⟨ht, hm⟩ | ⟨ht, hm⟩ | ⟨ht, hm⟩ | hm
  · rw [hm]
    exact iff_of_true ⟨h.firing, h.laser⟩ (hother ht (by decide))
  · rw [hm]
    exact iff_of_true (hkept (h.command _)) (hother ht (by decide))
  · rw [hm]
    exact iff_of_true (hkept (h.order _)) (hother ht (by decide))
  · rw [hm]
    exact iff_of_true (hkept (h.prearm _)) (hother ht (by decide))
  · rw [hm, next]
    by_cases hin : c.isLoggedIn = true
    · rw [if_pos hin, shown_request_iff h]
      simp [hin, ht]
    · rw [if_neg hin]
      exact iff_of_true h fun hall => hin hall.1
  · rw [hm]
    refine iff_of_true h fun hall => ?_
    rw [Received.event_request hall.2.1] at hm
    cases hm

/-! ## The login and the pins -/

theorem isLoggedIn_command (cmd : UInt8) (c : Control) :
    (c.command cmd).isLoggedIn = c.isLoggedIn := by
  have hfire : ∀ value, (c.fire value).isLoggedIn = c.isLoggedIn := by
    intro value
    rw [fire]
    split <;> rfl
  rw [command]
  split
  · exact hfire true
  · split
    · exact hfire false
    · rfl

theorem isLoggedIn_request (state : SystemState) (c : Control) :
    (c.request state).isLoggedIn = c.isLoggedIn := by
  change (c.change state).isLoggedIn = c.isLoggedIn
  rw [change]
  repeat' split
  all_goals rfl

/-- Only a login changes the login state. -/
theorem isLoggedIn_next_event {m : Received} (hlogin : m.buffer.type ≠ mtLoginReq)
    (accepted : Bool) (c : Control) :
    (c.next (m.event accepted)).isLoggedIn = c.isLoggedIn := by
  have hkept : ∀ {d : Control}, d.isLoggedIn = c.isLoggedIn →
      (if c.isLoggedIn then d else c).isLoggedIn = c.isLoggedIn := by
    intro d hd
    split
    · exact hd
    · rfl
  rcases m.event_cases accepted with
    ⟨ht, hm⟩ | ⟨-, hm⟩ | ⟨-, hm⟩ | ⟨-, hm⟩ | ⟨-, hm⟩ | hm
  · exact absurd ht hlogin
  · rw [hm]
    exact hkept (isLoggedIn_command _ c)
  · rw [hm]
    exact hkept (by rw [order]; split <;> rfl)
  · rw [hm]
    exact hkept (by rw [prearm]; split <;> rfl)
  · rw [hm]
    exact hkept (isLoggedIn_request _ c)
  · rw [hm]
    rfl

end Control

section Messages

variable {P : Platform} {c : Config} {isLoggedIn : Bool}
  {h : List (Server × Received)} {s : Server}

/-- The bits `FIRING` and `LASER_ON` of the state word are the last values
    written to GPIO 17 and GPIO 18. -/
def OutputsShown (s : Server) : Prop :=
  (has s.systemState firing = true ↔ s.gpio17 = true)
    ∧ (has s.systemState laserOn = true ↔ s.gpio18 = true)

theorem outputsShown_iff (s : Server) : OutputsShown s ↔ s.control.Shown := by
  rw [OutputsShown, ← Bool.eq_iff_iff, ← Bool.eq_iff_iff]
  exact ⟨fun h => ⟨h.1, h.2⟩, fun h => ⟨h.firing, h.laser⟩⟩

/-- In `ARMED_MANUAL` a request for `ARMED_MANUAL` is handled whose `FIRING` bit
    is not that of the state word. -/
def FiringOverwritten (s : Server) (m : Received) : Prop :=
  s.isLoggedIn = true ∧ m.buffer.type = mtStateChangeReq
    ∧ base (ntohl (m.mem 0)) = armedManual ∧ base s.systemState = armedManual
    ∧ has (ntohl (m.mem 0)) firing ≠ has s.systemState firing

theorem step_shown_iff {s t : Server} {m : Received} (hs : OutputsShown s)
    (hst : Step P s (.message m) t) :
    OutputsShown t ↔ ¬ FiringOverwritten s m := by
  rw [outputsShown_iff, step_message hst]
  exact Control.shown_next_event_iff ((outputsShown_iff s).mp hs) m _

/-- **State word and outputs agree** after every message, in exactly the runs in
    which no request overwrites the `FIRING` bit with another value. -/
theorem outputs_shown_iff
    (hr : MessageRun P { start c with isLoggedIn := isLoggedIn } h s) :
    EveryState OutputsShown h s
      ↔ EveryStep (fun _ s m _ => ¬ FiringOverwritten s m) h s := by
  have hstart : OutputsShown { start c with isLoggedIn := isLoggedIn } :=
    (outputsShown_iff _).mpr ⟨(has_base_state .firing).1, (has_base_state .laserOn).1⟩
  refine Run.everyState_iff OutputsShown hstart hstart ?_ ?_ hr
  · intro s m t _ _ ht
    exact ht
  · intro s m t hs hst
    exact step_shown_iff hs hst

/-- The operator fires by hand. -/
theorem outputs_shown_iff_manual :
    ∃ h s, MessageRun Session.platform
        { start Session.config with isLoggedIn := true } h s
      ∧ s.gpio17 = true
      ∧ (EveryState OutputsShown h s
        ↔ EveryStep (fun _ s m _ => ¬ FiringOverwritten s m) h s) := by
  obtain ⟨h, s, hr, hs⟩ := Session.reaches_messages
    { start Session.config with isLoggedIn := true }
    [Session.prearm, Session.request armedManual, Session.command fireStart]
    (fun s => s.gpio17) (by decide +kernel)
  exact ⟨h, s, hr, hs, outputs_shown_iff hr⟩

/-- While the cannon fires, the operator requests `ARMED_MANUAL` again: the
    `FIRING` bit is cleared, and the cannon goes on. -/
theorem request_hides_firing :
    ∃ h s, MessageRun Session.platform
        { start Session.config with isLoggedIn := true } h s
      ∧ ¬ EveryState OutputsShown h s := by
  obtain ⟨h, s, hr, hs⟩ := Session.reaches_messages
    { start Session.config with isLoggedIn := true }
    [Session.prearm, Session.request armedManual, Session.command fireStart,
      Session.request armedManual]
    (fun s => !has s.systemState firing && s.gpio17) (by decide +kernel)
  obtain ⟨hbit, hon⟩ := Bool.and_eq_true_iff.mp hs
  refine ⟨h, s, hr, fun hall => ?_⟩
  have hshown := hall.last.1.mpr hon
  rw [hshown] at hbit
  cases hbit

/-! ## Outputs and the login -/

/-- The credentials of `m` are accepted: without a change, who knows the password
    of a name whose first time stamp is fresh; with a change, who knows the old
    password and gives another one, provided the clock's own time stamp reads
    back fresh. -/
def Accepts (P : Platform) (user : List UserRow) (m : Received) : Prop :=
  let login := m.ntohlAt offsetIsChangePassword
  let username := login.cString offsetUserName
  let password := login.cString offsetPassword
  let newPassword := login.cString offsetNewPassword
  let isChangePW := hostWord (login.mem offsetIsChangePassword)
  username ≠ [] ∧ Knows user username (P.getSaltHashPassword username password)
    ∧ ((isChangePW = 0 ∧ ∃ createdAt,
          (selectCreatedAt user username).head? = some createdAt
            ∧ Fresh P m.now createdAt)
      ∨ (isChangePW = 1
        ∧ ¬ Knows user username (P.getSaltHashPassword username newPassword)
        ∧ Fresh P m.now (P.currentTimestamp m.now)))

theorem Received.logsIn_iff (user : List UserRow) (m : Received) :
    m.LogsIn P user ↔ Accepts P user m := by
  rw [LogsIn, checkLogin, Accepts]
  by_cases hkeep : hostWord ((m.ntohlAt offsetIsChangePassword).mem
      offsetIsChangePassword) = 0
  · rw [if_pos hkeep, Option.map_map,
      show (Prod.fst ∘ fun l : LoginState => (l, user)) = id from rfl,
      Option.map_id_apply, verifyLogin_ok_iff]
    simp [hkeep]
  rw [if_neg hkeep]
  by_cases hchange : hostWord ((m.ntohlAt offsetIsChangePassword).mem
      offsetIsChangePassword) = 1
  · rw [if_pos hchange, updatePassword_ok_iff]
    simp [hchange]
  · rw [if_neg hchange]
    refine iff_of_false (by rintro ⟨⟩) ?_
    rintro ⟨-, -, ⟨h, -⟩ | ⟨h, -⟩⟩
    · exact hkeep h
    · exact hchange h

/-- Without an operator the cannon and the laser are off. -/
def OffWithoutOperator (s : Server) : Prop :=
  s.isLoggedIn = false → s.gpio17 = false ∧ s.gpio18 = false

/-- A login is refused while an output is on. -/
def RefusedWhileOn (P : Platform) (s : Server) (m : Received) : Prop :=
  m.buffer.type = mtLoginReq ∧ ¬ Accepts P s.user m
    ∧ (s.gpio17 = true ∨ s.gpio18 = true)

/-- A login writes the login state and neither output. -/
theorem step_login {s t : Server} {m : Received} (hlogin : m.buffer.type = mtLoginReq)
    (hst : Step P s (.message m) t) :
    (t.isLoggedIn = true ↔ Accepts P s.user m)
      ∧ t.gpio17 = s.gpio17 ∧ t.gpio18 = s.gpio18 := by
  have ht := step_message hst
  rw [Received.event_login hlogin] at ht
  have hin : t.isLoggedIn = decide (m.LogsIn P s.user) :=
    congrArg Control.isLoggedIn ht
  refine ⟨?_, congrArg Control.gpio17 ht, congrArg Control.gpio18 ht⟩
  rw [hin, decide_eq_true_iff, Received.logsIn_iff]

theorem step_offWithoutOperator_iff {s t : Server} {m : Received}
    (hs : OffWithoutOperator s) (hst : Step P s (.message m) t) :
    OffWithoutOperator t ↔ ¬ RefusedWhileOn P s m := by
  by_cases hlogin : m.buffer.type = mtLoginReq
  · obtain ⟨hin, h17, h18⟩ := step_login hlogin hst
    rw [OffWithoutOperator, h17, h18, ← Bool.not_eq_true, hin, RefusedWhileOn]
    by_cases haccepts : Accepts P s.user m
    · exact iff_of_true (absurd haccepts) fun h => h.2.1 haccepts
    · constructor
      · rintro hoff ⟨-, -, hon | hon⟩
        · cases (hoff haccepts).1.symm.trans hon
        · cases (hoff haccepts).2.symm.trans hon
      · intro hno _
        exact ⟨Bool.eq_false_iff.mpr fun hon => hno ⟨hlogin, haccepts, Or.inl hon⟩,
          Bool.eq_false_iff.mpr fun hon => hno ⟨hlogin, haccepts, Or.inr hon⟩⟩
  · -- another message keeps the login state, and does nothing without a login
    refine iff_of_true (fun hout => ?_) fun h => hlogin h.1
    have ht := step_message hst
    have hin : t.isLoggedIn = s.isLoggedIn :=
      (congrArg Control.isLoggedIn ht).trans
        (Control.isLoggedIn_next_event hlogin _ s.control)
    have hout' : s.isLoggedIn = false := hin.symm.trans hout
    rw [next_event_of_loggedOut hlogin hout'] at ht
    have hoff := hs hout'
    exact ⟨(congrArg Control.gpio17 ht).trans hoff.1,
      (congrArg Control.gpio18 ht).trans hoff.2⟩

/-- **Without an operator the outputs are off** after every message, in exactly
    the runs in which no login is refused while an output is on. -/
theorem off_without_operator_iff (hr : MessageRun P (start c) h s) :
    EveryState OffWithoutOperator h s
      ↔ EveryStep (fun _ s m _ => ¬ RefusedWhileOn P s m) h s := by
  have hstart : OffWithoutOperator (start c) := fun _ => ⟨rfl, rfl⟩
  refine Run.everyState_iff OffWithoutOperator hstart hstart ?_ ?_ hr
  · intro s m t _ _ ht
    exact ht
  · intro s m t hs hst
    exact step_offWithoutOperator_iff hs hst

/-- The operator logs in and fires by hand. -/
theorem off_without_operator_iff_manual :
    ∃ h s, MessageRun Session.platform (start Session.config) h s
      ∧ s.gpio17 = true
      ∧ (EveryState OffWithoutOperator h s
        ↔ EveryStep (fun _ s m _ => ¬ RefusedWhileOn Session.platform s m) h s) := by
  obtain ⟨h, s, hr, hs⟩ := Session.reaches_messages (start Session.config)
    [Session.login, Session.prearm, Session.request armedManual,
      Session.command fireStart]
    (fun s => s.gpio17) (by decide +kernel)
  exact ⟨h, s, hr, hs, off_without_operator_iff hr⟩

/-- While the cannon fires, a login with a wrong password is refused: the operator
    is out, and the cannon goes on. -/
theorem refused_login_leaves_firing :
    ∃ h s, MessageRun Session.platform (start Session.config) h s
      ∧ ¬ EveryState OffWithoutOperator h s := by
  obtain ⟨h, s, hr, hs⟩ := Session.reaches_messages (start Session.config)
    [Session.login, Session.prearm, Session.request armedManual,
      Session.command fireStart, Session.badLogin]
    (fun s => !s.isLoggedIn && s.gpio17) (by decide +kernel)
  obtain ⟨hout, hon⟩ := Bool.and_eq_true_iff.mp hs
  refine ⟨h, s, hr, fun hall => ?_⟩
  have hoff := (hall.last (Bool.not_eq_true' _ ▸ hout)).1
  cases hoff.symm.trans hon

end Messages

end DemoCannon
