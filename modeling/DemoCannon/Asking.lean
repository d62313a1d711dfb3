import DemoCannon.Framing
import DemoCannon.Lib.Run
import DemoCannon.Window
import DemoCannon.Wire

/-! # What the window asks for

    Whatever an operator does with the window, and whatever the server answers, the
    window sends requests of a few forms only (`asked_for`), which go through a
    `strcpy_s` without harm (`codes_fit`) and are what the server makes of the bytes
    (`request_handled`). -/

namespace DemoCannon

open Interaction Interaction.Program SystemState

/-! ## Runs of the window -/

/-- A message that can come is handled. -/
def Window.Handles (w : Window) (m : WindowMessage) (w' : Window) : Prop :=
  w.allows m = true ∧ w' = (w.wndProc m).1

/-- A run of the window from its creation. -/
abbrev WindowRun : List (Window × WindowMessage) → Window → Prop := Run Window.Handles .created

/-- The messages among the effects. -/
def writes (effects : List WindowEffect) : List TMessage :=
  effects.filterMap fun
    | .write m => some m
    | _ => none

@[simp] theorem writes_append (es es' : List WindowEffect) :
    writes (es ++ es') = writes es ++ writes es' := List.filterMap_append

@[simp] theorem writes_write (m : TMessage) (es : List WindowEffect) :
    writes (.write m :: es) = m :: writes es := rfl

@[simp] theorem writes_sends (m : Option TMessage) : writes (sends m) = m.toList := by
  cases m <;> rfl

/-! ## Requests -/

/-- What an operator can ask for, and what comes with it. -/
inductive ClientRequest where
  | login (username : CharArray (maxUsername + 1)) (password : CharArray (maxPassword + 1))
      (newPassword : Option (CharArray (maxPassword + 1)))
  | command (code : UInt8)
  | calib (code : UInt8)
  | targetOrder (order : Bytes)
  | preArm (code : Bytes)
  | stateChange (state : SystemState)
  | changeCam (state : BitVec 32)

/-- The states that a window may ask for: those of its buttons and boxes, and the one that it
    shows with the mark of the laser or of calibration turned over. -/
def Window.states (w : Window) : List SystemState :=
  [safe, prearmed, SystemState.armedManual, engageAuto,
    if w.laserEnable.checked then w.systemState &&& clearLaserMask
    else w.systemState ||| SystemState.laserOn,
    if w.calibrate.checked then w.systemState &&& clearCalibMask else w.systemState ||| calibOn]

/-- The codes of keys. -/
def commandCodes : List UInt8 :=
  [panLeftStart, panRightStart, panUpStart, panDownStart, fireStart,
    panLeftStop, panRightStop, panUpStop, panDownStop, fireStop]

/-- The codes of keys while calibrating. -/
def calibCodes : List UInt8 := [decX, incX, incY, decY]

namespace ClientRequest

/-- What holds of the content of a request of a window. -/
def Proper (w : Window) : ClientRequest → Prop
  | login username password newPassword =>
      sanityId username.text = 1 ∧ sanityPassword password.text = 1
        ∧ ∀ new ∈ newPassword, sanityPassword new.text = 1
  | command code => code ∈ commandCodes
  | calib code => code ∈ calibCodes
  | targetOrder order =>
      order.length ≤ maxEngageOrder ∧ order.all isDigit = true ∧ order.Nodup
  | preArm code => code.length ≤ 8 ∧ 0 ∉ code
  | stateChange state => state ∈ w.states
  | changeCam state => state = camOn ∨ state = camOff

/-- The request is in the message. -/
def IsIn : ClientRequest → TMessage → Prop
  | login username password newPassword, m =>
      m = loginToServer username password newPassword.isSome newPassword
  | command code, m => m.type = mtCommands ∧ m.payload = [code]
  | calib code, m => m.type = mtCalibCommands ∧ m.payload = [code]
  | targetOrder order, m => m.type = mtTargetSequence ∧ m.payload = order ++ [0]
  | preArm code, m => m.type = mtPrearm ∧ m.payload = code ++ [0]
  | stateChange state, m => m.type = mtStateChangeReq ∧ m.payload = htonl state
  | changeCam state, m => m.type = mtCamStateChangeReq ∧ m.payload = htonl state

/-- It is one of an operator who has logged in. -/
def IsOrder : ClientRequest → Prop
  | login _ _ _ => False
  | command _ | calib _ | targetOrder _ | preArm _ | stateChange _ | changeCam _ => True

end ClientRequest

/-! ## What is kept -/

/-- What holds of the globals in every run: the codes fit, and a password that is to be
    sent along with a new one has been checked before. -/
structure Window.Sane (w : Window) : Prop where
  preArmCode : w.preArmCode.text.length ≤ 8
  engagementOrder : w.engagementOrder.text.Nodup
  connected : w.isClientConnected = true → w.loginState = LoginState.loginOk.word
  newPw : w.editNewPwVisible = true ↔ w.loginState = LoginState.dateExpired.word
  expired : w.loginState = LoginState.dateExpired.word →
    w.editLoginPwEnabled = false ∧ sanityPassword w.loginPw.text = 1

namespace Window

variable {w : Window} {m : WindowMessage}

theorem sane_start : created.Sane where
  preArmCode := by decide
  engagementOrder := by decide
  connected := by decide
  newPw := by decide
  expired := by decide

/-- The password that a check lets through. -/
theorem sanityPassword_eq_one {buf : Bytes} (h : ¬ sanityPassword buf < 0) :
    sanityPassword buf = 1 := by
  revert h
  rw [sanityPassword]
  split
  · exact fun h => absurd (by decide) h
  · split
    · exact fun h => absurd (by decide) h
    · split
      · exact fun _ => rfl
      · exact fun h => absurd (by decide) h

theorem sanityChars_eq_one {max : Nat} {tooLong wrongRule : Int} (hlong : tooLong < 0)
    (hwrong : wrongRule < 0) {allowed : UInt8 → Bool} {buf : Bytes}
    (h : ¬ sanityChars max tooLong wrongRule allowed buf < 0) :
    sanityChars max tooLong wrongRule allowed buf = 1 := by
  have hok := not_not.mp (mt (sanityChars_neg_iff hlong hwrong).mpr h)
  rw [sanityChars, if_neg (Nat.not_lt.mpr hok.1), if_pos hok.2]

/-- What `SanityCheck` lets through. -/
theorem sanityCheck_true (h : w.sanityCheck.1 = true) :
    sanityId w.loginId.text = 1
      ∧ (w.loginState = LoginState.dateExpired.word → sanityPassword w.newPw.text = 1)
      ∧ (w.loginState ≠ LoginState.dateExpired.word → sanityPassword w.loginPw.text = 1) := by
  rw [sanityCheck] at h
  split at h
  · cases h
  split at h
  · cases h
  rename_i hid
  refine ⟨sanityChars_eq_one (by decide) (by decide) hid, fun hexpired => ?_, fun hexpired => ?_⟩
  · rw [if_pos hexpired] at h
    split at h
    · cases h
    · exact sanityPassword_eq_one ‹_›
  · rw [if_neg hexpired] at h
    split at h
    · cases h
    · exact sanityPassword_eq_one ‹_›

/-- What `Sane` looks at. -/
def account (w : Window) : CharArray (maxText + 1) × CharArray (maxText + 1) × Bool
    × BitVec 32 × Bool × Bool × CharArray (maxPassword + 1) :=
  (w.preArmCode, w.engagementOrder, w.isClientConnected, w.loginState, w.editNewPwVisible,
    w.editLoginPwEnabled, w.loginPw)

theorem Sane.of_account {w w' : Window} (hw : w.Sane) (h : w'.account = w.account) :
    w'.Sane := by
  simp only [account, Prod.mk.injEq] at h
  obtain ⟨hpre, horder, hconnected, hlogin, hvisible, henabled, hpw⟩ := h
  refine ⟨?_, ?_, ?_, ?_, ?_⟩
  · rw [hpre]; exact hw.preArmCode
  · rw [horder]; exact hw.engagementOrder
  · rw [hconnected, hlogin]; exact hw.connected
  · rw [hvisible, hlogin]; exact hw.newPw
  · rw [hlogin, henabled, hpw]; exact hw.expired

theorem account_showBase (w : Window) : w.showBase.1.account = w.account := by
  rw [showBase]
  repeat' split
  all_goals rfl

theorem Sane.editPreArmCode {w : Window} (hw : w.Sane) (text : WindowText) :
    (Window.editPreArmCode w.preArmCode text).text.length ≤ 8 := by
  rw [Window.editPreArmCode]
  split
  · exact hw.preArmCode
  · rename_i hle
    exact Nat.not_lt.mp hle

theorem Sane.editEngageOrder {w : Window} (hw : w.Sane) (text : WindowText) :
    (DemoCannon.editEngageOrder w.engagementOrder text).1.text.Nodup := by
  rw [DemoCannon.editEngageOrder]
  split
  · exact hw.engagementOrder
  · rename_i hdups
    exact countDups_eq_zero.mp (not_not.mp hdups)

/-- No connection, or the end of one. -/
theorem Sane.onDisconnect {w : Window} (hw : w.Sane) : w.onDisconnect.1.Sane := by
  rw [Window.onDisconnect]
  by_cases hconnected : w.isClientConnected = true
  · rw [if_pos hconnected]
    -- the last login has succeeded, so no new password is asked for
    have hok := hw.connected hconnected
    have hne : w.loginState ≠ LoginState.dateExpired.word := by rw [hok]; decide
    exact ⟨hw.preArmCode, hw.engagementOrder, fun h => absurd h Bool.false_ne_true,
      iff_of_false Bool.false_ne_true hne, fun h => absurd h hne⟩
  · rw [if_neg hconnected]
    exact hw

/-- An attempt to connect, after the check. -/
theorem Sane.onConnect {w : Window} (hw : w.Sane) (hcheck : w.sanityCheck.1 = true)
    (attempt : Attempt) : (w.onConnect attempt).2.1.Sane := by
  by_cases hconnected : w.isClientConnected = true
  · rw [onConnect.eq_def, if_pos hconnected]
    exact hw
  rw [onConnect.eq_def, if_neg hconnected]
  cases attempt with
  | refused => exact hw
  | answered state =>
      dsimp only
      by_cases hok : state = LoginState.loginOk.word
      · rw [if_pos hok]
        have hne : state ≠ LoginState.dateExpired.word := by rw [hok]; decide
        exact ⟨hw.preArmCode, hw.engagementOrder, fun _ => hok,
          iff_of_false Bool.false_ne_true hne, fun h => absurd h hne⟩
      rw [if_neg hok]
      by_cases hexpired : state = LoginState.dateExpired.word
      · rw [if_pos hexpired]
        refine ⟨hw.preArmCode, hw.engagementOrder, fun h => absurd h hconnected,
          iff_of_true rfl hexpired, fun _ => ⟨rfl, ?_⟩⟩
        -- checked now, or when its field was disabled
        by_cases hbefore : w.loginState = LoginState.dateExpired.word
        · exact (hw.expired hbefore).2
        · exact (sanityCheck_true hcheck).2.2 hbefore
      · rw [if_neg hexpired]
        exact ⟨hw.preArmCode, hw.engagementOrder, fun h => absurd h hconnected,
          iff_of_false Bool.false_ne_true hexpired, fun h => absurd h hexpired⟩

/-- **The step lemma.** -/
theorem Sane.step {w w' : Window} {m : WindowMessage} (hw : w.Sane) (h : w.Handles m w') :
    w'.Sane := by
  obtain ⟨hallows, rfl⟩ := h
  cases m with
  | editLoginPw text =>
      refine ⟨hw.preArmCode, hw.engagementOrder, hw.connected, hw.newPw, fun hexpired => ?_⟩
      exact absurd (hallows.symm.trans (hw.expired hexpired).1) (by decide)
  | editPrearmCode text =>
      exact ⟨hw.editPreArmCode text, hw.engagementOrder, hw.connected, hw.newPw, hw.expired⟩
  | editEngageOrder text =>
      exact ⟨hw.preArmCode, hw.editEngageOrder text, hw.connected, hw.newPw, hw.expired⟩
  | checkboxCalibrate =>
      change w.checkboxCalibrate.1.Sane
      rw [checkboxCalibrate]
      split <;> exact hw.of_account rfl
  | buttonPrearmSafe =>
      change w.buttonPrearmSafe.1.Sane
      rw [buttonPrearmSafe]
      split
      · exact ⟨Nat.zero_le 8, hw.engagementOrder, hw.connected, hw.newPw, hw.expired⟩
      · exact hw
  | connect attempt =>
      change (w.idmConnect attempt).1.Sane
      rw [idmConnect]
      dsimp only
      by_cases hcheck : w.sanityCheck.1 = true
      · rw [if_pos hcheck]
        dsimp only
        split <;> exact (hw.onConnect hcheck attempt).of_account rfl
      · rw [if_neg hcheck]
        exact hw
  | disconnect | clientLost =>
      have hreleased : Sane { w.setToolbar false with timer := false } := hw.of_account rfl
      exact hreleased.onDisconnect
  | timer =>
      exact (show Sane (w.setToolbar false) from hw.of_account rfl).onDisconnect.of_account rfl
  | systemState state => exact hw.of_account ((account_showBase _).trans rfl)
  | keyDown | keyUp | editLoginId | editNewPw | editRemote | checkboxCam | checkboxArmedManual
    | checkboxLaserEnable | checkboxAutoEngage => exact hw.of_account rfl

end Window

/-- Every window of a run is sane. -/
theorem WindowRun.sane {h : List (Window × WindowMessage)} {w : Window} (hr : WindowRun h w) :
    EveryState Window.Sane h w :=
  hr.invariant Window.Sane Window.sane_start fun _ _ _ hw hst => hw.step hst

/-! ## Every message is a request -/

/-- The message is a request of the window with proper content. -/
def Asks (w : Window) (m : TMessage) : Prop := ∃ r : ClientRequest, r.IsIn m ∧ r.Proper w

/-- It is one of an operator who has logged in. -/
def Orders (w : Window) (m : TMessage) : Prop :=
  ∃ r : ClientRequest, r.IsIn m ∧ r.Proper w ∧ r.IsOrder

theorem Orders.asks {w : Window} {m : TMessage} (h : Orders w m) : Asks w m :=
  let ⟨r, hin, hproper, _⟩ := h
  ⟨r, hin, hproper⟩

theorem Orders.type_ne {w : Window} {m : TMessage} (h : Orders w m) : m.type ≠ mtLoginReq := by
  obtain ⟨r, hin, -, horder⟩ := h
  cases r with
  | login username password newPassword => exact horder.elim
  | command | calib | targetOrder | preArm | stateChange | changeCam =>
      rw [hin.1]
      decide

/-- The operator does something with a session. -/
def WindowMessage.Operates : WindowMessage → Bool
  | .connect _ | .disconnect | .timer | .clientLost | .systemState _ => false
  | _ => true

section Written

variable {w : Window} {m : TMessage}

theorem asks_word {type word : BitVec 32} {connected : Bool}
    (h : m ∈ sendWordToServer connected type word) : m.type = type ∧ m.payload = htonl word := by
  rw [sendWordToServer] at h
  split at h
  · cases h
    exact ⟨rfl, rfl⟩
  · cases h

theorem orders_state {state : SystemState} (hstate : state ∈ w.states)
    (h : m ∈ writes (w.request state)) : Orders w m := by
  rw [Window.request, writes_sends, Option.mem_toList] at h
  exact ⟨.stateChange state, asks_word h, hstate, trivial⟩

theorem orders_code {connected : Bool} {code : UInt8} (hcode : code ∈ commandCodes)
    (h : m ∈ sendCodeToServer connected code) : Orders w m := by
  rw [sendCodeToServer] at h
  split at h
  · cases h
    exact ⟨.command code, ⟨rfl, rfl⟩, hcode, trivial⟩
  · cases h

theorem orders_calib {connected : Bool} {code : UInt8} (hcode : code ∈ calibCodes)
    (h : m ∈ sendCalibToServer connected code) : Orders w m := by
  rw [sendCalibToServer] at h
  split at h
  · cases h
    exact ⟨.calib code, ⟨rfl, rfl⟩, hcode, trivial⟩
  · cases h

/-- The code for a key is one of those of the five keys. -/
theorem sendCode_mem {j l i k f : Option UInt8} {codes : List UInt8} {wParam : Nat} {code : UInt8}
    (hcodes : ∀ o ∈ [j, l, i, k, f], ∀ c ∈ o, c ∈ codes)
    (h : code ∈ Window.sendCode j l i k f wParam) : code ∈ codes := by
  rw [Window.sendCode] at h
  split at h
  · exact hcodes j (by simp) code h
  split at h
  · exact hcodes l (by simp) code h
  split at h
  · exact hcodes i (by simp) code h
  split at h
  · exact hcodes k (by simp) code h
  split at h
  · exact hcodes f (by simp) code h
  · cases h

theorem orders_keyUp {wParam : Nat} (h : m ∈ writes (w.keyUp wParam)) : Orders w m := by
  rw [Window.keyUp, writes_sends, Option.mem_toList] at h
  obtain ⟨code, hcode, hsend⟩ := Option.bind_eq_some_iff.mp h
  exact orders_code (sendCode_mem (by decide +kernel) hcode) hsend

theorem orders_keyDown {wParam : Nat} (h : m ∈ writes (w.keyDown wParam)) : Orders w m := by
  rw [Window.keyDown] at h
  split at h
  · rw [writes_sends, Option.mem_toList] at h
    obtain ⟨code, hcode, hsend⟩ := Option.bind_eq_some_iff.mp h
    exact orders_calib (sendCode_mem (by decide +kernel) hcode) hsend
  · rw [writes_sends, Option.mem_toList] at h
    obtain ⟨code, hcode, hsend⟩ := Option.bind_eq_some_iff.mp h
    exact orders_code (sendCode_mem (by decide +kernel) hcode) hsend

theorem orders_preArm {connected : Bool} {code : CharArray (maxText + 1)}
    (hcode : code.text.length ≤ 8) (h : m ∈ sendPreArmCodeToServer connected code) :
    Orders w m := by
  rw [sendPreArmCodeToServer] at h
  split at h
  · cases h
    exact ⟨.preArm code.text, ⟨rfl, rfl⟩, ⟨hcode, code.nul_not_mem⟩, trivial⟩
  · cases h

theorem orders_order {connected : Bool} {order : CharArray (maxText + 1)}
    (hnodup : order.text.Nodup) (hsane : ¬ sanityEngageOrder order.text < 0)
    (h : m ∈ sendTargetOrderToServer connected order) : Orders w m := by
  have hdigits := not_not.mp (mt (sanityChars_neg_iff (by decide) (by decide)).mpr hsane)
  rw [sendTargetOrderToServer] at h
  split at h
  · cases h
    exact ⟨.targetOrder order.text, ⟨rfl, rfl⟩,
      ⟨hdigits.1, hdigits.2, hnodup⟩, trivial⟩
  · cases h

/-- A click on the box of AUTO_ENGAGE: PREARMED, or an order and ENGAGE_AUTO. -/
theorem writes_autoEngage (w : Window) : writes (w.wndProc .checkboxAutoEngage).2
    = if w.autoEngage.checked then writes (w.request prearmed)
      else if sanityEngageOrder w.engagementOrder.text < 0 then []
      else (sendTargetOrderToServer w.isClientConnected w.engagementOrder).toList
        ++ writes (w.request engageAuto) := by
  have hbox : ∀ {c : Prop} [Decidable c] {c' : Prop} [Decidable c'] {x y : String},
      writes ((if c then [ClientCall.displayMessageOkBox x]
        else if c' then [.displayMessageOkBox y] else []).flatMap
          (ClientCall.effects w.isClientConnected)) = [] := by
    intro c _ c' _ x y
    split
    · rfl
    split <;> rfl
  change writes ((checkboxAutoEngage w.autoEngage.checked w.engagementOrder).flatMap
    (ClientCall.effects w.isClientConnected)) = _
  rw [checkboxAutoEngage]
  by_cases hchecked : w.autoEngage.checked = true
  · rw [if_pos hchecked, if_pos hchecked, List.flatMap_singleton]
    rfl
  rw [if_neg hchecked, if_neg hchecked]
  dsimp only
  by_cases hsane : sanityEngageOrder w.engagementOrder.text < 0
  · rw [if_pos hsane, if_pos hsane, hbox]
  · rw [if_neg hsane, if_neg hsane, List.flatMap_append, writes_append, hbox,
      List.nil_append, List.flatMap_cons, List.flatMap_singleton, writes_append,
      ClientCall.effects, writes_sends]
    rfl

theorem orders_autoEngage (hw : w.Sane) (h : m ∈ writes (w.wndProc .checkboxAutoEngage).2) :
    Orders w m := by
  rw [writes_autoEngage] at h
  split at h
  · exact orders_state (by simp [Window.states]) h
  split at h
  · cases h
  · rename_i hsane
    rcases List.mem_append.mp h with h | h
    · exact orders_order hw.engagementOrder hsane (Option.mem_toList.mp h)
    · exact orders_state (by simp [Window.states]) h

/-- The login of a window that has passed the check. -/
theorem asks_login (hw : w.Sane) (hcheck : w.sanityCheck.1 = true) :
    Asks w w.loginRequest := by
  obtain ⟨hid, hnew, hold⟩ := Window.sanityCheck_true hcheck
  have hpassword : sanityPassword w.loginPw.text = 1 := by
    by_cases hexpired : w.loginState = LoginState.dateExpired.word
    · exact (hw.expired hexpired).2
    · exact hold hexpired
  cases hvisible : w.editNewPwVisible with
  | true =>
      refine ⟨.login w.loginId w.loginPw (some w.newPw), ?_, hid, hpassword, ?_⟩
      · exact congrArg (loginToServer w.loginId w.loginPw · (some w.newPw)) hvisible
      · rintro new ⟨⟩
        exact hnew (hw.newPw.mp hvisible)
  | false =>
      refine ⟨.login w.loginId w.loginPw none, ?_, hid, hpassword, by rintro new ⟨⟩⟩
      rw [ClientRequest.IsIn, Window.loginRequest, hvisible]
      rfl

theorem writes_sanityCheck (w : Window) : writes w.sanityCheck.2 = [] := by
  rw [Window.sanityCheck]
  repeat' split
  all_goals rfl

theorem asks_connect (hw : w.Sane) {attempt : Window.Attempt}
    (h : m ∈ writes (w.idmConnect attempt).2) : Asks w m := by
  rw [Window.idmConnect] at h
  dsimp only at h
  by_cases hcheck : w.sanityCheck.1 = true
  · rw [if_pos hcheck] at h
    dsimp only at h
    rw [writes_append, writes_sanityCheck, List.nil_append, Window.onConnect.eq_def] at h
    by_cases hconnected : w.isClientConnected = true
    · rw [if_pos hconnected] at h
      cases h
    rw [if_neg hconnected] at h
    cases attempt with
    | refused => cases h
    | answered state =>
        dsimp only at h
        by_cases hok : state = LoginState.loginOk.word
        · rw [if_pos hok, writes_write] at h
          rcases List.mem_cons.mp h with rfl | h
          · exact asks_login hw hcheck
          · exact ⟨.stateChange safe, asks_word (Option.mem_toList.mp (writes_sends _ ▸ h)),
              by simp [ClientRequest.Proper, Window.states]⟩
        rw [if_neg hok] at h
        by_cases hexpired : state = LoginState.dateExpired.word
        · rw [if_pos hexpired] at h
          rw [List.mem_singleton.mp h]
          exact asks_login hw hcheck
        · rw [if_neg hexpired] at h
          rw [List.mem_singleton.mp h]
          exact asks_login hw hcheck
  · rw [if_neg hcheck, writes_sanityCheck] at h
    cases h

theorem writes_updateCameraCheckbox (camState : BitVec 32) (toDisabled toEnabled : Bool) :
    writes (w.updateCameraCheckbox camState toDisabled toEnabled).2 = [] := by
  rw [Window.updateCameraCheckbox]
  dsimp only
  split <;> rfl

theorem orders_checkboxCam (h : m ∈ writes w.checkboxCam.2) : Orders w m := by
  rw [Window.checkboxCam] at h
  dsimp only at h
  rw [writes_append, writes_updateCameraCheckbox, List.append_nil, writes_sends,
    Option.mem_toList] at h
  refine ⟨.changeCam _, asks_word h, ?_, trivial⟩
  rw [ClientRequest.Proper]
  split
  · exact Or.inr rfl
  · exact Or.inl rfl

theorem writes_onDisconnect : writes w.onDisconnect.2 = [] := by
  have hpost : ∀ es, writes (.postSystemState unknown :: es) = writes es := fun _ => rfl
  rw [Window.onDisconnect]
  split
  · dsimp only
    rw [writes_append, hpost, writes_updateCameraCheckbox]
    rfl
  · rfl

theorem writes_wmSystemState (state : SystemState) :
    writes (w.wmSystemState state).2 = [] := by
  have hbase : ∀ w : Window, writes w.showBase.2 = [] := by
    intro w
    rw [Window.showBase]
    repeat' split
    all_goals first | rfl | exact writes_updateCameraCheckbox _ _ _
  rw [Window.wmSystemState]
  dsimp only
  rw [writes_append, hbase, List.append_nil]
  split <;> rfl

/-- What an operator makes a sane window write. -/
theorem orders_wndProc (hw : w.Sane) {msg : WindowMessage} (hmsg : msg.Operates = true)
    (h : m ∈ writes (w.wndProc msg).2) : Orders w m := by
  cases msg with
  | keyDown wParam => exact orders_keyDown h
  | keyUp wParam => exact orders_keyUp h
  | editLoginId | editLoginPw | editNewPw | editRemote => cases h
  | editEngageOrder text =>
      change m ∈ writes (if _ then _ else _) at h
      split at h <;> cases h
  | editPrearmCode text =>
      change m ∈ writes (if _ then _ else _) at h
      split at h <;> cases h
  | checkboxCam => exact orders_checkboxCam h
  | checkboxArmedManual =>
      change m ∈ writes w.checkboxArmedManual at h
      rw [Window.checkboxArmedManual] at h
      split at h <;> exact orders_state (by simp [Window.states]) h
  | checkboxLaserEnable => exact orders_state (by simp [Window.states]) h
  | checkboxAutoEngage => exact orders_autoEngage hw h
  | checkboxCalibrate =>
      change m ∈ writes w.checkboxCalibrate.2 at h
      rw [Window.checkboxCalibrate] at h
      split at h <;> exact orders_state (by simp [Window.states, *]) h
  | buttonPrearmSafe =>
      change m ∈ writes w.buttonPrearmSafe.2 at h
      rw [Window.buttonPrearmSafe] at h
      split at h
      · rw [writes_sends, Option.mem_toList] at h
        exact orders_preArm hw.preArmCode h
      · exact orders_state (by simp [Window.states]) h
  | connect | disconnect | timer | clientLost | systemState => cases hmsg

/-- **What a sane window writes is a request.** -/
theorem asks_wndProc (hw : w.Sane) {msg : WindowMessage} (h : m ∈ writes (w.wndProc msg).2) :
    Asks w m := by
  by_cases hmsg : msg.Operates = true
  · exact (orders_wndProc hw hmsg h).asks
  cases msg with
  | connect attempt => exact asks_connect hw h
  | disconnect | clientLost =>
      change m ∈ writes (Window.onDisconnect _).2 at h
      rw [writes_onDisconnect] at h
      cases h
  | timer =>
      change m ∈ writes ((Window.onDisconnect _).2 ++ _) at h
      rw [writes_append, writes_onDisconnect] at h
      cases h
  | systemState state =>
      change m ∈ writes (w.wmSystemState state).2 at h
      rw [writes_wmSystemState] at h
      cases h
  | keyDown | keyUp | editLoginId | editLoginPw | editNewPw | editRemote | editEngageOrder
    | editPrearmCode | checkboxCam | checkboxArmedManual | checkboxLaserEnable
    | checkboxAutoEngage | checkboxCalibrate | buttonPrearmSafe => exact absurd rfl hmsg

end Written

/-- No `strcpy_s` of the handler overflows. -/
def Window.Copies (w : Window) : WindowMessage → Prop
  | .buttonPrearmSafe => w.preArmCode.text.length < sizeofCode
  | .checkboxAutoEngage =>
      ¬ sanityEngageOrder w.engagementOrder.text < 0 →
        w.engagementOrder.text.length < sizeofFiringOrder
  | _ => True

theorem Window.Sane.copies {w : Window} (hw : w.Sane) (msg : WindowMessage) : w.Copies msg := by
  cases msg with
  | buttonPrearmSafe => exact Nat.lt_of_le_of_lt hw.preArmCode (by decide)
  | checkboxAutoEngage =>
      intro hsane
      have hdigits := not_not.mp (mt (sanityChars_neg_iff (by decide) (by decide)).mpr hsane)
      exact Nat.lt_succ_of_le hdigits.1
  | _ => trivial

/-- **In every run of the window, every message that it writes is a request with proper
    content**, and no `strcpy_s` overflows on the way. -/
theorem asked_for {h : List (Window × WindowMessage)} {w : Window} (hr : WindowRun h w) :
    EveryStep (fun _ w msg _ =>
      w.Copies msg ∧ ∀ m ∈ writes (w.wndProc msg).2, Asks w m) h w :=
  hr.everyStep Window.Sane Window.sane_start (fun _ _ _ hw hst => hw.step hst)
    fun _ _ _ _ hw _ => ⟨hw.copies _, fun _ hm => asks_wndProc hw hm⟩

/-- The text of a window in which some keys have been typed; none makes a NUL. -/
def WindowText.ofKeys (keys : Bytes) : WindowText :=
  ⟨keys.filter (· ≠ 0), fun h => of_decide_eq_true (List.mem_filter.mp h).2 rfl⟩

/-- What a message that can come leads to. -/
def Window.next (w : Window) (m : WindowMessage) : Option Window :=
  if w.allows m then some (w.wndProc m).1 else none

theorem Window.handles_of_next (w : Window) (m : WindowMessage) (w' : Window)
    (h : w.next m = some w') : w.Handles m w' := by
  rw [Window.next] at h
  split at h
  · exact ⟨‹_›, (Option.some.inj h).symm⟩
  · cases h

namespace Session

/-- `op` with the password `"cannon-2024"`, which has expired, and then `"cannon-2025"`; the
    pre-arm code is typed with two digits too many, which undoes it. -/
def typed : List WindowMessage :=
  [.editLoginId (.ofKeys [0x6f, 0x70]),
    .editLoginPw (.ofKeys [0x63, 0x61, 0x6e, 0x6e, 0x6f, 0x6e, 0x2d, 0x32, 0x30, 0x32, 0x34]),
    .connect (.answered LoginState.dateExpired.word),
    .editNewPw (.ofKeys [0x63, 0x61, 0x6e, 0x6e, 0x6f, 0x6e, 0x2d, 0x32, 0x30, 0x32, 0x35]),
    .connect (.answered LoginState.loginOk.word),
    .editPrearmCode (.ofKeys [0x31, 0x32, 0x33, 0x34, 0x35, 0x36, 0x37, 0x38]),
    .editPrearmCode (.ofKeys [0x31, 0x32, 0x33, 0x34, 0x35, 0x36, 0x37, 0x38, 0x39, 0x30]),
    .buttonPrearmSafe,
    .systemState prearmed,
    .checkboxAutoEngage]

/-- What has been written in a history. -/
def written (h : List (Window × WindowMessage)) : List TMessage :=
  h.flatMap fun x => writes (x.1.wndProc x.2).2

/-- Two logins, SAFE, the code, the order and ENGAGE_AUTO are written. -/
theorem typed_run : ∃ h w, WindowRun h w ∧ (written h).length = 6
    ∧ (encodeAll (written h)).length ≤ reads splitScript := by
  have hrun : ∃ h w, WindowRun h w ∧ decide ((written h).length = 6
      ∧ (encodeAll (written h)).length ≤ reads splitScript) = true :=
    exists_history_of_follow Window.handles_of_next typed.reverse
      (fun h _ => (written h).length = 6
        ∧ (encodeAll (written h)).length ≤ reads splitScript) (by decide +kernel)
  obtain ⟨h, w, hr, hlen⟩ := hrun
  exact ⟨h, w, hr, of_decide_eq_true hlen⟩

end Session

theorem asked_for_typed :
    ∃ h w, WindowRun h w ∧ (Session.written h).length = 6
      ∧ EveryStep (fun _ w msg _ =>
        w.Copies msg ∧ ∀ m ∈ writes (w.wndProc msg).2, Asks w m) h w := by
  obtain ⟨h, w, hr, hlen, -⟩ := Session.typed_run
  exact ⟨h, w, hr, hlen, asked_for hr⟩

/-! ## What the server makes of a request -/

/-- A handler, for an operator who has logged in. -/
def whenLoggedIn (p : Prog Unit) : Prog Unit := do
  let s ← fetch
  if s.isLoggedIn = false then pure () else p

/-- A login in the memory of the server, with its flag in host order. -/
def loginMemory (username : CharArray (maxUsername + 1)) (password : CharArray (maxPassword + 1))
    (newPassword : Option (CharArray (maxPassword + 1))) (beyond : Bytes) (now : Int) : Received :=
  ((loginToServer username password newPassword.isSome newPassword).received beyond now).ntohlAt
    offsetIsChangePassword

/-- The decision on a login, by what was typed. -/
def loginDecided (P : Platform) (now : Int) (user : List UserRow) (username password : Bytes) :
    Option Bytes → Option (LoginState × List UserRow)
  | none => (verifyLogin P now user username password).map fun l => (l, user)
  | some newPassword => updatePassword P now user username password newPassword

namespace ClientRequest

/-- What the server does about a request. -/
def handler (P : Platform) (beyond : Bytes) (now : Int) : ClientRequest → Prog Unit
  | login username password newPassword => do
      auditlog "MT_LOGIN_REQ"
      processLogin P (loginMemory username password newPassword beyond now)
  | command code => whenLoggedIn do auditlog "MT_COMMANDS"; processCommands code
  | calib code => whenLoggedIn do auditlog "MT_CALIB_COMMANDS"; processCalibCommands code
  | targetOrder order => whenLoggedIn do
      auditlog "MT_TARGET_SEQUENCE"
      processFiringOrder (order ++ [0])
  | preArm code => whenLoggedIn do auditlog "MT_PREARM"; processPreArm (code ++ [0])
  | stateChange state => whenLoggedIn do
      auditlog "MT_STATE_CHANGE_REQ"
      processStateChangeRequest state
  | changeCam state => whenLoggedIn do
      auditlog "MT_CAM_STATE_CHANGE_REQ"
      processCamStateChangeRequest state

/-- A login in which the name, and with a new password both passwords, leave room for their
    NULs is decided by what was typed. -/
def Understood (P : Platform) (beyond : Bytes) (now : Int) : ClientRequest → Prop
  | login username password newPassword =>
      username.text.length < maxUsername →
      (∀ new ∈ newPassword, password.text.length < maxPassword ∧ new.text.length < maxPassword) →
      ∀ user, checkLogin P (loginMemory username password newPassword beyond now) user
        = loginDecided P now user username.text password.text (newPassword.map CharArray.text)
  | command _ | calib _ | targetOrder _ | preArm _ | stateChange _ | changeCam _ => True

end ClientRequest

/-- The buffer for a message is the only one that holds it. -/
theorem eq_buffer_of_holds {m : TMessage} {buffer : TBuffer} (hfits : m.Fits)
    (h : Holds m buffer) : buffer = m.buffer := by
  obtain ⟨hlen, htype, hbytes⟩ := h
  have hlen' : buffer.len = m.buffer.len := BitVec.eq_of_toNat_eq (hlen.trans m.len_toNat.symm)
  have hdata : buffer.data = m.buffer.data := hbytes.trans (TMessage.buffer_data hfits).symm
  have htype' : buffer.type = m.buffer.type := htype
  cases buffer
  cases hb : m.buffer
  rw [hb] at hlen' hdata htype'
  simp only at hlen' hdata htype'
  subst hlen' hdata htype'
  rfl

/-- A text ends at its first NUL. -/
theorem takeWhile_append_zero (text rest : Bytes) :
    (text ++ [0] ++ rest).takeWhile (· ≠ 0) = (text ++ [0]).takeWhile (· ≠ 0) := by
  induction text with
  | nil => rfl
  | cons c text ih =>
      rw [List.cons_append, List.cons_append, List.takeWhile_cons, List.takeWhile_cons, ih]

theorem takeWhile_text {text : Bytes} (h : 0 ∉ text) (rest : Bytes) :
    (text ++ [0] ++ rest).takeWhile (· ≠ 0) = text := by
  rw [takeWhile_append_zero, List.takeWhile_append_of_pos]
  · rw [List.takeWhile_cons_of_neg (by decide), List.append_nil]
  · intro c hc
    exact decide_eq_true fun hzero => h (hzero ▸ hc)

theorem strlen_text {text : Bytes} (h : 0 ∉ text) (rest : Bytes) :
    strlen (text ++ [0] ++ rest) = text.length := by
  rw [strlen, takeWhile_text h]

theorem strlen_text_nil {text : Bytes} (h : 0 ∉ text) : strlen (text ++ [0]) = text.length := by
  have hnil := strlen_text h []
  rwa [List.append_nil] at hnil

/-- `ProcessFiringOrder` reads the order up to its NUL. -/
theorem processFiringOrder_text {order : Bytes} (h : 0 ∉ order) (rest : Bytes) :
    processFiringOrder (order ++ [0] ++ rest) = processFiringOrder (order ++ [0]) := by
  have htake : (order ++ [0] ++ rest).take order.length = order := by
    rw [List.append_assoc, List.take_left]
  rw [processFiringOrder, processFiringOrder, strlen_text h, strlen_text_nil h, htake,
    List.take_left]

/-- `ProcessPreArm` reads the code up to its NUL. -/
theorem processPreArm_text {code : Bytes} (h : 0 ∉ code) (rest : Bytes) :
    processPreArm (code ++ [0] ++ rest) = processPreArm (code ++ [0]) := by
  have hnul : ((code ++ [0] ++ rest)[decode.length]? = some 0 ∧ code.length = decode.length)
      ↔ ((code ++ [0])[decode.length]? = some 0 ∧ code.length = decode.length) := by
    refine and_congr_left fun hlen => ?_
    rw [← hlen, List.getElem?_append_left (by rw [List.length_append]; exact Nat.lt_succ_self _)]
  have hdecode : code.length = decode.length →
      (xorDecode (code ++ [0] ++ rest)).takeWhile (· ≠ 0)
        = (xorDecode (code ++ [0])).takeWhile (· ≠ 0) := by
    intro hlen
    rw [xorDecode, xorDecode, ← hlen, List.append_assoc, List.take_left, List.take_left,
      List.drop_left, List.drop_left, ← List.append_assoc]
    exact takeWhile_append_zero _ rest
  rw [processPreArm, processPreArm, strlen_text h, strlen_text_nil h]
  refine congrArg (Program.fetch >>= ·) (funext fun s => if_congr Iff.rfl ?_ rfl)
  by_cases hlen : code.length = decode.length
  · rw [hdecode hlen]
    exact if_congr hnul rfl rfl
  · rw [if_neg fun hc => hlen hc.2, if_neg fun hc => hlen hc.2]

section Handled

variable {w : Window} {m : TMessage} {r : ClientRequest} {beyond : Bytes} {now : Int}

/-- A request fits. -/
theorem ClientRequest.fits (hm : r.IsIn m) (hr : r.Proper w) : m.Fits := by
  rw [TMessage.Fits]
  cases r with
  | login username password newPassword =>
      obtain rfl := hm
      rw [loginToServer]
      dsimp only
      split <;> rw [loginPayload_length, newPasswordField_length] <;> decide
  | command code | calib code =>
      rw [hm.2]
      exact (by decide : 1 ≤ sizeofData)
  | targetOrder order =>
      rw [hm.2, List.length_append]
      exact Nat.le_trans (Nat.add_le_add_right hr.1 1) (by decide)
  | preArm code =>
      rw [hm.2, List.length_append]
      exact Nat.le_trans (Nat.add_le_add_right hr.1 1) (by decide)
  | stateChange state | changeCam state =>
      rw [hm.2, htonl_length]
      decide

/-- The memory behind the header starts with the payload. -/
theorem mem_zero (hfits : m.Fits) (beyond : Bytes) (now : Int) : ∃ rest,
    (Received.mk m.buffer beyond now).mem 0 = m.payload ++ rest := by
  refine ⟨List.replicate (sizeofData - m.payload.length) 0xFF ++ beyond, ?_⟩
  rw [Received.mem, List.drop_zero, TMessage.buffer_data hfits, List.append_assoc]

theorem nul_not_mem_of_digits {order : Bytes} (h : order.all isDigit = true) : 0 ∉ order :=
  fun hzero => absurd (List.all_eq_true.mp h 0 hzero) (by decide)

/-- **What the server does about a request.**  Whatever lies behind the message on the
    stack, `NetworkInputThread` runs the handler with what was asked for. -/
theorem request_handled (P : Platform) (hm : r.IsIn m) (hr : r.Proper w) (beyond : Bytes)
    (now : Int) : dispatch P ⟨m.buffer, beyond, now⟩ = r.handler P beyond now := by
  obtain ⟨rest, hmem⟩ := mem_zero (r.fits hm hr) beyond now
  have hword : ∀ word, m.payload = htonl word →
      ntohl ((Received.mk m.buffer beyond now).mem 0) = word := by
    intro word hpayload
    rw [hmem, hpayload, ntohl_htonl]
  have hhead : ∀ code, m.payload = [code] →
      ((Received.mk m.buffer beyond now).mem 0).headD 0 = code := by
    intro code hpayload
    rw [hmem, hpayload]
    rfl
  have hdispatch : ∀ {q : Prog Unit}, m.type ≠ mtLoginReq →
      switchType ⟨m.buffer, beyond, now⟩ = q →
      dispatch P ⟨m.buffer, beyond, now⟩ = whenLoggedIn q := by
    intro q hlogin hq
    rw [← hq]
    exact if_neg hlogin
  cases r with
  | login username password newPassword =>
      obtain rfl := hm
      exact if_pos rfl
  | command code =>
      refine hdispatch (by rw [hm.1]; decide) ?_
      rw [switchType, hhead code hm.2, show m.buffer.type = mtCommands from hm.1]
      rfl
  | calib code =>
      refine hdispatch (by rw [hm.1]; decide) ?_
      rw [switchType, hhead code hm.2, show m.buffer.type = mtCalibCommands from hm.1]
      rfl
  | targetOrder order =>
      refine hdispatch (by rw [hm.1]; decide) ?_
      rw [switchType, hmem, hm.2, processFiringOrder_text (nul_not_mem_of_digits hr.2.1),
        show m.buffer.type = mtTargetSequence from hm.1]
      rfl
  | preArm code =>
      refine hdispatch (by rw [hm.1]; decide) ?_
      rw [switchType, hmem, hm.2, processPreArm_text hr.2,
        show m.buffer.type = mtPrearm from hm.1]
      rfl
  | stateChange state =>
      refine hdispatch (by rw [hm.1]; decide) ?_
      rw [switchType, hword state hm.2, show m.buffer.type = mtStateChangeReq from hm.1]
      rfl
  | changeCam state =>
      refine hdispatch (by rw [hm.1]; decide) ?_
      rw [switchType, hword state hm.2, show m.buffer.type = mtCamStateChangeReq from hm.1]
      rfl

/-- What is typed for a login is what is decided about. -/
theorem request_understood (P : Platform) (hr : r.Proper w) (beyond : Bytes) (now : Int) :
    r.Understood P beyond now := by
  cases r with
  | login username password newPassword =>
      intro husername hpasswords user
      let c : Credentials :=
        ⟨username, password, newPassword.getD (.ofText []), newPassword.isSome⟩
      have hmemory : loginMemory username password newPassword beyond now
          = c.received beyond now := by
        cases newPassword <;> rfl
      have hname : (c.received beyond now).cString offsetUserName = username.text :=
        (Credentials.username_iff (minPassword_le_of_sanityPassword hr.2.1)).mpr husername
      have hflag := c.flag_received beyond now
      rw [hmemory, checkLogin, hname, hflag]
      cases newPassword with
      | none =>
          have hpassword : (c.received beyond now).cString offsetPassword = password.text :=
            Credentials.password_iff.mpr (by rintro ⟨⟩)
          have hzero : c.flag = 0 := rfl
          rw [hpassword, if_pos hzero]
          rfl
      | some new =>
          obtain ⟨hold, hnew⟩ := hpasswords new rfl
          have hpassword : (c.received beyond now).cString offsetPassword = password.text :=
            Credentials.password_iff.mpr fun _ => hold
          have hnewPassword : (c.received beyond now).cString offsetNewPassword = new.text :=
            (Credentials.newPassword_iff rfl).mpr hnew
          have hone : c.flag = 1 := rfl
          rw [hpassword, hnewPassword, hone, if_neg (by decide), if_pos rfl]
          rfl
  | command | calib | targetOrder | preArm | stateChange | changeCam => trivial

/-- The buffer is handled as the request that the message is. -/
def Heard (w : Window) (m : TMessage) (buffer : TBuffer) : Prop :=
  ∃ r : ClientRequest, r.IsIn m ∧ r.Proper w ∧ ∀ (P : Platform) (beyond : Bytes) (now : Int),
    dispatch P ⟨buffer, beyond, now⟩ = r.handler P beyond now ∧ r.Understood P beyond now

theorem Asks.heard (hm : Asks w m) {buffer : TBuffer} (hholds : Holds m buffer) :
    Heard w m buffer := by
  obtain ⟨r, hin, hproper⟩ := hm
  rw [eq_buffer_of_holds (r.fits hin hproper) hholds]
  exact ⟨r, hin, hproper, fun P beyond now =>
    ⟨request_handled P hin hproper beyond now, request_understood P hproper beyond now⟩⟩

end Handled

/-- **From the window to the handlers.**  Messages that a run of the window has written,
    in any order, with the connection splitting them anywhere: what is dispatched is
    handled, one for one and in order, as the requests that they are; a message is dispatched
    as soon as its last byte was read, and every positive answer of the connection reads a
    byte. -/
theorem requests_heard {h : List (Window × WindowMessage)} {w : Window} (hr : WindowRun h w)
    {ms : List TMessage} (hms : ∀ m ∈ ms, ∃ x ∈ h, m ∈ writes (x.1.wndProc x.2).2)
    {script : List SslRet} (hscript : ∀ r ∈ script, r.Moves) :
    ∃ delivered rest, ms = delivered ++ rest
      ∧ List.Forall₂ (fun m buffer => ∃ x ∈ h, Heard x.1 m buffer) delivered
          (dispatched (networkInputThread script (encodeAll ms)).1)
      ∧ (∀ m tail, rest = m :: tail → (encodeAll tail).length
          < (networkInputThread script (encodeAll ms)).2.length)
      ∧ (networkInputThread script (encodeAll ms)).2.length
          ≤ (encodeAll ms).length - reads script
      ∧ ((encodeAll ms).length ≤ reads script → rest = []) := by
  have hasks : ∀ m ∈ ms, ∃ x ∈ h, Asks x.1 m := by
    intro m hm
    obtain ⟨x, hx, hwritten⟩ := hms m hm
    exact ⟨x, hx, asks_wndProc (hr.sane.of_mem x hx) hwritten⟩
  have hfits : ∀ m ∈ ms, m.Fits := by
    intro m hm
    obtain ⟨x, -, r, hin, hproper⟩ := hasks m hm
    exact r.fits hin hproper
  obtain ⟨delivered, rest, hsplit, hholds, hnext⟩ :=
    networkInputLoop_framing hfits hscript (Nat.lt_succ_self script.length)
  refine ⟨delivered, rest, hsplit, ?_, hnext,
    networkInputLoop_unread hscript (Nat.lt_succ_self script.length) _,
    fun hreads => rest_eq_nil hnext (networkInputThread_reads hscript hreads)⟩
  have hboth := (List.forall₂_and_left delivered _).mpr
    ⟨fun m hm => hasks m (hsplit ▸ List.mem_append_left rest hm), hholds⟩
  exact hboth.imp fun m buffer ⟨⟨x, hx, hm⟩, hheld⟩ => ⟨x, hx, hm.heard hheld⟩

/-- All that the session has written since the connection is handled. -/
theorem requests_heard_typed :
    ∃ h w, WindowRun h w ∧ (Session.written h).length = 6
      ∧ List.Forall₂ (fun m buffer => ∃ x ∈ h, Heard x.1 m buffer) (Session.written h)
        (dispatched (networkInputThread splitScript (encodeAll (Session.written h))).1) := by
  obtain ⟨h, w, hr, hlen, hreads⟩ := Session.typed_run
  obtain ⟨delivered, rest, hsplit, hheard, -, -, hall⟩ := requests_heard hr
    (fun m (hm : m ∈ Session.written h) => List.mem_flatMap.mp hm)
    splitScript_moves
  obtain rfl : delivered = Session.written h := by
    rw [hsplit, hall hreads, List.append_nil]
  exact ⟨h, w, hr, hlen, hheard⟩

end DemoCannon
