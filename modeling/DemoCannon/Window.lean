import DemoCannon.Client

/-! # The window of the client

    `LgClientDisplay.cpp` is a window procedure over some globals and the controls of one
    dialog.  `Window` is both, and `wndProc` what the procedure does with a message: the
    window afterwards, and what it has sent, posted and shown on the way. -/

namespace DemoCannon

open SystemState

/-! ## What a connected client asks for -/

theorem one_lt_size : 1 < UInt32.size := by decide

/-- `SendCodeToServer`. -/
def sendCodeToServer (isClientConnected : Bool) (code : UInt8) : Option TMessage :=
  if isClientConnected then some ⟨mtCommands, [code], one_lt_size⟩
  else none

/-- `SendCalibToServer`. -/
def sendCalibToServer (isClientConnected : Bool) (code : UInt8) : Option TMessage :=
  if isClientConnected then some ⟨mtCalibCommands, [code], one_lt_size⟩
  else none

/-- `sizeof(MsgPreArm.Code)`. -/
def sizeofCode : Nat := 10

/-- What `SendPreArmCodeToServer` sends, if anything: the code and its NUL.  A code that
    does not fit ends the client in `strcpy_s`. -/
def sendPreArmCodeToServer {size : Nat} (isClientConnected : Bool) (code : CharArray size) :
    Option TMessage :=
  if h : isClientConnected = true ∧ code.text.length < sizeofCode then
    some {
      type := mtPrearm
      payload := code.text ++ [0]
      payload_lt := by
        rw [List.length_append]
        exact Nat.lt_trans (Nat.add_lt_add_right h.2 1) (by decide) }
  else none

/-- A request for one word. -/
def sendWordToServer (isClientConnected : Bool) (type word : BitVec 32) : Option TMessage :=
  if isClientConnected then some ⟨type, htonl word, by rw [htonl_length]; decide⟩ else none

/-- `SendStateChangeRequestToServer`. -/
def sendStateChangeRequestToServer (isClientConnected : Bool) (state : SystemState) :
    Option TMessage := sendWordToServer isClientConnected mtStateChangeReq state

/-- `SendChangeCAMStateRequestToServer`. -/
def sendChangeCAMStateRequestToServer (isClientConnected : Bool) (state : BitVec 32) :
    Option TMessage := sendWordToServer isClientConnected mtCamStateChangeReq state

/-! ## `SanityCheck` -/

def maxIp : Nat := 20
def inputTooLongIp : Int := -1
def inputWrongIpRule : Int := -2

/-- `sanity_ip`. -/
def sanityIp (buf : Bytes) : Int :=
  sanityChars maxIp inputTooLongIp inputWrongIpRule (fun c => isDigit c || c = 0x2E) buf

/-! ## The window -/

/-- A check box: its mark, and whether it can be clicked. -/
structure CheckBox where
  checked : Bool := false
  enabled : Bool := false
  deriving DecidableEq, Repr

/-- The text of a `char` array, as the source initializes it. -/
def CharArray.ofText {size : Nat} (text : Bytes) (hlt : text.length < size := by decide)
    (hnul : 0 ∉ text := by decide) : CharArray size := ⟨text, hlt, hnul⟩

/-- The globals of the client, and its controls as they are after `OnCreate`. -/
structure Window where
  systemState : SystemState := safe
  /-- `"192.168.0.88"`. -/
  remoteAddress : CharArray (maxText + 1) :=
    .ofText [0x31, 0x39, 0x32, 0x2E, 0x31, 0x36, 0x38, 0x2E, 0x30, 0x2E, 0x38, 0x38]
  /-- `"0123456789"`. -/
  engagementOrder : CharArray (maxText + 1) :=
    .ofText [0x30, 0x31, 0x32, 0x33, 0x34, 0x35, 0x36, 0x37, 0x38, 0x39]
  preArmCode : CharArray (maxText + 1) := .ofText []
  loginId : CharArray (maxUsername + 1) := .ofText []
  loginPw : CharArray (maxPassword + 1) := .ofText []
  newPw : CharArray (maxPassword + 1) := .ofText []
  /-- `login_state`, whatever word the server sent for it. -/
  loginState : BitVec 32 := LoginState.loginUnknown.word
  /-- `LaserOn` of `case WM_SYSTEM_STATE`. -/
  laserOn : Bool := false
  /-- `hThreadClient != INVALID_HANDLE_VALUE`. -/
  isClientConnected : Bool := false
  armedManual : CheckBox := {}
  laserEnable : CheckBox := {}
  autoEngage : CheckBox := {}
  calibrate : CheckBox := {}
  cam : CheckBox := { checked := true }
  prearmSafeEnabled : Bool := false
  prearmSafeText : String := "Pre-Arm Enable"
  editPrearmCodeEnabled : Bool := false
  editEngageOrderEnabled : Bool := false
  editLoginIdEnabled : Bool := true
  editLoginPwEnabled : Bool := true
  editNewPwVisible : Bool := false
  systemStateText : String := "Unknown"
  /-- The buttons of the toolbar. -/
  connectEnabled : Bool := true
  disconnectEnabled : Bool := false
  /-- Timer 1, which `ThreadClient` sets again with each heartbeat, is running. -/
  timer : Bool := false

/-- The window after `OnCreate`. -/
def Window.created : Window := {}

/-- What a message does outside the window. -/
inductive WindowEffect where
  /-- `WriteData` of a whole message. -/
  | write (m : TMessage)
  /-- `PostMessage(hWndMain, WM_SYSTEM_STATE, state, 0)`. -/
  | postSystemState (state : SystemState)
  | displayMessageOkBox (msg : String)
  | messageBeep
  /-- `PlaySound` of the warning before the cannon fires. -/
  | playSound
  | setDisplayNoData

/-- What a send does. -/
def sends (m : Option TMessage) : List WindowEffect := (m.map .write).toList

/-- What a call of a handler does. -/
def ClientCall.effects (isClientConnected : Bool) : ClientCall → List WindowEffect
  | .displayMessageOkBox msg => [.displayMessageOkBox msg]
  | .sendTargetOrderToServer order =>
      sends (DemoCannon.sendTargetOrderToServer isClientConnected order)
  | .sendStateChangeRequestToServer state =>
      sends (DemoCannon.sendStateChangeRequestToServer isClientConnected state)

namespace Window

/-- `SendStateChangeRequestToServer` from a handler. -/
def request (w : Window) (state : SystemState) : List WindowEffect :=
  sends (sendStateChangeRequestToServer w.isClientConnected state)

/-! ### Keys -/

/-- `(wParam == lower) || (wParam == upper)`. -/
def isKey (lower upper : Char) (wParam : Nat) : Bool :=
  wParam = lower.toNat ∨ wParam = upper.toNat

/-- The code for a key, given those of the five keys that have one. -/
def sendCode (j l i m f : Option UInt8) (wParam : Nat) : Option UInt8 :=
  if isKey 'j' 'J' wParam then j
  else if isKey 'l' 'L' wParam then l
  else if isKey 'i' 'I' wParam then i
  else if isKey 'm' 'M' wParam then m
  else if isKey 'f' 'F' wParam then f
  else none

/-- `case WM_KEYDOWN`. -/
def keyDown (w : Window) (wParam : Nat) : List WindowEffect :=
  if w.calibrate.checked then
    sends ((sendCode (some decX) (some incX) (some incY) (some decY) none wParam).bind
      (sendCalibToServer w.isClientConnected))
  else
    sends ((sendCode (some panLeftStart) (some panRightStart) (some panUpStart)
      (some panDownStart) (some fireStart) wParam).bind
        (sendCodeToServer w.isClientConnected))

/-- `case WM_KEYUP`, whether calibrating or not. -/
def keyUp (w : Window) (wParam : Nat) : List WindowEffect :=
  sends ((sendCode (some panLeftStop) (some panRightStop) (some panUpStop) (some panDownStop)
    (some fireStop) wParam).bind (sendCodeToServer w.isClientConnected))

/-! ### Helpers -/

/-- `update_username_pw_editable`. -/
def updateUsernamePwEditable (w : Window) (enableUsername enablePw showNewPw : Bool) : Window :=
  { w with
    editLoginIdEnabled := enableUsername
    editLoginPwEnabled := enablePw
    editNewPwVisible := showNewPw
    newPw := if showNewPw then w.newPw else .ofText [] }

/-- `CAM_DEFAULT_STATE`. -/
def camDefaultState : BitVec 32 := camOn

/-- `update_camera_checkbox`. -/
def updateCameraCheckbox (w : Window) (camState : BitVec 32) (toDisabled toEnabled : Bool) :
    Window × List WindowEffect :=
  let checked := w.cam.checked
  let marked :=
    if checked = false ∧ camState = camOn then true
    else if checked = true ∧ camState = camOff then false
    else checked
  let disabled := if toDisabled then false else w.cam.enabled
  let enabled :=
    if toEnabled ∧ disabled = false then
      -- the whole word is compared, flags included
      if w.systemState ≠ unknown ∧ w.systemState ≠ safe then true else disabled
    else disabled
  ({ w with cam := ⟨marked, enabled⟩ },
    if checked = true ∧ camState = camOff then [.setDisplayNoData] else [])

/-! ### Controls -/

/-- `case IDC_EDIT_PREARM_CODE`: `PreArmCode` after an edit of the window. -/
def editPreArmCode (preArmCode : CharArray (maxText + 1)) (text : WindowText) :
    CharArray (maxText + 1) :=
  -- a longer code is undone before the window is read again
  if 8 < (getWindowTextA maxText text).text.length then preArmCode
  else getWindowTextA maxText text

/-- `case IDC_CHECKBOX_CAM`. -/
def checkboxCam (w : Window) : Window × List WindowEffect :=
  let state := if w.cam.checked then camOff else camOn
  let updated := w.updateCameraCheckbox state false false
  (updated.1, sends (sendChangeCAMStateRequestToServer w.isClientConnected state) ++ updated.2)

/-- `case IDC_CHECKBOX_ARMED_MANUAL`. -/
def checkboxArmedManual (w : Window) : List WindowEffect :=
  if w.armedManual.checked then w.request prearmed
  else w.request SystemState.armedManual

/-- `case IDC_CHECKBOX_LASER_ENABLE`. -/
def checkboxLaserEnable (w : Window) : Window × List WindowEffect :=
  let state :=
    if w.laserEnable.checked then w.systemState &&& clearLaserMask
    else w.systemState ||| SystemState.laserOn
  ({ w with
      laserEnable := { w.laserEnable with checked := !w.laserEnable.checked }
      systemState := state },
    w.request state)

/-- `case IDC_CHECKBOX_CALIBRATE`. -/
def checkboxCalibrate (w : Window) : Window × List WindowEffect :=
  if w.calibrate.checked then
    -- the mark stays until the server answers
    ({ w with systemState := w.systemState &&& clearCalibMask },
      w.request (w.systemState &&& clearCalibMask))
  else
    ({ w with
        calibrate := { w.calibrate with checked := true }
        systemState := w.systemState ||| calibOn },
      w.request (w.systemState ||| calibOn))

/-- `case IDC_BUTTON_PREARM_SAFE`. -/
def buttonPrearmSafe (w : Window) : Window × List WindowEffect :=
  if base w.systemState = safe then
    ({ w with preArmCode := .ofText [] },
      sends (sendPreArmCodeToServer w.isClientConnected w.preArmCode))
  else (w, w.request safe)

/-! ### Connecting -/

/-- The boxes of `SanityCheck`, and whether it fails. -/
def sanityCheck (w : Window) : Bool × List WindowEffect :=
  let ip := sanityIp w.remoteAddress.text
  let id := sanityId w.loginId.text
  let password :=
    if w.loginState = LoginState.dateExpired.word then sanityPassword w.newPw.text
    else sanityPassword w.loginPw.text
  if ip < 0 then
    (false,
      if ip = inputTooLongIp then [.displayMessageOkBox "you entered too long ip!\n"]
      else if ip = inputWrongIpRule then [.displayMessageOkBox "wrong ip rule!\n"]
      else [])
  else if id < 0 then
    (false,
      if id = inputTooLongId then [.displayMessageOkBox "you entered too long id!\n"]
      else if id = inputWrongIdRule then [.displayMessageOkBox "wrong id rule!\n"]
      else [])
  else if password < 0 then
    (false,
      if password = inputTooShordPassword then
        [.displayMessageOkBox "you entered too shord password!\n"]
      else if password = inputTooLongPassword then
        [.displayMessageOkBox "you entered too long password!\n"]
      else if password = inputWrongPasswordRule then
        [.displayMessageOkBox "wrong password rule!\n"]
      else [])
  else (true, [])

/-- The request of `OnConnect`. -/
def loginRequest (w : Window) : TMessage :=
  loginToServer w.loginId w.loginPw w.editNewPwVisible (some w.newPw)

/-- What comes of an attempt to connect. -/
inductive Attempt where
  /-- `ConnectToServer` fails. -/
  | refused
  /-- `LoginToServer` returns a state. -/
  | answered (loginState : BitVec 32)

/-- `OnConnect`, with what it returns in front. -/
def onConnect (w : Window) (attempt : Attempt) : Bool × Window × List WindowEffect :=
  if w.isClientConnected then (false, w, [])
  else
    match attempt with
    | .refused => (false, w, [.displayMessageOkBox "Connection can't be established!"])
    | .answered state =>
        let w' := { w with loginState := state }
        if state = LoginState.loginOk.word then
          let started := { w' with isClientConnected := true }
          (true,
            { started with
              prearmSafeEnabled := true
              editPrearmCodeEnabled := true }.updateUsernamePwEditable false false false,
            .write w.loginRequest :: started.request safe)
        else if state = LoginState.dateExpired.word then
          (false, w'.updateUsernamePwEditable false false true,
            [.write w.loginRequest,
              .displayMessageOkBox "Password Expired. Change Password !"])
        else
          (false, w'.updateUsernamePwEditable true true false,
            [.write w.loginRequest, .displayMessageOkBox "Connection Failed!"])

/-- The toolbar while a connection lasts, and while there is none. -/
def setToolbar (w : Window) (connected : Bool) : Window :=
  { w with connectEnabled := !connected, disconnectEnabled := connected }

/-- `case IDM_CONNECT`. -/
def idmConnect (w : Window) (attempt : Attempt) : Window × List WindowEffect :=
  let check := w.sanityCheck
  if check.1 then
    let connected := w.onConnect attempt
    (if connected.1 then connected.2.1.setToolbar true else connected.2.1,
      check.2 ++ connected.2.2)
  else (w, check.2)

/-- `OnDisconnect`. -/
def onDisconnect (w : Window) : Window × List WindowEffect :=
  if w.isClientConnected then
    let released : Window := { w with
      isClientConnected := false
      autoEngage := {}
      laserEnable := {}
      calibrate := {}
      armedManual := {}
      editEngageOrderEnabled := false
      editPrearmCodeEnabled := false
      prearmSafeEnabled := false }
    let updated := released.updateCameraCheckbox camDefaultState true false
    (updated.1.updateUsernamePwEditable true true false,
      .postSystemState unknown :: updated.2 ++ [.setDisplayNoData])
  else (w, [])

/-- `case IDM_DISCONNECT`. -/
def idmDisconnect (w : Window) : Window × List WindowEffect :=
  { w.setToolbar false with timer := false }.onDisconnect

/-- `case WM_TIMER`, of timer 1. -/
def wmTimer (w : Window) : Window × List WindowEffect :=
  let disconnected := (w.setToolbar false).onDisconnect
  ({ disconnected.1 with timer := false },
    disconnected.2
      ++ [.displayMessageOkBox "[timer callback] network disconnected!\n"])

/-! ### The state of the server -/

/-- The text of a state word. -/
def stateText (state : SystemState) : String :=
  if base state = unknown then "Unknown"
  else if base state = safe then "Safe"
  else if base state = prearmed then "Pre-Arm"
  else if base state = engageAuto then
    if has state SystemState.armed then
      if has state firing then "Armed-FIRING" else "Armed"
    else if has state firing then "Engage Auto-FIRING" else "Engage Auto"
  else if base state = SystemState.armedManual then
    if has state firing then "Armed Manual- FIRING" else "Armed Manual"
  else "Unknown Error"

/-- The switch of `case WM_SYSTEM_STATE` on the base state. -/
def showBase (w : Window) : Window × List WindowEffect :=
  let b := base w.systemState
  let w := { w with systemStateText := stateText w.systemState }
  if b = unknown then (w, [])
  else if b = safe then
    let shown : Window := { w with
      prearmSafeText := "Pre-Arm Enable"
      armedManual := {}
      autoEngage := {}
      laserEnable := {}
      calibrate := {}
      editEngageOrderEnabled := false
      editPrearmCodeEnabled := true }
    shown.updateCameraCheckbox camDefaultState true false
  else if b = prearmed then
    let shown : Window := { w with
      prearmSafeText := "Safe"
      armedManual := { enabled := true }
      autoEngage := { enabled := true }
      laserEnable := {}
      calibrate := {}
      editEngageOrderEnabled := true
      editPrearmCodeEnabled := false }
    shown.updateCameraCheckbox camDefaultState false true
  else if b = engageAuto then
    -- laser and calibration are left as they are, and so is the mark of manual
    ({ w with
        armedManual := { w.armedManual with enabled := false }
        editEngageOrderEnabled := false
        autoEngage := { w.autoEngage with checked := true } }, [])
  else if b = SystemState.armedManual then
    ({ w with
        laserEnable := { w.laserEnable with enabled := true }
        calibrate := { w.calibrate with enabled := true }
        armedManual := { w.armedManual with checked := true }
        autoEngage := { w.autoEngage with enabled := false }
        editEngageOrderEnabled := false }, [])
  else (w, [])

/-- `case WM_SYSTEM_STATE`. -/
def wmSystemState (w : Window) (state : SystemState) : Window × List WindowEffect :=
  let laser := has state SystemState.laserOn
  let sound : List WindowEffect :=
    if laser = true ∧ has state engageAuto = true ∧ w.laserOn = false then [.playSound]
    else []
  let shown := { w with
    systemState := state
    laserEnable := { w.laserEnable with checked := laser }
    laserOn := laser
    calibrate := { w.calibrate with checked := has state calibOn } }.showBase
  (shown.1, sound ++ shown.2)

end Window

/-! ## The window procedure -/

/-- The messages of the window procedure that do more than to draw. -/
inductive WindowMessage where
  | keyDown (wParam : Nat)
  | keyUp (wParam : Nat)
  | editLoginId (text : WindowText)
  | editLoginPw (text : WindowText)
  | editNewPw (text : WindowText)
  | editRemote (text : WindowText)
  | editEngageOrder (text : WindowText)
  | editPrearmCode (text : WindowText)
  | checkboxCam
  | checkboxArmedManual
  | checkboxLaserEnable
  | checkboxAutoEngage
  | checkboxCalibrate
  | buttonPrearmSafe
  | connect (attempt : Window.Attempt)
  | disconnect
  | timer
  | clientLost
  | systemState (state : SystemState)

/-- `WndProc`. -/
def Window.wndProc (w : Window) : WindowMessage → Window × List WindowEffect
  | .keyDown wParam => (w, w.keyDown wParam)
  | .keyUp wParam => (w, w.keyUp wParam)
  | .editLoginId text => ({ w with loginId := getWindowTextA maxUsername text }, [])
  | .editLoginPw text => ({ w with loginPw := getWindowTextA maxPassword text }, [])
  | .editNewPw text => ({ w with newPw := getWindowTextA maxPassword text }, [])
  | .editRemote text => ({ w with remoteAddress := getWindowTextA maxText text }, [])
  | .editEngageOrder text =>
      ({ w with engagementOrder := (DemoCannon.editEngageOrder w.engagementOrder text).1 },
        if countDups (getWindowTextA maxText text).text ≠ 0 then [.messageBeep] else [])
  | .editPrearmCode text =>
      ({ w with preArmCode := Window.editPreArmCode w.preArmCode text },
        if 8 < (getWindowTextA maxText text).text.length then [.messageBeep] else [])
  | .checkboxCam => w.checkboxCam
  | .checkboxArmedManual => (w, w.checkboxArmedManual)
  | .checkboxLaserEnable => w.checkboxLaserEnable
  | .checkboxAutoEngage =>
      (w, (DemoCannon.checkboxAutoEngage w.autoEngage.checked w.engagementOrder).flatMap
        (ClientCall.effects w.isClientConnected))
  | .checkboxCalibrate => w.checkboxCalibrate
  | .buttonPrearmSafe => w.buttonPrearmSafe
  | .connect attempt => w.idmConnect attempt
  | .disconnect => w.idmDisconnect
  | .timer => w.wmTimer
  | .clientLost => w.idmDisconnect
  | .systemState state => w.wmSystemState state

/-- The message can come: a control that is disabled or hidden sends none, and a timer
    that does not run neither. -/
def Window.allows (w : Window) : WindowMessage → Bool
  | .editLoginId _ => w.editLoginIdEnabled
  | .editLoginPw _ => w.editLoginPwEnabled
  | .editNewPw _ => w.editNewPwVisible
  | .editEngageOrder _ => w.editEngageOrderEnabled
  | .editPrearmCode _ => w.editPrearmCodeEnabled
  | .checkboxCam => w.cam.enabled
  | .checkboxArmedManual => w.armedManual.enabled
  | .checkboxLaserEnable => w.laserEnable.enabled
  | .checkboxAutoEngage => w.autoEngage.enabled
  | .checkboxCalibrate => w.calibrate.enabled
  | .buttonPrearmSafe => w.prearmSafeEnabled
  | .connect _ => w.connectEnabled
  | .disconnect => w.disconnectEnabled
  | .timer => w.timer
  | .keyDown _ | .keyUp _ | .editRemote _ | .clientLost | .systemState _ => true

end DemoCannon
