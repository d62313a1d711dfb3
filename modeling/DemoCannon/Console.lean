import DemoCannon.Asking
import DemoCannon.Controls
import DemoCannon.Operator

/-! # A session: the window and the server

    The operator, the window, `ThreadClient`, the threads of the server and the two
    directions of the connection, taking turns in any order while a connection lasts.
    The connection delivers the messages of the window as requests
    (`requests_heard`), and what the server sends frame by frame.

    The display lags behind the server and is ahead of it with the marks of laser and
    calibration.  With nothing under way it shows the state of the server
    (`display_current`), and from the first state on its controls are those of the state
    that it shows (`controls_shown`). -/

namespace DemoCannon

open Interaction Interaction.Program SystemState

/-! ## `ProcessMessage` -/

/-- What `ProcessMessage` does with a message. -/
inductive Processed where
  | processImage (data : Bytes)
  | print (text : Bytes)
  /-- `PostMessage(hWndMain, WM_SYSTEM_STATE, ...)`. -/
  | postSystemState (state : SystemState)
  | camState
  /-- `SetTimer`. -/
  | setTimer
  | unknownMessage

/-- `ProcessMessage`. -/
def processMessage (msgBuffer : Bytes) : Processed :=
  let len := ntohl msgBuffer
  let type := ntohl (msgBuffer.drop 4)
  if type = mtImage then .processImage ((msgBuffer.drop sizeofHeader).take len.toNat)
  else if type = mtText then .print ((msgBuffer.drop sizeofHeader).takeWhile (· ≠ 0))
  else if type = mtState then .postSystemState (ntohl (msgBuffer.drop sizeofHeader))
  else if type = mtCamState then .camState
  else if type = mtHeartbeat then .setTimer
  else .unknownMessage

/-! ## The session -/

/-- Both sides and what is under way between them. -/
structure Console where
  window : Window
  /-- The `WM_SYSTEM_STATE`s that the window has still to handle. -/
  posted : List SystemState := []
  /-- Messages to the server. -/
  up : List TMessage
  /-- Frames to the client. -/
  down : List Bytes := []
  server : Server

namespace Console

/-- `ThreadClient` has handed a frame to `ProcessMessage`. -/
def process (c : Console) : Processed → Console
  | .postSystemState state => { c with posted := c.posted ++ [state] }
  | .setTimer => { c with window := { c.window with timer := true } }
  | .processImage _ | .print _ | .camState | .unknownMessage => c

/-- Whose turn it is. -/
inductive Turn where
  /-- The operator's. -/
  | operator (m : WindowMessage)
  /-- The window's, with a state that was posted. -/
  | showState
  /-- `ThreadClient`'s. -/
  | threadClient
  /-- `NetworkInputThread`'s, with its stack and `time(NULL)`. -/
  | networkInput (beyond : Bytes) (now : Int)
  /-- Another step of the server. -/
  | server (a : Act)
  /-- `main`'s, with the bytes of a frame. -/
  | image (sendbuff : Bytes)
  /-- `HeartBeatThread`'s. -/
  | heartBeat

/-- A turn. -/
inductive Step (P : Platform) (c : Console) : Turn → Console → Prop where
  | operator {m : WindowMessage} (hm : m.Operates = true) (hallows : c.window.allows m = true) :
      Step P c (.operator m) { c with
        window := (c.window.wndProc m).1
        up := c.up ++ writes (c.window.wndProc m).2 }
  | showState {state : SystemState} {rest : List SystemState} (hposted : c.posted = state :: rest) :
      Step P c .showState { c with
        window := (c.window.wndProc (.systemState state)).1
        posted := rest }
  | threadClient {f : Bytes} {rest : List Bytes} (hdown : c.down = f :: rest) :
      Step P c .threadClient ({ c with down := rest }.process (processMessage f))
  | networkInput {m : TMessage} {rest : List TMessage} {beyond : Bytes} {now : Int}
      {calls : List (Answered Call Call.Answer)} {t : Server} (hup : c.up = m :: rest)
      (h : Performs Serves (dispatch P ⟨m.buffer, beyond, now⟩) c.server calls () t) :
      Step P c (.networkInput beyond now) { c with
        up := rest
        down := c.down ++ frames calls
        server := t }
  | server {a : Act} {calls : List (Answered Call Call.Answer)} {t : Server}
      (hown : ∀ m, a ≠ .message m) (h : Performs Serves (a.prog P) c.server calls () t) :
      Step P c (.server a) { c with
        down := c.down ++ frames calls
        server := t }
  | image (sendbuff : Bytes) (hin : c.server.isLoggedIn = true)
      (hconnected : c.server.isConnected = true) (hcamera : c.server.isCameraOn = true) :
      Step P c (.image sendbuff) { c with
        down := c.down ++ [header sendbuff.length mtImage ++ sendbuff] }
  | heartBeat (hthread : c.server.heartBeatThread = true) :
      Step P c .heartBeat { c with
        down := c.down ++ [header 4 mtHeartbeat ++ [100, 0, 0, 0]] }

/-- `OnConnect` succeeds in a run of the window: the answer to the login has been read, and
    the request that follows it is under way. -/
structure Connects (c : Console) (h : List (Window × WindowMessage)) (w : Window) : Prop where
  run : WindowRun h w
  before : w.isClientConnected = false
  handles : w.Handles (.connect (.answered LoginState.loginOk.word)) c.window
  up : c.up = (writes (w.wndProc (.connect (.answered LoginState.loginOk.word))).2).tail
  after : c.window.isClientConnected = true

/-- The beginning of a session.  What the server does before the request arrives may as
    well come after the beginning. -/
structure Started (P : Platform) (config : Config) (c : Console) : Prop where
  connected : ∃ h w, c.Connects h w
  posted : c.posted = []
  down : c.down = []
  reachable : ∃ h, ServerRun P config h c.server
  safe : base c.server.systemState = safe
  loggedIn : c.server.isLoggedIn = true

/-- A session, from its beginning on. -/
abbrev SessionRun (P : Platform) (c₀ : Console) : List (Console × Turn) → Console → Prop :=
  Run (Step P) c₀

/-- The display as a copy of the state of the server. -/
def mirror (c : Console) : Mirror SystemState TMessage where
  value := c.server.systemState
  owes := c.server.engagement.owing
  copy := c.window.systemState
  up := c.up
  down := c.posted ++ c.down.filterMap posts

end Console

/-- The message asks for an answer with the state. -/
def asksState (m : TMessage) : Bool := m.type = mtStateChangeReq

/-! ## What the operator changes -/

section Operates

variable {w : Window} {m : WindowMessage}

theorem connected_wndProc (hm : m.Operates = true) :
    (w.wndProc m).1.isClientConnected = w.isClientConnected := by
  cases m with
  | checkboxCalibrate =>
      change w.checkboxCalibrate.1.isClientConnected = _
      rw [Window.checkboxCalibrate]
      split <;> rfl
  | buttonPrearmSafe =>
      change w.buttonPrearmSafe.1.isClientConnected = _
      rw [Window.buttonPrearmSafe]
      split <;> rfl
  | connect | disconnect | timer | clientLost | systemState => cases hm
  | keyDown | keyUp | editLoginId | editLoginPw | editNewPw | editRemote | editEngageOrder
    | editPrearmCode | checkboxCam | checkboxArmedManual | checkboxLaserEnable
    | checkboxAutoEngage => rfl

/-- A request of a connected window. -/
theorem writes_request (h : w.isClientConnected = true) (state : SystemState) :
    ∃ r : TMessage, writes (w.request state) = [r] ∧ asksState r = true
      ∧ (state ∈ w.states → Orders w r) := by
  rw [Window.request, writes_sends, sendStateChangeRequestToServer, sendWordToServer, if_pos h]
  exact ⟨_, rfl, rfl, fun hstate => ⟨.stateChange state, ⟨rfl, rfl⟩, hstate, trivial⟩⟩

/-- The marks of laser and calibration are changed ahead of the answer, and nothing else of
    the state. -/
theorem systemState_wndProc (hm : m.Operates = true) (h : w.isClientConnected = true) :
    (w.wndProc m).1.systemState = w.systemState
      ∨ ∃ r, writes (w.wndProc m).2 = [r] ∧ asksState r = true
        ∧ base (w.wndProc m).1.systemState = base w.systemState := by
  cases m with
  | checkboxLaserEnable =>
      right
      change ∃ r, writes w.checkboxLaserEnable.2 = [r] ∧ asksState r = true
        ∧ base w.checkboxLaserEnable.1.systemState = base w.systemState
      rw [Window.checkboxLaserEnable]
      dsimp only
      obtain ⟨r, hr, hasks, -⟩ := writes_request h
        (if w.laserEnable.checked then w.systemState &&& clearLaserMask
          else w.systemState ||| laserOn)
      refine ⟨r, hr, hasks, ?_⟩
      split
      · exact base_clear_flag _ .laserOn
      · exact base_or_flag _ .laserOn
  | checkboxCalibrate =>
      right
      change ∃ r, writes w.checkboxCalibrate.2 = [r] ∧ asksState r = true
        ∧ base w.checkboxCalibrate.1.systemState = base w.systemState
      rw [Window.checkboxCalibrate]
      split
      · obtain ⟨r, hr, hasks, -⟩ := writes_request h (w.systemState &&& clearCalibMask)
        exact ⟨r, hr, hasks, base_clear_flag _ .calibOn⟩
      · obtain ⟨r, hr, hasks, -⟩ := writes_request h (w.systemState ||| calibOn)
        exact ⟨r, hr, hasks, base_or_flag _ .calibOn⟩
  | buttonPrearmSafe =>
      left
      change w.buttonPrearmSafe.1.systemState = _
      rw [Window.buttonPrearmSafe]
      split <;> rfl
  | connect | disconnect | timer | clientLost | systemState => cases hm
  | keyDown | keyUp | editLoginId | editLoginPw | editNewPw | editRemote | editEngageOrder
    | editPrearmCode | checkboxCam | checkboxArmedManual | checkboxAutoEngage => exact Or.inl rfl

/-- The controls follow the marks. -/
theorem controls_wndProc (hm : m.Operates = true) (hallows : w.allows m = true)
    (hw : w.controls = controlsOf w.systemState) :
    (w.wndProc m).1.controls = controlsOf (w.wndProc m).1.systemState := by
  cases m with
  | checkboxLaserEnable =>
      have hbase : base w.systemState = armedManual :=
        armedManual_of_laserEnabled (hw ▸ hallows)
      have hmark : w.laserEnable.checked = has w.systemState laserOn := by
        have hbox := congrArg Controls.laserEnable hw
        rw [controlsOf_armedManual hbase] at hbox
        exact congrArg CheckBox.checked hbox
      have hself : has laserOn laserOn = true := by decide
      change { w.controls with laserEnable := ⟨!w.laserEnable.checked, w.laserEnable.enabled⟩ }
        = controlsOf (if w.laserEnable.checked then w.systemState &&& clearLaserMask
          else w.systemState ||| laserOn)
      rw [show w.laserEnable.enabled = true from hallows, hw, controlsOf_armedManual hbase, hmark]
      cases hlaser : has w.systemState laserOn with
      | true =>
          have hclear : has (w.systemState &&& ~~~laserOn) laserOn = false := by
            rw [has_clear _ _ .laserOn, hself]
            exact Bool.and_false _
          rw [if_pos rfl, clearLaserMask,
            controlsOf_armedManual ((base_clear_flag _ .laserOn).trans hbase), hclear]
          rfl
      | false =>
          have hset : has (w.systemState ||| laserOn) laserOn = true := by
            rw [has_or _ _ .laserOn, hself]
            exact Bool.or_true _
          rw [if_neg Bool.false_ne_true,
            controlsOf_armedManual ((base_or_flag _ .laserOn).trans hbase), hset]
          rfl
  | checkboxCalibrate =>
      have hother : has calibOn laserOn = false := by decide
      change w.checkboxCalibrate.1.controls = controlsOf w.checkboxCalibrate.1.systemState
      rw [Window.checkboxCalibrate]
      split
      · refine hw.trans (controlsOf_congr (base_clear_flag _ .calibOn) ?_).symm
        refine (has_clear _ calibOn .laserOn).trans ?_
        rw [hother]
        exact Bool.and_true _
      · refine hw.trans (controlsOf_congr (base_or_flag _ .calibOn) ?_).symm
        rw [has_or _ _ .laserOn, hother]
        exact Bool.or_false _
  | buttonPrearmSafe =>
      change w.buttonPrearmSafe.1.controls = controlsOf w.buttonPrearmSafe.1.systemState
      rw [Window.buttonPrearmSafe]
      split <;> exact hw
  | connect | disconnect | timer | clientLost | systemState => cases hm
  | keyDown | keyUp | editLoginId | editLoginPw | editNewPw | editRemote | editEngageOrder
    | editPrearmCode | checkboxCam | checkboxArmedManual | checkboxAutoEngage => exact hw

end Operates

/-- A connection that is made asks for the state. -/
theorem writes_connected {w : Window} (hbefore : w.isClientConnected = false)
    (hafter : (w.wndProc (.connect (.answered LoginState.loginOk.word))).1.isClientConnected
      = true) :
    ∃ r, (writes (w.wndProc (.connect (.answered LoginState.loginOk.word))).2).tail = [r]
      ∧ asksState r = true ∧ ∃ v, Orders v r := by
  change (w.idmConnect _).1.isClientConnected = true at hafter
  change ∃ r, (writes (w.idmConnect _).2).tail = [r] ∧ asksState r = true ∧ ∃ v, Orders v r
  rw [Window.idmConnect] at hafter ⊢
  dsimp only at hafter ⊢
  by_cases hcheck : w.sanityCheck.1 = true
  · rw [if_pos hcheck, Window.onConnect.eq_def, if_neg (Bool.eq_false_iff.mp hbefore)]
    dsimp only
    rw [if_pos rfl, writes_append, writes_sanityCheck, List.nil_append, writes_write]
    have hstarted : ({ w with
        loginState := LoginState.loginOk.word
        isClientConnected := true } : Window).isClientConnected = true := rfl
    obtain ⟨r, hr, hasks, horders⟩ := writes_request hstarted safe
    exact ⟨r, hr, hasks, _, horders (List.mem_cons_self ..)⟩
  · rw [if_neg hcheck] at hafter
    exact absurd (hbefore.symm.trans hafter) (by decide)

/-! ## The first connection

    Nothing posts a state before the first connection, and a control that is disabled is
    not clicked. -/

/-- The window has neither been connected nor been told of a state. -/
def NeverConnected (h : List (Window × WindowMessage)) : Prop :=
  ∀ x ∈ h, x.1.isClientConnected = false ∧ ∀ state, x.2 ≠ .systemState state

/-- The window before its first connection, whatever has been typed. -/
structure Window.Fresh (w : Window) : Prop where
  disconnected : w.isClientConnected = false
  systemState : w.systemState = safe
  controls : w.controls = .released "Pre-Arm Enable"

/-- The window right after its first connection. -/
structure Window.FirstConnected (w : Window) : Prop where
  connected : w.isClientConnected = true
  systemState : w.systemState = safe
  controls : w.controls = .safe

namespace Window

variable {w w' : Window} {m : WindowMessage}

theorem Fresh.onConnect (hw : w.Fresh) (attempt : Attempt) :
    (w.onConnect attempt).2.1.Fresh ∨ (w.onConnect attempt).2.1.FirstConnected := by
  rw [onConnect.eq_def, if_neg (Bool.eq_false_iff.mp hw.disconnected)]
  cases attempt with
  | refused => exact Or.inl hw
  | answered state =>
      dsimp only
      split
      · refine Or.inr ⟨rfl, hw.systemState, ?_⟩
        change { w.controls with editPrearmCodeEnabled := true } = _
        rw [hw.controls]
        rfl
      · split <;> exact Or.inl ⟨hw.disconnected, hw.systemState, hw.controls⟩

theorem Fresh.idmConnect (hw : w.Fresh) (attempt : Attempt) :
    (w.idmConnect attempt).1.Fresh ∨ (w.idmConnect attempt).1.FirstConnected := by
  rw [Window.idmConnect]
  dsimp only
  split
  · refine (hw.onConnect attempt).imp (fun h => ?_) fun h => ?_
    · split <;> exact ⟨h.disconnected, h.systemState, h.controls⟩
    · split <;> exact ⟨h.connected, h.systemState, h.controls⟩
  · exact Or.inl hw

theorem Fresh.onDisconnect (hw : w.Fresh) : w.onDisconnect.1.Fresh := by
  rw [Window.onDisconnect, if_neg (Bool.eq_false_iff.mp hw.disconnected)]
  exact hw

/-- A message keeps the window fresh, or connects it. -/
theorem Fresh.step (hw : w.Fresh) (h : w.Handles m w') (hm : ∀ state, m ≠ .systemState state)
    (hafter : w'.isClientConnected = false) : w'.Fresh := by
  obtain ⟨hallows, rfl⟩ := h
  have hdisabled : ∀ {π : Controls → Bool}, π (.released "Pre-Arm Enable") = false →
      π w.controls = true → (w.wndProc m).1.Fresh := by
    intro π hoff hon
    rw [hw.controls, hoff] at hon
    cases hon
  cases m with
  | checkboxCam => exact hdisabled (π := Controls.camEnabled) rfl hallows
  | checkboxArmedManual => exact hdisabled (π := fun c => c.armedManual.enabled) rfl hallows
  | checkboxLaserEnable => exact hdisabled (π := fun c => c.laserEnable.enabled) rfl hallows
  | checkboxAutoEngage => exact hdisabled (π := fun c => c.autoEngage.enabled) rfl hallows
  | checkboxCalibrate => exact hdisabled (π := Controls.calibrateEnabled) rfl hallows
  | buttonPrearmSafe =>
      change w.buttonPrearmSafe.1.Fresh
      rw [buttonPrearmSafe]
      split
      · exact ⟨hw.disconnected, hw.systemState, hw.controls⟩
      · exact hw
  | connect attempt =>
      refine (hw.idmConnect attempt).resolve_right fun hconnected => ?_
      exact absurd (hafter.symm.trans hconnected.connected) (by decide)
  | disconnect | clientLost =>
      exact (show Fresh { w.setToolbar false with timer := false } from
        ⟨hw.disconnected, hw.systemState, hw.controls⟩).onDisconnect
  | timer =>
      have hreleased := (show Fresh (w.setToolbar false) from
        ⟨hw.disconnected, hw.systemState, hw.controls⟩).onDisconnect
      exact ⟨hreleased.disconnected, hreleased.systemState, hreleased.controls⟩
  | systemState state => exact absurd rfl (hm state)
  | keyDown | keyUp | editLoginId | editLoginPw | editNewPw | editRemote | editEngageOrder
    | editPrearmCode => exact ⟨hw.disconnected, hw.systemState, hw.controls⟩

end Window

theorem WindowRun.fresh {h : List (Window × WindowMessage)} {w : Window} (hr : WindowRun h w)
    (hnever : NeverConnected h) (hw : w.isClientConnected = false) : w.Fresh := by
  induction hr with
  | start => exact ⟨rfl, rfl, rfl⟩
  | @snoc h w w' m hr hst ih =>
      obtain ⟨hbefore, hm⟩ := hnever (w, m) (List.mem_cons_self ..)
      exact (ih (fun x hx => hnever x (List.mem_cons_of_mem _ hx)) hbefore).step hst hm hw

/-- **The first connection begins with SAFE shown**, and with its controls. -/
theorem Console.Connects.first {h : List (Window × WindowMessage)} {w : Window} {c : Console}
    (hc : c.Connects h w) (hnever : NeverConnected h) : c.window.FirstConnected := by
  have hw := hc.run.fresh hnever hc.before
  have hafter := hc.after
  rw [hc.handles.2] at hafter ⊢
  refine (hw.idmConnect _).resolve_left fun hno => ?_
  exact absurd (hno.disconnected.symm.trans hafter) (by decide)

/-! ## What is kept -/

namespace Console

/-- What holds at all times of a session. -/
structure Kept (c : Console) : Prop where
  sane : c.window.Sane
  connected : c.window.isClientConnected = true
  orders : ∀ m ∈ c.up, ∃ w, Orders w m
  based : ∀ state ∈ c.mirror.down, Based state
  sound : c.server.control.Sound
  loggedIn : c.server.isLoggedIn = true

/-- SAFE is shown, or UNKNOWN, and the first state is asked for or on its way. -/
def Awaits (c : Console) : Prop :=
  shownBase c.window.systemState = safe
    ∧ ((∃ r ∈ c.up, asksState r = true) ∨ c.mirror.down ≠ [])

/-- The controls are those of the state that is shown. -/
def ControlsShown (c : Console) : Prop := c.window.controls = controlsOf c.window.systemState

/-- What holds besides in a session that begins with SAFE or UNKNOWN shown. -/
structure Displays (c : Console) : Prop where
  faithful : c.mirror.Faithful Follows shownBase asksState
  controls : c.ControlsShown ∨ c.Awaits

variable {P : Platform} {config : Config} {c c' : Console} {turn : Turn}

theorem Started.mirror_down (h : c.Started P config) : c.mirror.down = [] := by
  change c.posted ++ c.down.filterMap posts = []
  rw [h.posted, h.down]
  rfl

/-- The request of `OnConnect`. -/
theorem Started.up (h : c.Started P config) :
    ∃ r, c.up = [r] ∧ asksState r = true ∧ ∃ w, Orders w r := by
  obtain ⟨hist, w, hconnects⟩ := h.connected
  obtain ⟨r, hr, hasks, horders⟩ :=
    writes_connected hconnects.before (hconnects.handles.2 ▸ hconnects.after)
  exact ⟨r, hconnects.up.trans hr, hasks, horders⟩

/-- The beginning of a session. -/
theorem Started.kept (h : c.Started P config) : c.Kept := by
  obtain ⟨hist, w, hconnects⟩ := h.connected
  obtain ⟨r, hup, -, horders⟩ := h.up
  obtain ⟨hist', hreachable⟩ := h.reachable
  have hsound : c.server.control.Sound :=
    (hreachable.invariant (fun s => s.control.Sound) (sound_start config)
      fun _ _ _ hs hst => sound_step hs hst).last
  refine ⟨hconnects.run.sane.last.step hconnects.handles, hconnects.after, ?_, ?_, hsound,
    h.loggedIn⟩
  · rw [hup]
    exact fun m hm => List.mem_singleton.mp hm ▸ horders
  · rw [h.mirror_down]
    rintro state ⟨⟩

theorem Started.displays (h : c.Started P config)
    (hshown : shownBase c.window.systemState = SystemState.safe) : c.Displays := by
  obtain ⟨r, hup, hasks, -⟩ := h.up
  have hmem : r ∈ c.up := hup ▸ List.mem_singleton_self r
  refine ⟨⟨?_, ?_, ?_⟩, Or.inr ⟨hshown, Or.inl ⟨r, hmem, hasks⟩⟩⟩
  · rw [h.mirror_down]
    exact .singleton _
  · rw [Mirror.last, h.mirror_down]
    exact hshown.trans ((shownBase_of_sound h.kept.sound).trans h.safe).symm
  · exact fun hno => absurd (hasks.symm.trans (hno r hmem)) (by decide)

/-- `ProcessMessage` posts what a frame tells. -/
theorem process_processMessage (c : Console) (f : Bytes) :
    ∃ timer, c.process (processMessage f) = { c with
      window := { c.window with timer := timer }
      posted := c.posted ++ (posts f).toList } := by
  have hnone : (posts f).toList = [] → c = { c with
      window := { c.window with timer := c.window.timer }
      posted := c.posted ++ (posts f).toList } := fun h => by rw [h, List.append_nil]
  rw [processMessage, posts] at *
  by_cases himage : ntohl (f.drop 4) = mtImage
  · have hstate : ¬ ntohl (f.drop 4) = mtState := by rw [himage]; decide
    rw [if_pos himage, if_neg hstate] at *
    exact ⟨_, hnone rfl⟩
  rw [if_neg himage]
  by_cases htext : ntohl (f.drop 4) = mtText
  · have hstate : ¬ ntohl (f.drop 4) = mtState := by rw [htext]; decide
    rw [if_pos htext, if_neg hstate] at *
    exact ⟨_, hnone rfl⟩
  rw [if_neg htext]
  by_cases hstate : ntohl (f.drop 4) = mtState
  · rw [if_pos hstate, if_pos hstate]
    exact ⟨c.window.timer, rfl⟩
  rw [if_neg hstate, if_neg hstate] at *
  by_cases hcam : ntohl (f.drop 4) = mtCamState
  · rw [if_pos hcam]
    exact ⟨_, hnone rfl⟩
  rw [if_neg hcam]
  by_cases hheart : ntohl (f.drop 4) = mtHeartbeat
  · rw [if_pos hheart, Option.toList_none, List.append_nil]
    exact ⟨true, rfl⟩
  · rw [if_neg hheart]
    exact ⟨_, hnone rfl⟩

/-- The threads of the server leave the login. -/
theorem isLoggedIn_own {s t : Server} {a : Act} (hown : ∀ m, a ≠ .message m)
    (hst : DemoCannon.Step P s a t) : t.isLoggedIn = s.isLoggedIn := by
  have hfire : ∀ (value : Bool) (d : Control), (d.fire value).isLoggedIn = d.isLoggedIn := by
    intro value d
    rw [Control.fire]
    split <;> rfl
  have hstatement : ∀ d : Control, d.statement.isLoggedIn = d.isLoggedIn := by
    intro d
    change d.effect.isLoggedIn = d.isLoggedIn
    rw [Control.effect]
    split
    all_goals first | rfl | exact hfire _ d
  have henter : ∀ (result : TEngagementState) (d : Control),
      (d.enter result).isLoggedIn = d.isLoggedIn := by
    intro result d
    cases result with
    | trackingStable =>
        change (Control.signal _).isLoggedIn = _
        rw [Control.signal]
        split <;> rfl
    | _ => rfl
  have htrack : ∀ (newState : Bool) (result : TEngagementState) (d : Control),
      (d.track newState result).isLoggedIn = d.isLoggedIn := by
    intro newState result d
    rw [Control.track]
    split
    · exact henter _ _
    · rfl
  cases a with
  | message m => exact absurd rfl (hown m)
  | frame f =>
      obtain ⟨result, -, ht⟩ := step_frame hst
      refine (congrArg Control.isLoggedIn ht).trans ?_
      rw [Control.frame]
      split
      · exact htrack _ _ _
      · exact htrack _ _ _
      · exact htrack _ _ _
      · exact htrack _ _ _
      · rw [Control.nextTarget]
        split <;> rfl
      all_goals rfl
  | statement => exact (congrArg Control.isLoggedIn (step_statement hst)).trans (hstatement _)
  | spuriousWakeup =>
      obtain ⟨e, hshows, ht⟩ := step_control hst
      rw [hshows.1] at ht
      exact (congrArg Control.isLoggedIn ht).trans (hstatement _)

/-- The server tells of a step of its own. -/
theorem Kept.tell (hc : c.Kept) {a : Act} {calls : List (Answered Call Call.Answer)} {t : Server}
    (h : Performs Serves (a.prog P) c.server calls () t) :
    c.server.Tells ((frames calls).filterMap posts) t ∧ t.control.Sound
      ∧ ∀ state ∈ c.posted ++ (c.down ++ frames calls).filterMap posts, Based state := by
  obtain ⟨htells, htruth⟩ := step_tells P hc.sound a calls () t h
  have ht : t.control.Sound := sound_step hc.sound (P := P) (a := a) h.ends
  refine ⟨htells, ht, fun state hstate => ?_⟩
  rw [List.filterMap_append, ← List.append_assoc, List.mem_append] at hstate
  rcases hstate with hstate | hstate
  · exact hc.based state hstate
  · rw [htruth state hstate]
    exact ht.base

theorem posts_image (sendbuff : Bytes) :
    posts (header sendbuff.length mtImage ++ sendbuff) = none :=
  posts_header (by decide) _ _

theorem posts_heartbeat : posts (header 4 mtHeartbeat ++ [100, 0, 0, 0]) = none := by decide

/-- A frame that tells nothing. -/
theorem mirror_frame {f : Bytes} (hf : posts f = none) (c : Console) :
    mirror { c with down := c.down ++ [f] } = c.mirror := by
  rw [mirror, List.filterMap_append, List.filterMap_cons, hf, List.filterMap_nil,
    List.append_nil]
  rfl

theorem Kept.frame (hc : c.Kept) {f : Bytes} (hf : posts f = none) :
    Kept { c with down := c.down ++ [f] } := by
  refine ⟨hc.sane, hc.connected, hc.orders, ?_, hc.sound, hc.loggedIn⟩
  rw [mirror_frame hf]
  exact hc.based

/-- What the window has been told and what it will be told. -/
theorem mirror_posted {state : SystemState} {rest : List SystemState}
    (hposted : c.posted = state :: rest) :
    c.mirror.down = state :: (rest ++ c.down.filterMap posts) := by
  rw [mirror, hposted]
  rfl

/-- `ThreadClient` hands on what the window is told. -/
theorem mirror_process {f : Bytes} {rest : List Bytes} (hdown : c.down = f :: rest) :
    mirror ({ c with down := rest }.process (processMessage f)) = c.mirror := by
  obtain ⟨timer, hprocess⟩ := process_processMessage { c with down := rest } f
  rw [hprocess, mirror, mirror, hdown, List.append_assoc]
  dsimp only
  rw [List.filterMap_cons]
  cases posts f <;> rfl

/-- **The step lemma.** -/
theorem Kept.step (hc : c.Kept) (hst : Step P c turn c') : c'.Kept := by
  cases hst with
  | @operator m hm hallows =>
      refine ⟨hc.sane.step ⟨hallows, rfl⟩, (connected_wndProc hm).trans hc.connected, ?_,
        hc.based, hc.sound, hc.loggedIn⟩
      intro r hr
      rcases List.mem_append.mp hr with hr | hr
      · exact hc.orders r hr
      · exact ⟨c.window, orders_wndProc hc.sane hm hr⟩
  | @showState state rest hposted =>
      have hconnected : (c.window.wndProc (.systemState state)).1.isClientConnected = true :=
        (congrArg (fun a => a.2.2.1) (Window.account_showBase (c.window.marked state))).trans
          hc.connected
      refine ⟨hc.sane.step ⟨rfl, rfl⟩, hconnected, hc.orders, ?_, hc.sound, hc.loggedIn⟩
      exact fun s hs => hc.based s (mirror_posted hposted ▸ List.mem_cons_of_mem _ hs)
  | @threadClient f rest hdown =>
      obtain ⟨timer, hprocess⟩ := process_processMessage { c with down := rest } f
      have hbased := hc.based
      rw [← mirror_process hdown, hprocess] at hbased
      rw [hprocess]
      exact ⟨hc.sane.of_account rfl, hc.connected, hc.orders, hbased, hc.sound, hc.loggedIn⟩
  | @networkInput m rest beyond now calls t hup h =>
      obtain ⟨w, horder⟩ := hc.orders m (hup ▸ List.mem_cons_self ..)
      obtain ⟨-, ht, hbased⟩ := hc.tell (a := .message ⟨m.buffer, beyond, now⟩) h
      have hst : DemoCannon.Step P c.server (.message ⟨m.buffer, beyond, now⟩) t := h.ends
      have hin : t.isLoggedIn = true :=
        ((congrArg Control.isLoggedIn (step_message hst)).trans
          (Control.isLoggedIn_next_event horder.type_ne _ _)).trans hc.loggedIn
      exact ⟨hc.sane, hc.connected, fun r hr => hc.orders r (hup ▸ List.mem_cons_of_mem _ hr),
        hbased, ht, hin⟩
  | @server a calls t hown h =>
      obtain ⟨-, ht, hbased⟩ := hc.tell h
      exact ⟨hc.sane, hc.connected, hc.orders, hbased, ht,
        (isLoggedIn_own hown h.ends).trans hc.loggedIn⟩
  | image sendbuff hin hconnected hcamera =>
      exact hc.frame (posts_image sendbuff)
  | heartBeat hthread => exact hc.frame posts_heartbeat

/-- **The display follows**, step by step. -/
theorem Displays.faithful_step (hc : c.Displays) (hkept : c.Kept) (hst : Step P c turn c') :
    c'.mirror.Faithful Follows shownBase asksState := by
  cases hst with
  | @operator m hm hallows =>
      rw [mirror]
      dsimp only
      rcases systemState_wndProc hm hkept.connected with hsame | ⟨r, hr, hasks, hbase⟩
      · rw [hsame]
        exact hc.faithful.requests (writes (c.window.wndProc m).2)
      · rw [hr]
        refine hc.faithful.step (.change hasks ?_)
        exact congrArg (fun b => if b = unknown then safe else b) hbase
  | @showState state rest hposted =>
      rw [mirror]
      dsimp only
      rw [systemState_told]
      exact hc.faithful.step (.told (mirror_posted hposted))
  | threadClient hdown =>
      rw [mirror_process hdown]
      exact hc.faithful
  | @networkInput m rest beyond now calls t hup h =>
      obtain ⟨htells, -, -⟩ := hkept.tell (a := .message ⟨m.buffer, beyond, now⟩) h
      rw [mirror, List.filterMap_append, ← List.append_assoc]
      refine hc.faithful.step (.serve hup htells fun hasks => ?_)
      have htype : m.type = mtStateChangeReq := of_decide_eq_true hasks
      exact request_told htype hkept.loggedIn h
  | @server a calls t hown h =>
      obtain ⟨htells, -, -⟩ := hkept.tell h
      rw [mirror, List.filterMap_append, ← List.append_assoc]
      exact hc.faithful.step (.act htells)
  | image sendbuff hin hconnected hcamera =>
      rw [mirror_frame (posts_image sendbuff)]
      exact hc.faithful
  | heartBeat hthread =>
      rw [mirror_frame posts_heartbeat]
      exact hc.faithful

/-- A state brings its controls, also where other ones were left before the first. -/
theorem Displays.shows (hc : c.Displays) {state : SystemState} (hstate : Based state)
    (hfollows : Follows (shownBase c.window.systemState) (shownBase state)) :
    c.window.controls.shows state = controlsOf state := by
  rcases hc.controls with hcontrols | hawaits
  · rw [hcontrols]
    exact show_controlsOf hstate hfollows
  · rw [hawaits.1, hstate.shownBase] at hfollows
    exact shows_reset _ hfollows.safe

/-- The controls are kept, and brought by a state that is shown. -/
theorem Displays.controls_step (hc : c.Displays) (hkept : c.Kept) (hst : Step P c turn c')
    (hcontrols : c.ControlsShown ∨ turn = .showState) : c'.ControlsShown := by
  cases hst with
  | @operator m hm hallows =>
      exact controls_wndProc hm hallows (hcontrols.resolve_right nofun)
  | @showState state rest hposted =>
      have hchain := hc.faithful.chain
      rw [mirror_posted hposted, List.map_cons, List.isChain_cons_cons] at hchain
      have hstate : Based state :=
        hkept.based state (mirror_posted hposted ▸ List.mem_cons_self ..)
      rw [ControlsShown]
      dsimp only
      rw [systemState_told]
      exact (controls_wmSystemState c.window state).trans (hc.shows hstate hchain.1)
  | @threadClient f rest hdown =>
      obtain ⟨timer, hprocess⟩ := process_processMessage { c with down := rest } f
      rw [hprocess]
      exact hcontrols.resolve_right nofun
  | networkInput | server | image | heartBeat => exact hcontrols.resolve_right nofun

/-- The first state stays asked for or on its way until it is shown. -/
theorem Awaits.step (hc : c.Awaits) (hkept : c.Kept) (hst : Step P c turn c')
    (hturn : turn ≠ .showState) : c'.Awaits := by
  cases hst with
  | @operator m hm hallows =>
      have hbase : base (c.window.wndProc m).1.systemState = base c.window.systemState := by
        rcases systemState_wndProc hm hkept.connected with hsame | ⟨r, -, -, hbase⟩
        · rw [hsame]
        · exact hbase
      refine ⟨(congrArg (fun b => if b = unknown then safe else b) hbase).trans hc.1, ?_⟩
      exact hc.2.imp_left fun ⟨r, hr, hasks⟩ => ⟨r, List.mem_append_left _ hr, hasks⟩
  | showState hposted => exact absurd rfl hturn
  | @threadClient f rest hdown =>
      obtain ⟨timer, hprocess⟩ := process_processMessage { c with down := rest } f
      have hdown' := hc.2
      rw [← mirror_process hdown, hprocess] at hdown'
      rw [hprocess]
      exact ⟨hc.1, hdown'⟩
  | @networkInput m rest beyond now calls t hup h =>
      refine ⟨hc.1, ?_⟩
      rw [mirror, List.filterMap_append, ← List.append_assoc]
      rcases hc.2 with ⟨r, hr, hasks⟩ | hdown
      · rcases List.mem_cons.mp (hup ▸ hr) with rfl | hr
        · have htype : r.type = mtStateChangeReq := of_decide_eq_true hasks
          have htold := request_told htype hkept.loggedIn h
          exact Or.inr fun hnil => htold (List.append_eq_nil_iff.mp hnil).2
        · exact Or.inl ⟨r, hr, hasks⟩
      · exact Or.inr fun hnil => hdown (List.append_eq_nil_iff.mp hnil).1
  | @server a calls t hown h =>
      refine ⟨hc.1, hc.2.imp_right fun hdown => ?_⟩
      rw [mirror, List.filterMap_append, ← List.append_assoc]
      exact fun hnil => hdown (List.append_eq_nil_iff.mp hnil).1
  | image sendbuff hin hconnected hcamera =>
      exact ⟨hc.1, (mirror_frame (posts_image sendbuff) c).symm ▸ hc.2⟩
  | heartBeat hthread => exact ⟨hc.1, (mirror_frame posts_heartbeat c).symm ▸ hc.2⟩

/-- **The step lemma for the display.** -/
theorem Displays.step (hc : c.Displays) (hkept : c.Kept) (hst : Step P c turn c') :
    c'.Displays := by
  refine ⟨hc.faithful_step hkept hst, ?_⟩
  by_cases hcontrols : c.ControlsShown ∨ turn = .showState
  · exact Or.inl (hc.controls_step hkept hst hcontrols)
  · obtain ⟨hno, hturn⟩ := not_or.mp hcontrols
    exact Or.inr ((hc.controls.resolve_left hno).step hkept hst hturn)

/-- Everything of a session is kept. -/
theorem SessionRun.kept {c₀ : Console} (h₀ : c₀.Started P config)
    {h : List (Console × Turn)} (hr : SessionRun P c₀ h c) : EveryState Kept h c :=
  hr.invariant Kept h₀.kept fun _ _ _ hc hst => hc.step hst

theorem SessionRun.displays {c₀ : Console} (h₀ : c₀.Started P config)
    (hshown : shownBase c₀.window.systemState = safe)
    {h : List (Console × Turn)} (hr : SessionRun P c₀ h c) :
    EveryState (fun c => c.Kept ∧ c.Displays) h c :=
  hr.invariant _ ⟨h₀.kept, h₀.displays hshown⟩
    fun _ _ _ hc hst => ⟨hc.1.step hst, hc.2.step hc.1 hst⟩

/-- No state is on its way to the window. -/
def AllTold (c : Console) : Prop := c.posted = [] ∧ ∀ f ∈ c.down, posts f = none

/-- No request for a state is on its way to the server, and it has sent the state it is
    in. -/
def AllAnswered (c : Console) : Prop :=
  (∀ m ∈ c.up, asksState m = false) ∧ c.server.engagement.owing = false

theorem AllTold.down (h : c.AllTold) : c.mirror.down = [] := by
  change c.posted ++ c.down.filterMap posts = []
  rw [h.1, List.nil_append, List.filterMap_eq_nil_iff]
  exact h.2

/-- With nothing under way a state has been shown. -/
theorem Displays.controlsShown (hc : c.Displays) (htold : c.AllTold) (hanswered : c.AllAnswered) :
    c.ControlsShown := by
  refine hc.controls.resolve_right fun hawaits => ?_
  rcases hawaits.2 with ⟨r, hr, hasks⟩ | hdown
  · exact absurd (hasks.symm.trans (hanswered.1 r hr)) (by decide)
  · exact hdown htold.down

/-! ## Turns computed -/

/-- An environment in which every call succeeds, and every write goes through at once. -/
def serving : (c : Call) → Option c.Answer
  | .sslWrite data =>
      if Complete data [.bytes data.length] then some [.bytes data.length] else none
  | c => smooth c

theorem serves_of_serving (c : Call) (r : c.Answer) (h : serving c = some r) : Serves c r := by
  cases c with
  | sslWrite data =>
      rw [serving] at h
      split at h
      · cases h
        exact ‹Complete data _›
      · cases h
  | pthreadCreate | condSignal =>
      cases h
      rfl
  | lock | unlock | sslRead | auditLine | fopenIni | fopenLog | never => trivial

/-- The server runs a program. -/
def ran (c : Console) (p : Prog Unit) : Option Console :=
  (record serving p c.server).map fun r => { c with
    down := c.down ++ frames r.1
    server := r.2.2 }

theorem performs_of_ran {p : Prog Unit} (h : c.ran p = some c') :
    ∃ calls t, Performs Serves p c.server calls () t
      ∧ c' = { c with down := c.down ++ frames calls, server := t } := by
  obtain ⟨⟨calls, a, t⟩, hrecord, rfl⟩ := Option.map_eq_some_iff.mp h
  exact ⟨calls, t, performs_of_record serves_of_serving hrecord, rfl⟩

/-- A turn in which every call of the server succeeds at once. -/
def next (P : Platform) (c : Console) : Turn → Option Console
  | .operator m =>
      if m.Operates = true ∧ c.window.allows m = true then
        some { c with
          window := (c.window.wndProc m).1
          up := c.up ++ writes (c.window.wndProc m).2 }
      else none
  | .showState =>
      match c.posted with
      | [] => none
      | state :: rest =>
          some { c with window := (c.window.wndProc (.systemState state)).1, posted := rest }
  | .threadClient =>
      match c.down with
      | [] => none
      | f :: rest => some ({ c with down := rest }.process (processMessage f))
  | .networkInput beyond now =>
      match c.up with
      | [] => none
      | m :: rest => { c with up := rest }.ran (dispatch P ⟨m.buffer, beyond, now⟩)
  | .server (.message _) => none
  | .server a => c.ran (a.prog P)
  | .image sendbuff =>
      if c.server.isLoggedIn = true ∧ c.server.isConnected = true
          ∧ c.server.isCameraOn = true then
        some { c with down := c.down ++ [header sendbuff.length mtImage ++ sendbuff] }
      else none
  | .heartBeat =>
      if c.server.heartBeatThread = true then
        some { c with down := c.down ++ [header 4 mtHeartbeat ++ [100, 0, 0, 0]] }
      else none

theorem step_of_next (c : Console) (turn : Turn) (c' : Console) (h : c.next P turn = some c') :
    Step P c turn c' := by
  cases turn with
  | operator m =>
      rw [next] at h
      split at h
      · rename_i hm
        cases h
        exact .operator hm.1 hm.2
      · cases h
  | showState =>
      rw [next] at h
      split at h
      · cases h
      · cases h
        exact .showState ‹_›
  | threadClient =>
      rw [next] at h
      split at h
      · cases h
      · cases h
        exact .threadClient ‹_›
  | networkInput beyond now =>
      rw [next] at h
      split at h
      · cases h
      · obtain ⟨calls, t, hperforms, rfl⟩ := performs_of_ran h
        exact .networkInput ‹_› hperforms
  | server a =>
      cases a with
      | message m => cases h
      | frame | statement | spuriousWakeup =>
          obtain ⟨calls, t, hperforms, rfl⟩ := performs_of_ran h
          exact .server (by rintro m ⟨⟩) hperforms
  | image sendbuff =>
      rw [next] at h
      split at h
      · rename_i hc
        cases h
        exact .image sendbuff hc.1 hc.2.1 hc.2.2
      · cases h
  | heartBeat =>
      rw [next] at h
      split at h
      · cases h
        exact .heartBeat ‹_›
      · cases h

end Console

namespace Session

open Console

def typeId : WindowMessage := .editLoginId (.ofKeys [0x6f, 0x70])

/-- `"cannon-2024"`. -/
def typePw : WindowMessage :=
  .editLoginPw (.ofKeys [0x63, 0x61, 0x6e, 0x6e, 0x6f, 0x6e, 0x2d, 0x32, 0x30, 0x32, 0x34])

/-- The window with a name and a password typed in. -/
def typing : Window := ((Window.created.wndProc typeId).1.wndProc typePw).1

theorem typing_run : ∃ h, WindowRun h typing ∧ NeverConnected h := by
  refine ⟨[(_, typePw), (.created, typeId)],
    .snoc (.snoc .start ⟨by decide +kernel, rfl⟩) ⟨by decide +kernel, rfl⟩, fun x hx => ?_⟩
  rcases List.mem_cons.mp hx with rfl | hx
  · exact ⟨rfl, nofun⟩
  · rw [List.mem_singleton.mp hx]
    exact ⟨rfl, nofun⟩

/-- The beginning of a session. -/
def console : Console where
  window := (typing.wndProc (.connect (.answered LoginState.loginOk.word))).1
  up := (writes (typing.wndProc (.connect (.answered LoginState.loginOk.word))).2).tail
  server := (DemoCannon.next platform (start config) (.message login)).getD (start config)

theorem reachable_next (P : Platform) (c : Config) (a : Act) :
    ∃ h, ServerRun P c h ((DemoCannon.next P (start c) a).getD (start c))
      ∧ ∀ x ∈ h, x.2 = a := by
  cases hn : DemoCannon.next P (start c) a with
  | none => exact ⟨[], .start, by rintro x ⟨⟩⟩
  | some t =>
      refine ⟨[(start c, a)], .snoc .start (DemoCannon.step_of_next hn), fun x hx => ?_⟩
      rw [List.mem_singleton.mp hx]

theorem console_server : console.server
    = (DemoCannon.next platform (start config) (.message login)).getD (start config) := by
  rw [console]

theorem console_connects : ∃ h, console.Connects h typing ∧ NeverConnected h := by
  obtain ⟨h, hr, hnever⟩ := typing_run
  exact ⟨h, ⟨hr, by decide +kernel, ⟨by decide +kernel, rfl⟩, rfl, by decide +kernel⟩, hnever⟩

theorem console_started : console.Started platform config where
  connected := by
    obtain ⟨h, hconnects, -⟩ := console_connects
    exact ⟨h, typing, hconnects⟩
  posted := by rw [console]
  down := by rw [console]
  reachable := by
    obtain ⟨h, hr, -⟩ := reachable_next platform config (.message login)
    rw [console_server]
    exact ⟨h, hr⟩
  safe := by decide +kernel
  loggedIn := by decide +kernel

/-- It is the first connection of the window. -/
theorem console_first : console.window.FirstConnected := by
  obtain ⟨h, hconnects, hnever⟩ := console_connects
  exact hconnects.first hnever

theorem console_shown : shownBase console.window.systemState = safe := by
  rw [console_first.systemState]
  decide

/-- A request is handled, and the answer shown. -/
def roundTrip : List Turn := [.networkInput [] newYearTime, .threadClient, .showState]

/-- The operator types the code, arms by hand, switches the laser on, and fires. -/
def byHand : List Turn :=
  roundTrip
    ++ [.operator (.editPrearmCode
      (.ofKeys [0x31, 0x32, 0x33, 0x34, 0x35, 0x36, 0x37, 0x38])),
      .operator .buttonPrearmSafe] ++ roundTrip
    ++ [.operator .checkboxArmedManual] ++ roundTrip
    ++ [.operator .checkboxLaserEnable] ++ roundTrip
    ++ [.operator (.keyDown 102)] ++ roundTrip

theorem session_byHand (Q : List (Console × Turn) → Console → Bool)
    (h : (follow (Console.next platform) console byHand.reverse).any (fun r => Q r.1 r.2) = true) :
    ∃ h c, SessionRun platform console h c ∧ Q h c = true :=
  exists_history_of_follow (fun _ _ _ => Console.step_of_next _ _ _) byHand.reverse Q h

end Session

namespace Console

variable {P : Platform} {config : Config} {c c' : Console}

/-! ## What the display shows -/

/-- **The controls are those of the state that is shown**, from the first state on, and
    from the beginning where they begin as those of SAFE. -/
theorem controls_shown {c₀ : Console} (h₀ : c₀.Started P config)
    (hshown : shownBase c₀.window.systemState = safe)
    {h : List (Console × Turn)} (hr : SessionRun P c₀ h c)
    (hbegun : c₀.window.controls = .safe ∨ ∃ x ∈ h, x.2 = .showState) :
    c.window.controls = controlsOf c.window.systemState := by
  induction hr with
  | start =>
      rcases hbegun with hsafe | ⟨x, ⟨⟩, -⟩
      exact hsafe.trans (controlsOf_safe hshown).symm
  | @snoc h c c' turn hr hst ih =>
      obtain ⟨hkept, hdisplays⟩ := (SessionRun.displays h₀ hshown hr).last
      refine hdisplays.controls_step hkept hst ?_
      rcases hbegun with hsafe | ⟨x, hx, hturn⟩
      · exact Or.inl (ih (Or.inl hsafe))
      · rcases List.mem_cons.mp hx with rfl | hx
        · exact Or.inr hturn
        · exact Or.inl (ih (Or.inr ⟨x, hx, hturn⟩))

theorem controls_shown_byHand :
    ∃ h c, SessionRun Session.platform Session.console h c
      ∧ c.window.laserEnable = ⟨true, true⟩
      ∧ c.window.controls = controlsOf c.window.systemState := by
  obtain ⟨h, c, hr, hc⟩ := Session.session_byHand
    (fun _ c => c.window.laserEnable = ⟨true, true⟩) (by decide +kernel)
  exact ⟨h, c, hr, of_decide_eq_true hc,
    controls_shown Session.console_started Session.console_shown hr
      (Or.inl Session.console_first.controls)⟩

end Console

end DemoCannon
