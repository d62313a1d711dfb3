import DemoCannon.Console

/-! # What a click comes to

    A control is enabled only where the server grants what it asks for.  With a current
    display a click on one of the five controls leads to the state that it means
    (`click_answered`), a firing order without targets and a wrong pre-arm code apart; and
    the server stays SAFE, with both outputs off, until the right code has been typed and
    sent (`code_first`). -/

namespace DemoCannon

open Interaction Interaction.Program SystemState

/-! ## Clicks -/

/-- The controls that ask for a state. -/
def WindowMessage.Clicks : WindowMessage → Bool
  | .checkboxArmedManual | .checkboxLaserEnable | .checkboxAutoEngage | .checkboxCalibrate
  | .buttonPrearmSafe => true
  | _ => false

/-- The state that a click means. -/
def Window.wants (w : Window) : WindowMessage → SystemState
  | .checkboxArmedManual => if w.armedManual.checked then prearmed else SystemState.armedManual
  | .checkboxLaserEnable =>
      if w.laserEnable.checked then w.systemState &&& clearLaserMask
      else w.systemState ||| SystemState.laserOn
  | .checkboxAutoEngage => if w.autoEngage.checked then prearmed else engageAuto
  | .checkboxCalibrate =>
      if w.calibrate.checked then w.systemState &&& clearCalibMask
      else w.systemState ||| calibOn
  | .buttonPrearmSafe => if base w.systemState = safe then prearmed else safe
  | _ => w.systemState

/-- `"12345678"`. -/
def preArmText : Bytes := [0x31, 0x32, 0x33, 0x34, 0x35, 0x36, 0x37, 0x38]

/-- What comes with the click is in order. -/
def Window.Ready (w : Window) : WindowMessage → Prop
  | .checkboxAutoEngage =>
      w.autoEngage.checked = true
        ∨ (w.engagementOrder.text ≠ [] ∧ ¬ sanityEngageOrder w.engagementOrder.text < 0)
  | .buttonPrearmSafe =>
      base w.systemState = safe → w.systemState = safe ∧ w.preArmCode.text = preArmText
  | _ => True

/-- The server handles messages in a row. -/
inductive Server.Handled (P : Platform) : Server → List TMessage → Server → Prop where
  | nil {s : Server} : Handled P s [] s
  | cons {s t u : Server} {m : TMessage} {ms : List TMessage} (beyond : Bytes) (now : Int)
      (hst : Step P s (.message ⟨m.buffer, beyond, now⟩) t) (hrest : Handled P t ms u) :
      Handled P s (m :: ms) u

section Handled

variable {P : Platform} {s t : Server} {w : Window}

/-- One message. -/
theorem handled_one {m : TMessage} (h : s.Handled P [m] t) :
    ∃ beyond now, Step P s (.message ⟨m.buffer, beyond, now⟩) t := by
  cases h with
  | cons beyond now hst hrest =>
      cases hrest
      exact ⟨beyond, now, hst⟩

/-- A request for a state is handled as one. -/
theorem step_request {m : TMessage} {state : SystemState} {beyond : Bytes} {now : Int}
    (htype : m.type = mtStateChangeReq) (hpayload : m.payload = htonl state)
    (hin : s.isLoggedIn = true) (hst : Step P s (.message ⟨m.buffer, beyond, now⟩) t) :
    t.control = s.control.request state := by
  have hfits : m.Fits := by rw [TMessage.Fits, hpayload, htonl_length]; decide
  obtain ⟨rest, hmem⟩ := mem_zero hfits beyond now
  have ht := step_message hst
  rw [Received.event_request htype, hmem, hpayload, ntohl_htonl] at ht
  exact ht.trans (if_pos hin)

theorem handled_request (hconnected : w.isClientConnected = true) (hin : s.isLoggedIn = true)
    {state : SystemState} (h : s.Handled P (writes (w.request state)) t) :
    t.control = s.control.request state := by
  rw [Window.request, writes_sends, sendStateChangeRequestToServer, sendWordToServer,
    if_pos hconnected] at h
  obtain ⟨beyond, now, hst⟩ := handled_one h
  exact step_request rfl rfl hin hst

/-- The state word after a request. -/
theorem systemState_request (c : Control) (state : SystemState) :
    (c.request state).systemState = (c.change state).systemState := rfl

namespace Control

variable {c : Control} {state : SystemState}

theorem change_safe (h : state.base = SystemState.safe) : (c.change state).systemState = safe := by
  rw [change, if_pos h]
  rfl

theorem change_prearmed (h : c.base = SystemState.engageAuto ∨ c.base = SystemState.armedManual) :
    (c.change SystemState.prearmed).systemState = SystemState.prearmed := by
  rw [change, if_neg (by decide), if_pos base_prearmed]
  rcases h with h | h
  · rw [if_pos h]
    rfl
  · rw [if_neg (by rw [h]; decide), if_pos h]
    rfl

theorem change_engageAuto (h : c.base = SystemState.prearmed) :
    (c.change SystemState.engageAuto).systemState
      = if c.haveFiringOrder then SystemState.engageAuto else c.systemState := by
  rw [change, if_neg (by decide), if_neg (by decide), if_pos base_engageAuto]
  by_cases horder : c.haveFiringOrder = true
  · rw [if_pos ⟨h, horder⟩, if_pos horder]
    rfl
  · rw [if_neg fun hc => horder hc.2, if_neg horder]

theorem change_armedManual (hstate : state.base = SystemState.armedManual) :
    (c.base = SystemState.prearmed →
        (c.change state).systemState = SystemState.armedManual)
      ∧ (c.base = SystemState.armedManual → (c.change state).systemState = state) := by
  rw [change, if_neg (by rw [hstate]; decide), if_neg (by rw [hstate]; decide),
    if_neg (by rw [hstate]; decide), if_pos hstate]
  constructor
  · intro h
    rw [if_pos h]
    rfl
  · intro h
    rw [if_neg (by rw [h]; decide), if_pos h]

end Control

/-- The controls, by the states that they are for. -/
theorem controlsOf_cases (state : SystemState) :
    (base state = prearmed ∧ controlsOf state = .prearmed)
      ∨ (base state = engageAuto ∧ controlsOf state = {
        autoEngage := { checked := true, enabled := true }
        laserEnable := { checked := has state laserOn } })
      ∨ (base state = SystemState.armedManual ∧ controlsOf state = {
        armedManual := { checked := true, enabled := true }
        laserEnable := { checked := has state laserOn, enabled := true }
        calibrateEnabled := true })
      ∨ controlsOf state = .safe := by
  by_cases hprearmed : base state = prearmed
  · exact Or.inl ⟨hprearmed, if_pos hprearmed⟩
  by_cases hauto : base state = engageAuto
  · exact Or.inr (Or.inl ⟨hauto, by rw [controlsOf, if_neg hprearmed, if_pos hauto]⟩)
  by_cases hmanual : base state = SystemState.armedManual
  · exact Or.inr (Or.inr (Or.inl ⟨hmanual, controlsOf_armedManual hmanual⟩))
  · exact Or.inr (Or.inr (Or.inr (by
      rw [controlsOf, if_neg hprearmed, if_neg hauto, if_neg hmanual])))

/-- A click, at a server in the state that is shown. -/
structure Current (w : Window) (s : Server) : Prop where
  connected : w.isClientConnected = true
  loggedIn : s.isLoggedIn = true
  controls : w.controls = controlsOf w.systemState
  shown : w.systemState = s.systemState

theorem click_armedManual (hc : Current w s) (hallows : w.armedManual.enabled = true)
    (h : s.Handled P (writes w.checkboxArmedManual) t) :
    t.systemState = w.wants .checkboxArmedManual := by
  have hbox := congrArg Controls.armedManual hc.controls
  change w.armedManual = _ at hbox
  have hword : ∀ state, s.Handled P (writes (w.request state)) t →
      t.systemState = (s.control.change state).systemState := fun state h =>
    congrArg Control.systemState (handled_request hc.connected hc.loggedIn h)
  rw [Window.checkboxArmedManual] at h
  rw [Window.wants]
  rcases controlsOf_cases w.systemState with ⟨hbase, hcontrols⟩ | ⟨hbase, hcontrols⟩
    | ⟨hbase, hcontrols⟩ | hcontrols <;> rw [hcontrols] at hbox <;> rw [hbox] at hallows h ⊢
  · have hbase' : s.control.base = prearmed := (congrArg base hc.shown).symm.trans hbase
    exact (hword _ h).trans ((Control.change_armedManual base_armedManual).1 hbase')
  · cases hallows
  · have hbase' : s.control.base = SystemState.armedManual :=
      (congrArg base hc.shown).symm.trans hbase
    exact (hword _ h).trans (Control.change_prearmed (Or.inr hbase'))
  · cases hallows

/-- The marks of laser and calibration ask for ARMED_MANUAL in ARMED_MANUAL. -/
theorem click_flag (hc : Current w s) (hbase : base w.systemState = SystemState.armedManual)
    {state : SystemState} (hstate : base state = base w.systemState)
    (h : s.Handled P (writes (w.request state)) t) : t.systemState = state := by
  have hbase' : s.control.base = SystemState.armedManual :=
    (congrArg base hc.shown).symm.trans hbase
  have ht := congrArg Control.systemState (handled_request hc.connected hc.loggedIn h)
  exact ht.trans ((Control.change_armedManual (hstate.trans hbase)).2 hbase')

theorem click_laserEnable (hc : Current w s) (hallows : w.laserEnable.enabled = true)
    (h : s.Handled P (writes w.checkboxLaserEnable.2) t) :
    t.systemState = w.wants .checkboxLaserEnable := by
  have hbox := congrArg Controls.laserEnable hc.controls
  change w.laserEnable = _ at hbox
  have hbase := armedManual_of_laserEnabled (hbox ▸ hallows)
  refine click_flag hc hbase ?_ h
  rw [Window.wants]
  split
  · exact base_clear_flag _ .laserOn
  · exact base_or_flag _ .laserOn

theorem click_calibrate (hc : Current w s) (hallows : w.calibrate.enabled = true)
    (h : s.Handled P (writes w.checkboxCalibrate.2) t) :
    t.systemState = w.wants .checkboxCalibrate := by
  have hbox := congrArg Controls.calibrateEnabled hc.controls
  change w.calibrate.enabled = _ at hbox
  have hbase : base w.systemState = SystemState.armedManual := by
    rw [hallows] at hbox
    rcases controlsOf_cases w.systemState with ⟨-, hcontrols⟩ | ⟨-, hcontrols⟩
      | ⟨hbase, -⟩ | hcontrols
    · rw [hcontrols] at hbox; cases hbox
    · rw [hcontrols] at hbox; cases hbox
    · exact hbase
    · rw [hcontrols] at hbox; cases hbox
  rw [Window.checkboxCalibrate] at h
  rw [Window.wants]
  split at h
  · rw [if_pos ‹_›]
    exact click_flag hc hbase (base_clear_flag _ .calibOn) h
  · rw [if_neg ‹_›]
    exact click_flag hc hbase (base_or_flag _ .calibOn) h

/-- A text in a message, as an order. -/
theorem step_order {m : TMessage} {text : Bytes} {beyond : Bytes} {now : Int}
    (htype : m.type = mtTargetSequence) (hpayload : m.payload = text ++ [0])
    (hlen : text.length ≤ maxEngageOrder) (hdigits : text.all isDigit = true)
    (hin : s.isLoggedIn = true) (hst : Step P s (.message ⟨m.buffer, beyond, now⟩) t) :
    t.systemState = s.systemState ∧ t.isLoggedIn = true
      ∧ (t.autoEngage.haveFiringOrder = true ↔ text ≠ []) := by
  have hfits : m.Fits := by
    rw [TMessage.Fits, hpayload, List.length_append]
    exact Nat.le_trans (Nat.add_le_add_right hlen 1) (by decide)
  obtain ⟨rest, hmem⟩ := mem_zero hfits beyond now
  have ht := step_message hst
  rw [Received.event_order htype, hmem, hpayload] at ht
  replace ht : t.control = s.control.order (text ++ [0] ++ rest) := ht.trans (if_pos hin)
  have hstrlen := strlen_text (nul_not_mem_of_digits hdigits) rest
  have horder : Control.IsOrder (text ++ [0] ++ rest) ↔ text ≠ [] := by
    rw [Control.IsOrder, hstrlen, List.append_assoc, List.take_left]
    refine ⟨fun h hnil => absurd (hnil ▸ h.1) (by decide), fun hne => ⟨?_, hlen, hdigits⟩⟩
    exact List.length_pos_of_ne_nil hne
  have heq := Control.order_eq (text ++ [0] ++ rest) s.control
  refine ⟨(congrArg Control.systemState ht).trans (congrArg Control.systemState heq),
    ((congrArg Control.isLoggedIn ht).trans (congrArg Control.isLoggedIn heq)).trans hin, ?_⟩
  rw [show t.autoEngage.haveFiringOrder = t.control.haveFiringOrder from rfl, ht, Control.order]
  by_cases hne : text ≠ []
  · rw [if_pos (horder.mpr hne)]
    exact iff_of_true rfl hne
  · rw [if_neg (mt horder.mp hne)]
    exact iff_of_false Bool.false_ne_true hne

theorem click_autoEngage (hc : Current w s) (hallows : w.autoEngage.enabled = true)
    (h : s.Handled P (writes (w.wndProc .checkboxAutoEngage).2) t) :
    (w.Ready .checkboxAutoEngage → t.systemState = w.wants .checkboxAutoEngage)
      ∧ (¬ w.Ready .checkboxAutoEngage → t.systemState = w.systemState) := by
  have hbox := congrArg Controls.autoEngage hc.controls
  change w.autoEngage = _ at hbox
  rw [writes_autoEngage] at h
  rw [Window.Ready, Window.wants]
  rcases controlsOf_cases w.systemState with ⟨hbase, hcontrols⟩ | ⟨hbase, hcontrols⟩
    | ⟨hbase, hcontrols⟩ | hcontrols <;> rw [hcontrols] at hbox <;> rw [hbox] at hallows h ⊢
  · have hbase' : s.control.base = prearmed := (congrArg base hc.shown).symm.trans hbase
    have hunchecked : ¬ Controls.prearmed.autoEngage.checked = true := Bool.false_ne_true
    rw [if_neg hunchecked]
    by_cases hsane : sanityEngageOrder w.engagementOrder.text < 0
    · rw [if_neg hunchecked, if_pos hsane] at h
      cases h
      refine ⟨fun hready => ?_, fun _ => hc.shown.symm⟩
      exact absurd hsane (hready.resolve_left hunchecked).2
    · obtain ⟨hlen, hdigits⟩ :=
        not_not.mp (mt (sanityChars_neg_iff (by decide) (by decide)).mpr hsane)
      rw [if_neg hunchecked, if_neg hsane, sendTargetOrderToServer,
        dif_pos ⟨hc.connected, Nat.lt_succ_of_le hlen⟩] at h
      cases h with
      | @cons _ u _ _ _ beyond now hst hrest =>
          obtain ⟨hstate, hin, horder⟩ := step_order rfl rfl hlen hdigits hc.loggedIn hst
          have hu : u.control.base = prearmed := (congrArg base hstate).trans hbase'
          have ht := congrArg Control.systemState (handled_request hc.connected hin hrest)
          rw [systemState_request, Control.change_engageAuto hu] at ht
          refine ⟨fun hready => ?_, fun hready => ?_⟩
          · have hne := (hready.resolve_left hunchecked).1
            exact ht.trans (if_pos (horder.mpr hne))
          · have hnil : ¬ u.control.haveFiringOrder = true := fun hhave =>
              hready (Or.inr ⟨horder.mp hhave, hsane⟩)
            exact (ht.trans (if_neg hnil)).trans (hstate.trans hc.shown.symm)
  · have hbase' : s.control.base = engageAuto := (congrArg base hc.shown).symm.trans hbase
    have ht := congrArg Control.systemState (handled_request hc.connected hc.loggedIn h)
    refine ⟨fun _ => ht.trans (Control.change_prearmed (Or.inl hbase')), fun hready => ?_⟩
    exact absurd (Or.inl rfl) hready
  · cases hallows
  · cases hallows

/-- The right code, whatever lies behind it. -/
theorem take_code {code rest : Bytes} (hlen : code.length ≤ 8) (hcode : 0 ∉ code) :
    (code ++ [0] ++ rest).take 9 = Control.prearmCode ↔ code = preArmText := by
  constructor
  · intro htake
    have hnine : (code ++ [0]).length ≤ 9 := by
      rw [List.length_append]
      exact Nat.add_le_add_right hlen 1
    rw [List.take_append, List.take_of_length_le hnine] at htake
    have htext := congrArg (List.takeWhile (· ≠ 0)) htake
    rw [takeWhile_text hcode] at htext
    exact htext
  · rintro rfl
    rfl

/-- The button in SAFE: a code, as the server takes it. -/
theorem step_preArm {m : TMessage} {code : Bytes} {beyond : Bytes} {now : Int}
    (htype : m.type = mtPrearm) (hpayload : m.payload = code ++ [0]) (hcode : 0 ∉ code)
    (hlen : code.length ≤ 8) (hin : s.isLoggedIn = true)
    (hst : Step P s (.message ⟨m.buffer, beyond, now⟩) t) :
    t.control = if s.systemState = safe ∧ code = preArmText then
        { s.control with systemState := prearmed }
      else s.control := by
  have hfits : m.Fits := by
    rw [TMessage.Fits, hpayload, List.length_append]
    exact Nat.le_trans (Nat.add_le_add_right hlen 1) (by decide)
  obtain ⟨rest, hmem⟩ := mem_zero hfits beyond now
  have ht := step_message hst
  rw [Received.event_prearm htype, hmem, hpayload] at ht
  exact (ht.trans (if_pos hin)).trans
    (if_congr (and_congr_right fun _ => take_code hlen hcode) rfl rfl)

theorem click_prearmSafe (hc : Current w s) (hcode : w.preArmCode.text.length ≤ 8)
    (h : s.Handled P (writes w.buttonPrearmSafe.2) t) :
    (w.Ready .buttonPrearmSafe → t.systemState = w.wants .buttonPrearmSafe)
      ∧ (¬ w.Ready .buttonPrearmSafe → t.systemState = w.systemState) := by
  rw [Window.buttonPrearmSafe] at h
  rw [Window.Ready, Window.wants]
  by_cases hsafe : base w.systemState = safe
  · have hroom : w.preArmCode.text.length < sizeofCode := Nat.lt_of_le_of_lt hcode (by decide)
    rw [if_pos hsafe]
    rw [if_pos hsafe, writes_sends, sendPreArmCodeToServer, dif_pos ⟨hc.connected, hroom⟩] at h
    obtain ⟨beyond, now, hst⟩ := handled_one h
    have ht := step_preArm rfl rfl w.preArmCode.nul_not_mem hcode hc.loggedIn hst
    rw [← hc.shown] at ht
    refine ⟨fun hready => ?_, fun hready => ?_⟩
    · rw [if_pos (hready hsafe)] at ht
      exact congrArg Control.systemState ht
    · rw [if_neg fun hyes => hready fun _ => hyes] at ht
      exact (congrArg Control.systemState ht).trans hc.shown.symm
  · rw [if_neg hsafe]
    rw [if_neg hsafe] at h
    have ht := congrArg Control.systemState (handled_request hc.connected hc.loggedIn h)
    refine ⟨fun _ => ht.trans (Control.change_safe base_safe), fun hready => ?_⟩
    exact absurd (fun hyes => absurd hyes hsafe) hready

/-- A click on a control that is enabled. -/
theorem click_current (hc : Current w s) (hcode : w.preArmCode.text.length ≤ 8)
    {m : WindowMessage} (hm : m.Clicks = true) (hallows : w.allows m = true)
    (h : s.Handled P (writes (w.wndProc m).2) t) :
    (w.Ready m → t.systemState = w.wants m) ∧ (¬ w.Ready m → t.systemState = w.systemState) := by
  cases m with
  | checkboxArmedManual =>
      exact ⟨fun _ => click_armedManual hc hallows h, fun hno => absurd trivial hno⟩
  | checkboxLaserEnable =>
      exact ⟨fun _ => click_laserEnable hc hallows h, fun hno => absurd trivial hno⟩
  | checkboxCalibrate =>
      exact ⟨fun _ => click_calibrate hc hallows h, fun hno => absurd trivial hno⟩
  | checkboxAutoEngage => exact click_autoEngage hc hallows h
  | buttonPrearmSafe => exact click_prearmSafe hc hcode h
  | keyDown | keyUp | editLoginId | editLoginPw | editNewPw | editRemote | editEngageOrder
    | editPrearmCode | checkboxCam | connect | disconnect | timer | clientLost
    | systemState => cases hm

end Handled

namespace Console

variable {P : Platform} {config : Config} {c : Console}

/-- **A click on an enabled control is granted.**  In a session, with nothing under way,
    the server that handles what a click sends comes to the state that the click means; or
    stays in its own, for an order that is empty or not in order, and for a code that is
    wrong or sent with marks in SAFE. -/
theorem click_answered {c₀ : Console} (h₀ : c₀.Started P config)
    (hshown : shownBase c₀.window.systemState = safe)
    {h : List (Console × Turn)} (hr : SessionRun P c₀ h c) :
    EveryState (fun c => c.AllTold → c.AllAnswered →
      ∀ m : WindowMessage, m.Clicks = true → c.window.allows m = true →
        ∀ t, c.server.Handled P (writes (c.window.wndProc m).2) t →
          (c.window.Ready m → t.systemState = c.window.wants m)
            ∧ (¬ c.window.Ready m → t.systemState = c.window.systemState)) h c := by
  refine (SessionRun.displays h₀ hshown hr).mono ?_
  rintro c ⟨hkept, hdisplays⟩ htold hanswered m hm hallows t hh
  have hcurrent : c.window.systemState = c.server.systemState :=
    hdisplays.faithful.copy_eq hanswered.1 hanswered.2 htold.down
  have hcontrols := hdisplays.controlsShown htold hanswered
  exact click_current ⟨hkept.connected, hkept.loggedIn, hcontrols, hcurrent⟩
    hkept.sane.preArmCode hm hallows hh

/-- The operator arms by hand and switches the laser on, each at a server that has answered. -/
theorem click_answered_byHand :
    ∃ h c, SessionRun Session.platform Session.console h c
      ∧ (h.any fun x => decide (x.1.posted = []) && x.1.up.isEmpty && x.1.down.isEmpty
        && x.1.window.armedManual.enabled) = true
      ∧ EveryState (fun c => c.AllTold → c.AllAnswered →
        ∀ m : WindowMessage, m.Clicks = true → c.window.allows m = true →
          ∀ t, c.server.Handled Session.platform (writes (c.window.wndProc m).2) t →
            (c.window.Ready m → t.systemState = c.window.wants m)
              ∧ (¬ c.window.Ready m → t.systemState = c.window.systemState)) h c := by
  obtain ⟨h, c, hr, hc⟩ := Session.session_byHand
    (fun h _ => h.any fun x => decide (x.1.posted = []) && x.1.up.isEmpty && x.1.down.isEmpty
      && x.1.window.armedManual.enabled) (by decide +kernel)
  exact ⟨h, c, hr, hc, click_answered Session.console_started Session.console_shown hr⟩

end Console

/-! ## The code comes first -/

/-- In SAFE, with nothing under way and the outputs off. -/
structure Control.Resting (c : Control) : Prop where
  systemState : c.systemState = safe
  state : c.state = .notActive
  engagement : c.engagement = .wait ∨ c.engagement = .waiting
  gpio17 : c.gpio17 = false
  gpio18 : c.gpio18 = false

namespace Control

variable {c : Control}

theorem Resting.base (h : c.Resting) : c.base = SystemState.safe := by
  rw [Control.base, h.systemState]
  exact base_safe

theorem Resting.request (h : c.Resting) (state : SystemState) : (c.request state).Resting := by
  have hbase := h.base
  have hlaser : has c.systemState laserOn = false := by
    rw [h.systemState]
    exact (has_base_state .laserOn).1
  have hkept : (c.showLaser).Resting :=
    ⟨h.systemState, h.state, h.engagement, h.gpio17, hlaser⟩
  rw [Control.request, change]
  split
  · have hoff := congrArg Control.gpio18 (showLaser_standDown (Or.inl rfl) c)
    exact ⟨rfl, rfl, h.engagement, rfl, hoff⟩
  split
  · rw [if_neg (by rw [hbase]; decide), if_neg (by rw [hbase]; decide)]
    exact hkept
  split
  · rw [if_neg (by rw [hbase]; rintro ⟨h, -⟩; exact absurd h (by decide))]
    exact hkept
  split
  · rw [if_neg (by rw [hbase]; decide), if_neg (by rw [hbase]; decide)]
    exact hkept
  · exact hkept

theorem Resting.order (h : c.Resting) (firingOrder : Bytes) : (c.order firingOrder).Resting := by
  rw [order_eq]
  exact ⟨h.systemState, rfl, h.engagement, h.gpio17, h.gpio18⟩

theorem Resting.command (h : c.Resting) (cmd : UInt8) : (c.command cmd).Resting := by
  have hne : c.base ≠ SystemState.armedManual := by rw [h.base]; decide
  rw [Control.command, if_neg fun hc => hne hc.1, if_neg fun hc => hne hc.1]
  exact h

theorem Resting.prearm (h : c.Resting) {code : Bytes} (hcode : code.take 9 ≠ prearmCode) :
    (c.prearm code).Resting := by
  rw [Control.prearm, if_neg fun hc => hcode hc.2]
  exact h

end Control

/-- The code is in the message. -/
def CodeIn (m : Received) : Prop :=
  m.buffer.type = mtPrearm ∧ (m.mem 0).take 9 = Control.prearmCode

/-- **A server at rest stays at rest** until the code arrives. -/
theorem resting_step {P : Platform} {s t : Server} {a : Act} (hs : s.control.Resting)
    (hst : Step P s a t) (hspurious : a ≠ .spuriousWakeup)
    (hcode : ∀ m, a = .message m → ¬ CodeIn m) : t.control.Resting := by
  cases a with
  | message m =>
      rw [step_message hst]
      have hin : ∀ {d : Control}, d.Resting →
          (if s.control.isLoggedIn then d else s.control).Resting := by
        intro d hd
        split
        · exact hd
        · exact hs
      rcases m.event_cases (decide (m.LogsIn P s.user)) with
        ⟨-, hm⟩ | ⟨-, hm⟩ | ⟨-, hm⟩ | ⟨ht, hm⟩ | ⟨-, hm⟩ | hm <;> rw [hm]
      · exact ⟨hs.systemState, hs.state, hs.engagement, hs.gpio17, hs.gpio18⟩
      · exact hin (hs.command _)
      · exact hin (hs.order _)
      · exact hin (hs.prearm fun htake => hcode m rfl ⟨ht, htake⟩)
      · exact hin (hs.request _)
      · exact hs
  | frame f =>
      obtain ⟨result, -, ht⟩ := step_frame hst
      rw [ht, Control.frame, hs.state]
      exact hs
  | statement =>
      rw [step_statement hst, Control.statement, Control.effect]
      rcases hs.engagement with h | h <;> rw [h]
      · exact ⟨hs.systemState, hs.state, Or.inr rfl, hs.gpio17, hs.gpio18⟩
      · exact absurd h (not_waiting_of_step hst)
  | spuriousWakeup => exact absurd rfl hspurious

theorem resting_start (c : Config) : (start c).control.Resting :=
  ⟨rfl, rfl, Or.inl rfl, rfl, rfl⟩

section Prearm

variable {w : Window} {m : TMessage}

theorem type_request {state : SystemState} (h : m ∈ writes (w.request state)) :
    m.type = mtStateChangeReq := by
  rw [Window.request, writes_sends, Option.mem_toList] at h
  exact (asks_word h).1

theorem type_code {connected : Bool} {code : UInt8} (h : m ∈ sendCodeToServer connected code) :
    m.type = mtCommands := by
  rw [sendCodeToServer] at h
  split at h
  · cases h
    rfl
  · cases h

theorem type_calib {connected : Bool} {code : UInt8} (h : m ∈ sendCalibToServer connected code) :
    m.type = mtCalibCommands := by
  rw [sendCalibToServer] at h
  split at h
  · cases h
    rfl
  · cases h

theorem type_targetOrder {size : Nat} {connected : Bool} {order : CharArray size}
    (h : m ∈ sendTargetOrderToServer connected order) : m.type = mtTargetSequence := by
  rw [sendTargetOrderToServer] at h
  split at h
  · cases h
    rfl
  · cases h

/-- A code is sent by the button, with SAFE shown. -/
theorem prearm_written {msg : WindowMessage} (hmsg : msg.Operates = true)
    (h : m ∈ writes (w.wndProc msg).2) (htype : m.type = mtPrearm) :
    msg = .buttonPrearmSafe ∧ base w.systemState = safe
      ∧ m.payload = w.preArmCode.text ++ [0] := by
  have hother : ∀ {type : BitVec 32}, m.type = type → type ≠ mtPrearm → False :=
    fun h hne => hne (h.symm.trans htype)
  cases msg with
  | keyDown wParam =>
      change m ∈ writes (w.keyDown wParam) at h
      rw [Window.keyDown] at h
      split at h
      · rw [writes_sends, Option.mem_toList] at h
        obtain ⟨code, -, hsend⟩ := Option.bind_eq_some_iff.mp h
        exact (hother (type_calib hsend) (by decide)).elim
      · rw [writes_sends, Option.mem_toList] at h
        obtain ⟨code, -, hsend⟩ := Option.bind_eq_some_iff.mp h
        exact (hother (type_code hsend) (by decide)).elim
  | keyUp wParam =>
      change m ∈ writes (w.keyUp wParam) at h
      rw [Window.keyUp, writes_sends, Option.mem_toList] at h
      obtain ⟨code, -, hsend⟩ := Option.bind_eq_some_iff.mp h
      exact (hother (type_code hsend) (by decide)).elim
  | editLoginId | editLoginPw | editNewPw | editRemote => cases h
  | editEngageOrder text =>
      change m ∈ writes (if _ then _ else _) at h
      split at h <;> cases h
  | editPrearmCode text =>
      change m ∈ writes (if _ then _ else _) at h
      split at h <;> cases h
  | checkboxCam =>
      change m ∈ writes w.checkboxCam.2 at h
      rw [Window.checkboxCam] at h
      dsimp only at h
      rw [writes_append, writes_updateCameraCheckbox, List.append_nil, writes_sends,
        Option.mem_toList] at h
      exact (hother (asks_word h).1 (by decide)).elim
  | checkboxArmedManual =>
      change m ∈ writes w.checkboxArmedManual at h
      rw [Window.checkboxArmedManual] at h
      split at h <;> exact (hother (type_request h) (by decide)).elim
  | checkboxLaserEnable => exact (hother (type_request h) (by decide)).elim
  | checkboxAutoEngage =>
      rw [writes_autoEngage] at h
      split at h
      · exact (hother (type_request h) (by decide)).elim
      split at h
      · cases h
      · rcases List.mem_append.mp h with h | h
        · exact (hother (type_targetOrder (Option.mem_toList.mp h)) (by decide)).elim
        · exact (hother (type_request h) (by decide)).elim
  | checkboxCalibrate =>
      change m ∈ writes w.checkboxCalibrate.2 at h
      rw [Window.checkboxCalibrate] at h
      split at h <;> exact (hother (type_request h) (by decide)).elim
  | buttonPrearmSafe =>
      change m ∈ writes w.buttonPrearmSafe.2 at h
      rw [Window.buttonPrearmSafe] at h
      split at h
      · rw [writes_sends, Option.mem_toList, sendPreArmCodeToServer] at h
        split at h
        · cases h
          exact ⟨rfl, ‹_›, rfl⟩
        · cases h
      · exact (hother (type_request h) (by decide)).elim
  | connect | disconnect | timer | clientLost | systemState => cases hmsg

end Prearm

namespace Console

variable {P : Platform} {config : Config} {c : Console}

/-- The operator has clicked the button with the right code typed in and SAFE shown. -/
def CodeEntered (h : List (Console × Turn)) : Prop :=
  ∃ x ∈ h, x.2 = .operator .buttonPrearmSafe ∧ x.1.window.preArmCode.text = preArmText
    ∧ base x.1.window.systemState = safe

/-- `pthread_cond_wait` returns by itself. -/
def Turn.spurious : Turn → Bool
  | .server .spuriousWakeup => true
  | _ => false

/-- A server that only waits and logs in. -/
def Waits : Act → Prop
  | .message m => m.buffer.type = mtLoginReq
  | .frame _ | .statement => True
  | .spuriousWakeup => False

theorem resting_of_waits {h : List (Server × Act)} {s : Server} (hr : ServerRun P config h s)
    (hwaits : ∀ x ∈ h, Waits x.2) : s.control.Resting := by
  induction hr with
  | start => exact resting_start config
  | @snoc h s t a hr hst ih =>
      have ha := hwaits (s, a) (List.mem_cons_self ..)
      have hs := ih fun x hx => hwaits x (List.mem_cons_of_mem _ hx)
      refine resting_step hs hst ?_ ?_
      · rintro rfl
        exact ha
      · rintro m rfl ⟨htype, -⟩
        exact absurd ((show m.buffer.type = mtLoginReq from ha).symm.trans htype) (by decide)

/-- No code is on its way. -/
def Codeless (c : Console) : Prop :=
  c.server.control.Resting ∧ ∀ m ∈ c.up, m.type = mtPrearm → m.payload ≠ preArmText ++ [0]

/-- A turn without the code keeps the server at rest. -/
theorem Codeless.step {c c' : Console} {turn : Turn} (hc : c.Codeless) (hkept : c.Kept)
    (hst : Step P c turn c') (hspurious : turn.spurious = false)
    (hno : ¬ CodeEntered [(c, turn)]) : c'.Codeless := by
  cases hst with
  | @operator m hm hallows =>
      refine ⟨hc.1, fun r hr htype => ?_⟩
      rcases List.mem_append.mp hr with hr | hr
      · exact hc.2 r hr htype
      · obtain ⟨rfl, hsafe, hpayload⟩ := prearm_written hm hr htype
        intro hcode
        rw [hpayload] at hcode
        exact hno ⟨_, List.mem_singleton_self _, rfl, List.append_cancel_right hcode, hsafe⟩
  | showState hposted => exact hc
  | @threadClient f rest hdown =>
      obtain ⟨timer, hprocess⟩ := process_processMessage { c with down := rest } f
      rw [hprocess]
      exact hc
  | @networkInput m rest beyond now calls t hup h =>
      have hmem : m ∈ c.up := hup ▸ List.mem_cons_self ..
      refine ⟨?_, fun r hr => hc.2 r (hup ▸ List.mem_cons_of_mem _ hr)⟩
      have hst : DemoCannon.Step P c.server (.message ⟨m.buffer, beyond, now⟩) t := h.ends
      refine resting_step hc.1 hst (by rintro ⟨⟩) ?_
      rintro _ ⟨⟩ ⟨htype, hcode⟩
      have htype' : m.type = mtPrearm := htype
      obtain ⟨w, r, hin, hproper, -⟩ := hkept.orders m hmem
      obtain ⟨code, hpayload, hlen, hnul⟩ : ∃ code, m.payload = code ++ [0]
          ∧ code.length ≤ 8 ∧ 0 ∉ code := by
        cases r with
        | preArm code => exact ⟨code, hin.2, hproper.1, hproper.2⟩
        | login username password newPassword =>
            rw [hin] at htype'
            exact absurd htype' (show mtLoginReq ≠ mtPrearm by decide)
        | command | calib | targetOrder | stateChange | changeCam =>
            exact absurd (hin.1.symm.trans htype') (by decide)
      refine hc.2 m hmem htype' ?_
      have hfits : m.Fits := r.fits hin hproper
      obtain ⟨tail, hmem0⟩ := mem_zero hfits beyond now
      rw [hmem0, hpayload] at hcode
      rw [hpayload, (take_code hlen hnul).mp hcode]
  | @server a calls t hown h =>
      refine ⟨resting_step hc.1 (a := a) h.ends ?_ ?_, hc.2⟩
      · rintro rfl
        cases hspurious
      · rintro m rfl
        exact absurd rfl (hown m)
  | image | heartBeat => exact hc

/-- **The code comes first.**  From a server that has only waited, and as long as
    `pthread_cond_wait` does not return by itself: before the operator has sent the right
    code, the server is in SAFE and both outputs are off. -/
theorem code_first {c₀ : Console} (h₀ : c₀.Started P config)
    (hfresh : ∃ h, ServerRun P config h c₀.server ∧ ∀ x ∈ h, Waits x.2)
    {h : List (Console × Turn)} (hr : SessionRun P c₀ h c)
    (hspurious : ∀ x ∈ h, x.2.spurious = false) :
    CodeEntered h ∨ (c.server.systemState = safe ∧ c.server.gpio17 = false
      ∧ c.server.gpio18 = false) := by
  have hcode : CodeEntered h ∨ c.Codeless := by
    induction hr with
    | start =>
        obtain ⟨r, hup, hasks, -⟩ := h₀.up
        obtain ⟨hist', hreachable, hwaits⟩ := hfresh
        refine Or.inr ⟨resting_of_waits hreachable hwaits, fun m hm htype => ?_⟩
        rw [hup] at hm
        rw [List.mem_singleton.mp hm] at htype
        exact absurd ((of_decide_eq_true hasks).symm.trans htype) (by decide)
    | @snoc h c c' turn hr hst ih =>
        have hlater := ih fun x hx => hspurious x (List.mem_cons_of_mem _ hx)
        by_cases hentered : CodeEntered ((c, turn) :: h)
        · exact Or.inl hentered
        · refine Or.inr ?_
          have hbefore : c.Codeless := hlater.resolve_left fun ⟨x, hx, hclick⟩ =>
            hentered ⟨x, List.mem_cons_of_mem _ hx, hclick⟩
          refine hbefore.step (SessionRun.kept h₀ hr).last hst
            (hspurious _ (List.mem_cons_self ..)) ?_
          rintro ⟨x, hx, hclick⟩
          exact hentered ⟨x, List.mem_singleton.mp hx ▸ List.mem_cons_self .., hclick⟩
  exact hcode.imp_right fun hc => ⟨hc.1.systemState, hc.1.gpio17, hc.1.gpio18⟩

/-- The operator types the code and fires by hand. -/
theorem code_first_byHand :
    ∃ h c, SessionRun Session.platform Session.console h c ∧ c.server.gpio17 = true
      ∧ (CodeEntered h ∨ (c.server.systemState = safe ∧ c.server.gpio17 = false
        ∧ c.server.gpio18 = false)) := by
  obtain ⟨h, c, hr, hc⟩ := Session.session_byHand
    (fun h c => c.server.gpio17 && h.all fun x => !x.2.spurious) (by decide +kernel)
  obtain ⟨hon, hspurious⟩ := Bool.and_eq_true_iff.mp hc
  have hfresh : ∃ h, ServerRun Session.platform Session.config h Session.console.server
      ∧ ∀ x ∈ h, Waits x.2 := by
    obtain ⟨h, hr, hlogin⟩ :=
      Session.reachable_next Session.platform Session.config (.message Session.login)
    rw [Session.console_server]
    refine ⟨h, hr, fun x hx => ?_⟩
    rw [hlogin x hx]
    rfl
  refine ⟨h, c, hr, hon, code_first Session.console_started hfresh hr fun x hx => ?_⟩
  exact Bool.not_eq_true' _ ▸ List.all_eq_true.mp hspurious x hx

end Console

end DemoCannon
