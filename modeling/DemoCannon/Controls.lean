import Mathlib.Data.List.Induction
import DemoCannon.Lib.Run
import DemoCannon.Telling
import DemoCannon.Window

/-! # The controls of the window

    `case WM_SYSTEM_STATE` changes a few controls for each base state and leaves the
    others as the state before left them.  As long as base states follow each other as
    those of the server do, the controls are those of the state that is shown
    (`show_controlsOf`); behind the end of a connection they need not be
    (`released_iff`). -/

namespace DemoCannon

open Interaction SystemState

/-! ## The controls and what a state makes of them -/

/-- What an operator has to hand; the marks of calibration and camera are apart. -/
structure Controls where
  prearmSafeText : String := "Safe"
  armedManual : CheckBox := {}
  autoEngage : CheckBox := {}
  laserEnable : CheckBox := {}
  calibrateEnabled : Bool := false
  camEnabled : Bool := true
  editEngageOrderEnabled : Bool := false
  editPrearmCodeEnabled : Bool := false
  deriving DecidableEq

/-- The controls of the window. -/
def Window.controls (w : Window) : Controls where
  prearmSafeText := w.prearmSafeText
  armedManual := w.armedManual
  autoEngage := w.autoEngage
  laserEnable := w.laserEnable
  calibrateEnabled := w.calibrate.enabled
  camEnabled := w.cam.enabled
  editEngageOrderEnabled := w.editEngageOrderEnabled
  editPrearmCodeEnabled := w.editPrearmCodeEnabled

namespace Controls

/-- SAFE. -/
def safe : Controls where
  prearmSafeText := "Pre-Arm Enable"
  camEnabled := false
  editPrearmCodeEnabled := true

/-- PREARMED. -/
def prearmed : Controls where
  armedManual := { enabled := true }
  autoEngage := { enabled := true }
  editEngageOrderEnabled := true

/-- ENGAGE_AUTO, out of other controls. -/
def engage (c : Controls) : Controls :=
  { c with
    armedManual := { c.armedManual with enabled := false }
    autoEngage := { c.autoEngage with checked := true }
    editEngageOrderEnabled := false }

/-- ARMED_MANUAL, out of other controls. -/
def arm (c : Controls) : Controls :=
  { c with
    armedManual := { c.armedManual with checked := true }
    autoEngage := { c.autoEngage with enabled := false }
    laserEnable := { c.laserEnable with enabled := true }
    calibrateEnabled := true
    editEngageOrderEnabled := false }

/-- The mark of the laser. -/
def mark (c : Controls) (laser : Bool) : Controls :=
  { c with laserEnable := { c.laserEnable with checked := laser } }

/-- What a state makes of the controls. -/
def shows (c : Controls) (state : SystemState) : Controls :=
  if base state = SystemState.safe then safe
  else if base state = SystemState.prearmed then prearmed
  else if base state = engageAuto then (c.mark (has state laserOn)).engage
  else if base state = SystemState.armedManual then (c.mark (has state laserOn)).arm
  else c.mark (has state laserOn)

end Controls

section Show

variable {w : Window} {state : SystemState}

/-- The window with the marks of a state, before the switch. -/
def Window.marked (w : Window) (state : SystemState) : Window :=
  { w with
    systemState := state
    laserEnable := { w.laserEnable with checked := has state SystemState.laserOn }
    laserOn := has state SystemState.laserOn
    calibrate := { w.calibrate with checked := has state calibOn } }

theorem wmSystemState_fst (w : Window) (state : SystemState) :
    (w.wmSystemState state).1 = (w.marked state).showBase.1 := rfl

theorem systemState_told (w : Window) (state : SystemState) :
    (w.wndProc (.systemState state)).1.systemState = state := by
  have hbase : ∀ w : Window, w.showBase.1.systemState = w.systemState := by
    intro w
    rw [Window.showBase]
    repeat' split
    all_goals rfl
  exact hbase _

theorem showBase_prearmed (h : base w.systemState = prearmed) :
    w.showBase.1.controls = .prearmed := by
  have hne : w.systemState ≠ unknown ∧ w.systemState ≠ safe := by
    constructor <;> intro hw <;> rw [hw] at h <;> exact absurd h (by decide)
  rw [Window.showBase]
  simp only [h, show prearmed ≠ unknown by decide, show prearmed ≠ safe by decide, if_false,
    if_true]
  cases hcam : w.cam.enabled <;>
    simp [Window.controls, Window.updateCameraCheckbox, Controls.prearmed, hne, hcam]

/-- The window shows a state by its controls. -/
theorem controls_wmSystemState (w : Window) (state : SystemState) :
    (w.wmSystemState state).1.controls = w.controls.shows state := by
  rw [wmSystemState_fst, Controls.shows]
  by_cases hsafe : base state = safe
  · rw [if_pos hsafe, Window.showBase]
    simp only [Window.marked, hsafe, show safe ≠ unknown by decide, if_false, if_true]
    rfl
  rw [if_neg hsafe]
  by_cases hprearmed : base state = prearmed
  · rw [if_pos hprearmed]
    exact showBase_prearmed hprearmed
  rw [if_neg hprearmed]
  by_cases hauto : base state = engageAuto
  · rw [if_pos hauto, Window.showBase]
    simp only [Window.marked, hauto, show engageAuto ≠ unknown by decide,
      show engageAuto ≠ safe by decide, show engageAuto ≠ prearmed by decide, if_false, if_true]
    rfl
  rw [if_neg hauto]
  by_cases hmanual : base state = SystemState.armedManual
  · rw [if_pos hmanual, Window.showBase]
    simp only [Window.marked, hmanual, show SystemState.armedManual ≠ unknown by decide,
      show SystemState.armedManual ≠ safe by decide,
      show SystemState.armedManual ≠ prearmed by decide,
      show SystemState.armedManual ≠ engageAuto by decide, if_false, if_true]
    rfl
  rw [if_neg hmanual, Window.showBase]
  simp only [Window.marked, hsafe, hprearmed, hauto, hmanual, if_false]
  split <;> rfl

end Show

/-! ## The controls of a state -/

/-- The controls for a state. -/
def controlsOf (state : SystemState) : Controls :=
  if base state = prearmed then .prearmed
  else if base state = engageAuto then
    { autoEngage := { checked := true, enabled := true }
      laserEnable := { checked := has state laserOn } }
  else if base state = SystemState.armedManual then
    { armedManual := { checked := true, enabled := true }
      laserEnable := { checked := has state laserOn, enabled := true }
      calibrateEnabled := true }
  else .safe

theorem controlsOf_safe {state : SystemState} (h : shownBase state = safe) :
    controlsOf state = .safe := by
  have hne : ∀ b : SystemState, b ≠ unknown → b ≠ safe → base state ≠ b := by
    intro b hunknown hsafe hb
    rw [shownBase, hb, if_neg hunknown] at h
    exact hsafe h
  rw [controlsOf, if_neg (hne prearmed (by decide) (by decide)),
    if_neg (hne engageAuto (by decide) (by decide)),
    if_neg (hne SystemState.armedManual (by decide) (by decide))]

theorem controlsOf_armedManual {state : SystemState} (h : base state = SystemState.armedManual) :
    controlsOf state = {
      armedManual := { checked := true, enabled := true }
      laserEnable := { checked := has state laserOn, enabled := true }
      calibrateEnabled := true } := by
  rw [controlsOf, h, if_neg (by decide), if_neg (by decide), if_pos rfl]

/-- The laser can be switched in ARMED_MANUAL only. -/
theorem armedManual_of_laserEnabled {state : SystemState}
    (h : (controlsOf state).laserEnable.enabled = true) :
    base state = SystemState.armedManual := by
  by_contra hno
  rw [controlsOf, if_neg hno] at h
  split at h
  · exact Bool.false_ne_true h
  · split at h <;> exact Bool.false_ne_true h

/-- The base and the mark of the laser are all that the controls show. -/
theorem controlsOf_congr {state state' : SystemState} (hbase : base state' = base state)
    (hlaser : has state' laserOn = has state laserOn) : controlsOf state' = controlsOf state := by
  rw [controlsOf, controlsOf, hbase, hlaser]

/-- A state has one of the four bases. -/
def Based (state : SystemState) : Prop :=
  base state = safe ∨ base state = prearmed ∨ base state = engageAuto
    ∨ base state = SystemState.armedManual

theorem Based.shownBase {state : SystemState} (h : Based state) :
    shownBase state = base state := by
  refine if_neg fun hunknown => ?_
  rcases h with h | h | h | h <;> exact absurd (hunknown.symm.trans h) (by decide)

/-- An armed base follows itself and PREARMED. -/
theorem Follows.armed {b b' : SystemState} (h : Follows b b')
    (hb' : b' = engageAuto ∨ b' = SystemState.armedManual) : b = b' ∨ b = prearmed := by
  rcases h with h | h | h | h
  · exact Or.inl h.symm
  · rcases hb' with hb' | hb' <;> exact absurd (h.symm.trans hb') (by decide)
  · rcases hb' with hb' | hb' <;> exact absurd (h.symm.trans hb') (by decide)
  · exact Or.inr h

theorem base_of_shownBase {state b : SystemState} (h : shownBase state = b) (hb : b ≠ safe) :
    base state = b := by
  rw [shownBase] at h
  by_cases hunknown : base state = unknown
  · rw [if_pos hunknown] at h
    exact absurd h.symm hb
  · rwa [if_neg hunknown] at h

/-- SAFE and PREARMED set all controls. -/
theorem shows_reset (c : Controls) {state : SystemState}
    (h : base state = safe ∨ base state = prearmed) : c.shows state = controlsOf state := by
  rcases h with h | h
  · simp only [Controls.shows, controlsOf, h, if_true]
    rfl
  · simp only [Controls.shows, controlsOf, h, if_true]
    rfl

/-- What follows SAFE. -/
theorem Follows.safe {b : SystemState} (h : Follows SystemState.safe b) :
    b = SystemState.safe ∨ b = prearmed := by
  rcases h with h | h | h | h
  · exact Or.inl h
  · exact Or.inl h
  · exact Or.inr h
  · exact absurd h (by decide)

/-- **A state that follows another one brings its controls.** -/
theorem show_controlsOf {state state' : SystemState} (hstate : Based state')
    (hfollows : Follows (shownBase state) (shownBase state')) :
    (controlsOf state).shows state' = controlsOf state' := by
  rw [hstate.shownBase] at hfollows
  have harmed : ∀ {b : SystemState}, b = engageAuto ∨ b = SystemState.armedManual →
      base state' = b → base state = b ∨ base state = prearmed := by
    intro b hb h
    have hne : b ≠ safe := by rcases hb with rfl | rfl <;> decide
    exact (hfollows.armed (h ▸ hb)).imp (fun hs => base_of_shownBase (hs.trans h) hne)
      fun hs => base_of_shownBase hs (by decide)
  rcases hstate with h | h | h | h
  · exact shows_reset _ (Or.inl h)
  · exact shows_reset _ (Or.inr h)
  · rw [Controls.shows, controlsOf, controlsOf, h]
    rcases harmed (Or.inl rfl) h with hs | hs <;> rw [hs] <;> rfl
  · rw [Controls.shows, controlsOf, controlsOf, h]
    rcases harmed (Or.inr rfl) h with hs | hs <;> rw [hs] <;> rfl

/-! ## Behind the end of a connection

    `OnDisconnect` disables the controls and posts UNKNOWN; the states that were posted
    before and not yet shown come in between. -/

namespace Controls

/-- A control other than the field of the pre-arm code can be used. -/
def acting (c : Controls) : Bool :=
  c.armedManual.enabled || c.autoEngage.enabled || c.laserEnable.enabled
    || c.calibrateEnabled || c.camEnabled || c.editEngageOrderEnabled

/-- A control can be used. -/
def usable (c : Controls) : Bool := c.acting || c.editPrearmCodeEnabled

/-- What `OnDisconnect` leaves. -/
def released (prearmSafeText : String) : Controls where
  prearmSafeText := prearmSafeText
  camEnabled := false

/-- One of these two can be used if any can, that field apart. -/
structure Led (c : Controls) : Prop where
  acting : c.acting = true → c.autoEngage.enabled = true ∨ c.laserEnable.enabled = true

/-- The state makes controls usable, that field apart. -/
def Enables (state : SystemState) : Prop :=
  base state = SystemState.prearmed ∨ base state = SystemState.armedManual

theorem Led.of_false {c : Controls} (h : c.acting = false) : c.Led :=
  ⟨fun hc => absurd (h.symm.trans hc) (by decide)⟩

theorem Led.mark {c : Controls} (h : c.Led) (laser : Bool) : (c.mark laser).Led :=
  ⟨h.acting⟩

theorem Led.acting_iff {c : Controls} (h : c.Led) :
    c.acting = true ↔ c.autoEngage.enabled = true ∨ c.laserEnable.enabled = true := by
  refine ⟨h.acting, fun hc => ?_⟩
  rw [Controls.acting]
  rcases hc with hc | hc <;> simp [hc]

theorem Led.engage {c : Controls} (h : c.Led) : c.engage.Led := by
  refine ⟨fun hc => h.acting_iff.mp ?_⟩
  simp only [Controls.acting, Controls.engage, Bool.or_eq_true] at hc ⊢
  simp only [Bool.false_eq_true, false_or, or_false] at hc
  rcases hc with ((hc | hc) | hc) | hc <;> simp [hc]

/-- Where one of the two can be used, a state other than SAFE leaves that so. -/
theorem Led.shows {c : Controls} (h : c.Led) (state : SystemState) :
    (c.shows state).Led ∧ ((c.shows state).acting = true
      ↔ Enables state ∨ base state ≠ SystemState.safe ∧ c.acting = true) := by
  rw [Controls.shows]
  by_cases hsafe : base state = SystemState.safe
  · rw [if_pos hsafe]
    refine ⟨.of_false rfl, iff_of_false (by decide) ?_⟩
    rintro ((he | he) | he)
    · exact absurd (hsafe.symm.trans he) (by decide)
    · exact absurd (hsafe.symm.trans he) (by decide)
    · exact he.1 hsafe
  rw [if_neg hsafe]
  by_cases hprearmed : base state = SystemState.prearmed
  · rw [if_pos hprearmed]
    exact ⟨⟨fun _ => Or.inl rfl⟩, iff_of_true rfl (Or.inl (Or.inl hprearmed))⟩
  rw [if_neg hprearmed]
  by_cases hauto : base state = engageAuto
  · rw [if_pos hauto]
    have hled := (h.mark (has state laserOn)).engage
    refine ⟨hled, hled.acting_iff.trans (h.acting_iff.symm.trans ?_)⟩
    refine ⟨fun hc => Or.inr ⟨hsafe, hc⟩, ?_⟩
    rintro ((he | he) | he)
    · exact absurd he hprearmed
    · exact absurd (hauto.symm.trans he) (by decide)
    · exact he.2
  rw [if_neg hauto]
  by_cases hmanual : base state = SystemState.armedManual
  · rw [if_pos hmanual]
    have hled : ((c.mark (has state laserOn)).arm).Led := ⟨fun _ => Or.inr rfl⟩
    exact ⟨hled, iff_of_true (hled.acting_iff.mpr (Or.inr rfl)) (Or.inl (Or.inr hmanual))⟩
  · rw [if_neg hmanual]
    refine ⟨h.mark _, ⟨fun hc => Or.inr ⟨hsafe, hc⟩, ?_⟩⟩
    rintro ((he | he) | he)
    · exact absurd he hprearmed
    · exact absurd he hmanual
    · exact he.2

/-- SAFE enables the field of the code; PREARMED disables it, but enables others. -/
theorem Led.usable_shows {c : Controls} (h : c.Led) (state : SystemState) :
    (c.shows state).usable = true
      ↔ (base state = SystemState.safe ∨ Enables state) ∨ c.usable = true := by
  by_cases hsafe : base state = SystemState.safe
  · rw [Controls.shows, if_pos hsafe]
    exact iff_of_true rfl (Or.inl (Or.inl hsafe))
  by_cases henables : Enables state
  · refine iff_of_true ?_ (Or.inl (Or.inr henables))
    rw [Controls.usable, (h.shows state).2.mpr (Or.inl henables)]
    rfl
  · have hfield : (c.shows state).editPrearmCodeEnabled = c.editPrearmCodeEnabled := by
      rw [Controls.shows, if_neg hsafe, if_neg fun hp => henables (Or.inl hp)]
      split
      · rfl
      · split <;> rfl
    have hacting : (c.shows state).acting = true ↔ c.acting = true :=
      (h.shows state).2.trans
        ⟨fun hc => (hc.resolve_left henables).2, fun hc => Or.inr ⟨hsafe, hc⟩⟩
    rw [Controls.usable, Controls.usable, hfield, Bool.or_eq_true, Bool.or_eq_true, hacting]
    exact ⟨Or.inr, fun hc => hc.resolve_left (not_or.mpr ⟨hsafe, henables⟩)⟩

end Controls

/-- A control other than the field of the pre-arm code can be used. -/
def Window.acting (w : Window) : Bool := w.controls.acting || w.prearmSafeEnabled

/-- One of the controls that `OnDisconnect` disables can be used. -/
def Window.usable (w : Window) : Bool := w.controls.usable || w.prearmSafeEnabled

/-- The window after it has been told of states. -/
def Window.showAll (w : Window) (states : List SystemState) : Window :=
  states.foldl (fun w state => (w.wndProc (.systemState state)).1) w

theorem controls_showAll (w : Window) (states : List SystemState) :
    (w.showAll states).controls = states.foldl Controls.shows w.controls := by
  induction states generalizing w with
  | nil => rfl
  | cons state states ih =>
      rw [List.foldl_cons, ← controls_wmSystemState]
      exact ih _

/-- No state enables the button. -/
theorem prearmSafeEnabled_showAll (w : Window) (states : List SystemState) :
    (w.showAll states).prearmSafeEnabled = w.prearmSafeEnabled := by
  induction states generalizing w with
  | nil => rfl
  | cons state states ih =>
      have hbase : ∀ w : Window, w.showBase.1.prearmSafeEnabled = w.prearmSafeEnabled := by
        intro w
        rw [Window.showBase]
        repeat' split
        all_goals rfl
      exact (ih _).trans (hbase (w.marked state))

theorem controls_idmDisconnect {w : Window} (h : w.isClientConnected = true) :
    w.idmDisconnect.1.controls = .released w.prearmSafeText
      ∧ w.idmDisconnect.1.prearmSafeEnabled = false := by
  rw [Window.idmDisconnect, Window.onDisconnect, if_pos (show
    ({ w.setToolbar false with timer := false } : Window).isClientConnected = true from h)]
  exact ⟨rfl, rfl⟩

theorem Controls.Led.foldl {c : Controls} (h : c.Led) (states : List SystemState) :
    (states.foldl Controls.shows c).Led := by
  induction states generalizing c with
  | nil => exact h
  | cons state states ih => exact ih (h.shows state).1

/-- Controls that cannot be used, after states: one that makes them usable has no SAFE behind
    it. -/
theorem acting_foldl {c : Controls} (hc : c.acting = false) (states : List SystemState) :
    (states.foldl Controls.shows c).acting = true
      ↔ ∃ before state behind, states = before ++ state :: behind ∧ Controls.Enables state
        ∧ ∀ later ∈ behind, ¬ base later = safe :=
  foldl_since_label_iff Controls.Led (fun c => c.acting = true) (.of_false hc)
    (Bool.eq_false_iff.mp hc) (fun _ state h => (h.shows state).1)
    (fun _ state h => (h.shows state).2.trans (or_congr_right and_comm)) states

/-- The field of the code as well: what makes it usable is never undone. -/
theorem usable_foldl {c : Controls} (hc : c.usable = false) (states : List SystemState) :
    (states.foldl Controls.shows c).usable = true
      ↔ ∃ state ∈ states, base state = safe ∨ Controls.Enables state := by
  obtain ⟨hacting, -⟩ := Bool.or_eq_false_iff.mp hc
  induction states using List.reverseRecOn with
  | nil =>
      refine iff_of_false (Bool.eq_false_iff.mp hc) ?_
      rintro ⟨state, ⟨⟩, -⟩
  | append_singleton states state ih =>
      have hled := (Controls.Led.of_false hacting).foldl states
      rw [List.foldl_append, List.foldl_cons, List.foldl_nil, hled.usable_shows state, ih]
      constructor
      · rintro (h | ⟨earlier, hearlier, h⟩)
        · exact ⟨state, by simp, h⟩
        · exact ⟨earlier, by simp [hearlier], h⟩
      · rintro ⟨told, htold, h⟩
        rcases List.mem_append.mp htold with htold | htold
        · exact Or.inr ⟨told, htold, h⟩
        · exact Or.inl (List.mem_singleton.mp htold ▸ h)

/-- **Behind the end of a connection the controls stay disabled**, all of them, exactly if
    no SAFE, PREARMED or ARMED_MANUAL was still posted; and all but the field of the
    pre-arm code exactly if each PREARMED and ARMED_MANUAL has a SAFE behind it. -/
theorem released_iff {w : Window} (hconnected : w.isClientConnected = true)
    (stale : List SystemState) :
    (((w.wndProc .disconnect).1.showAll (stale ++ [unknown])).usable = false
        ↔ ∀ state ∈ stale, base state ≠ safe ∧ ¬ Controls.Enables state)
      ∧ (((w.wndProc .disconnect).1.showAll (stale ++ [unknown])).acting = false
        ↔ ∀ before state behind, stale = before ++ state :: behind → Controls.Enables state →
          ∃ later ∈ behind, base later = safe) := by
  obtain ⟨hcontrols, hbutton⟩ := controls_idmDisconnect hconnected
  -- UNKNOWN changes nothing but the mark of the laser
  have hshown : ((w.wndProc .disconnect).1.showAll (stale ++ [unknown])).controls
      = (stale.foldl Controls.shows (.released w.prearmSafeText)).mark false := by
    rw [controls_showAll, List.foldl_append, ← hcontrols]
    rfl
  have hpressed : ((w.wndProc .disconnect).1.showAll (stale ++ [unknown])).prearmSafeEnabled
      = false := (prearmSafeEnabled_showAll _ _).trans hbutton
  rw [Window.usable, Window.acting, hshown, hpressed, Bool.or_false, Bool.or_false,
    ← Bool.not_eq_true, ← Bool.not_eq_true]
  constructor
  · refine (not_congr (usable_foldl rfl stale)).trans ?_
    simp only [not_exists, not_and, not_or]
  · refine (not_congr (acting_foldl rfl stale)).trans ?_
    simp only [not_exists, not_and, not_forall, not_not, exists_prop]

/-- The end of a connection overtakes a PREARMED and a SAFE. -/
theorem released_iff_prearmed :
    let w := (Window.created.onConnect (.answered LoginState.loginOk.word)).2.1
    (((w.wndProc .disconnect).1.showAll ([prearmed, safe] ++ [unknown])).usable = false
        ↔ ∀ state ∈ [prearmed, safe], base state ≠ safe ∧ ¬ Controls.Enables state)
      ∧ (((w.wndProc .disconnect).1.showAll ([prearmed, safe] ++ [unknown])).acting = false
        ↔ ∀ before state behind, [prearmed, safe] = before ++ state :: behind →
          Controls.Enables state → ∃ later ∈ behind, base later = safe) :=
  released_iff (by decide +kernel) [prearmed, safe]

end DemoCannon
