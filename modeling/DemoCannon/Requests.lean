import DemoCannon.Refinement

/-! # Rejected state requests

    `ProcessStateChangeRequest` ends in the same way for every request: laser and
    calibration are set as the state word has them, and the state is sent.  For a
    request that the state does not allow this is all that happens, and it writes
    the flags back as they are (`rejected_request_keeps`). -/

namespace DemoCannon

open Interaction Interaction.Program SystemState

/-- What a request may change: the state word, the sequencer, the aim with its
    offsets, and the cannon. -/
structure Weapon where
  systemState : SystemState
  autoEngage : TAutoEngage
  pan : Rat
  tilt : Rat
  xCorrect : Rat
  yCorrect : Rat
  gpio17 : Bool

def Server.weapon (s : Server) : Weapon where
  systemState := s.systemState
  autoEngage := s.autoEngage
  pan := s.pan
  tilt := s.tilt
  xCorrect := s.xCorrect
  yCorrect := s.yCorrect
  gpio17 := s.gpio17

/-- The transition rules do not allow the request. -/
def Rejected (s : Server) (state : SystemState) : Prop :=
  (state.base ≠ safe ∧ state.base ≠ prearmed ∧ state.base ≠ engageAuto
      ∧ state.base ≠ armedManual)
    ∨ (state.base = prearmed ∧ s.systemState.base ≠ engageAuto
      ∧ s.systemState.base ≠ armedManual)
    ∨ (state.base = engageAuto
      ∧ (s.systemState.base ≠ prearmed ∨ s.autoEngage.haveFiringOrder = false))
    ∨ (state.base = armedManual ∧ s.systemState.base ≠ prearmed
      ∧ s.systemState.base ≠ armedManual)

instance (s : Server) (state : SystemState) : Decidable (Rejected s state) :=
  inferInstanceAs (Decidable (_ ∨ _ ∨ _ ∨ _))

/-! ## The flags -/

/-- Set or clear a flag of the state word. -/
def Weapon.flag (f : SystemState) (value : Bool) (w : Weapon) : Weapon :=
  { w with
    systemState := if value then w.systemState ||| f else w.systemState &&& ~~~f }

/-- Writing a flag as it is changes nothing. -/
theorem Weapon.flag_has {f : SystemState} (hf : IsFlag f) (w : Weapon) :
    w.flag f (has w.systemState f) = w := by
  cases h : has w.systemState f with
  | true => exact congrArg (fun state => { w with systemState := state }) (or_flag_of_has hf h)
  | false =>
      exact congrArg (fun state => { w with systemState := state })
        (clear_flag_of_not_has hf h)

theorem acts_weapon_laser (value : Bool) :
    Acts Server.weapon (Weapon.flag laserOn value) (laser value) := by
  have hpin : ∀ v : Bool, Keeps Server.weapon (do
      update fun s => { s with gpio18 := v }
      unlock .gpio : Prog Unit) :=
    fun _ => Acts.update_then (fun _ => rfl) fun _ => keeps_unlock .gpio
  refine (keeps_lock .gpio).keeps_bind fun _ => ?_
  cases value with
  | true =>
      refine (keeps_auditlog _).keeps_bind fun _ => ?_
      exact Acts.update_then (fun _ => rfl) fun _ => hpin true
  | false => exact Acts.update_then (fun _ => rfl) fun _ => hpin false

theorem acts_weapon_calibrate (value : Bool) :
    Acts Server.weapon (Weapon.flag calibOn value) (calibrate value) := by
  refine (keeps_lock .gpio).keeps_bind fun _ => ?_
  cases value with
  | true => exact Acts.update_then (fun _ => rfl) fun _ => keeps_unlock .gpio
  | false => exact Acts.update_then (fun _ => rfl) fun _ => keeps_unlock .gpio

/-- A flag that is written as it is, and then what changes nothing. -/
theorem post_weapon_flag {f : SystemState} (hf : IsFlag f) {s : Server} {value : Bool}
    (hvalue : has s.systemState f = value) {p : Prog Unit} {q : Unit → Prog Unit}
    (hp : Acts Server.weapon (Weapon.flag f value) p) (hq : ∀ a, Keeps Server.weapon (q a)) :
    Post (p >>= q) s fun _ t => t.weapon = s.weapon := by
  have hsame : s.weapon.flag f value = s.weapon := by
    rw [← hvalue]
    exact s.weapon.flag_has hf
  rw [← hsame]
  exact hp.bind_keeps hq s

/-- The end of a request changes nothing. -/
theorem keeps_weapon_applyFlags : Keeps Server.weapon applyFlags := by
  have hini : BlindToIni Server.weapon := ⟨fun _ _ => rfl, fun _ _ => rfl⟩
  have holed : BlindToOled Server.weapon := fun _ _ => rfl
  refine Acts.fetch ?_
  intro s
  refine post_weapon_flag .laserOn rfl (acts_weapon_laser _) ?_
  intro _
  refine Acts.fetch ?_
  intro s
  -- either branch writes the calibration flag as it already is
  by_cases h : has s.systemState calibOn = true
  · rw [if_pos h]
    exact post_weapon_flag .calibOn h (acts_weapon_calibrate true)
      fun _ => keeps_calibrationOn hini holed
  · rw [if_neg h]
    exact post_weapon_flag .calibOn (Bool.not_eq_true _ ▸ h) (acts_weapon_calibrate false)
      fun _ => keeps_calibrationOff hini holed

/-! ## The requests -/

section Refused

variable {s : Server}

theorem post_requestPrearmed_refused (state : SystemState)
    (hauto : s.systemState.base ≠ engageAuto) (hmanual : s.systemState.base ≠ armedManual) :
    Post (requestPrearmed state) s fun _ t => t.weapon = s.weapon := by
  rw [requestPrearmed, post_bind, post_fetch, if_neg (not_or.mpr ⟨hauto, hmanual⟩), post_pure]

theorem post_requestEngageAuto_refused (state : SystemState)
    (h : s.systemState.base ≠ prearmed ∨ s.autoEngage.haveFiringOrder = false) :
    Post (requestEngageAuto state) s fun _ t => t.weapon = s.weapon := by
  rw [requestEngageAuto, post_bind, post_fetch]
  by_cases hpre : s.systemState.base = prearmed
  · rw [if_neg (not_not_intro hpre), if_pos (h.resolve_left (not_not_intro hpre))]
    exact keeps_say _ s
  · rw [if_pos hpre]
    exact keeps_say _ s

theorem post_requestArmedManual_refused (state : SystemState)
    (hpre : s.systemState.base ≠ prearmed) (hmanual : s.systemState.base ≠ armedManual) :
    Post (requestArmedManual state) s fun _ t => t.weapon = s.weapon := by
  rw [requestArmedManual, post_bind, post_fetch, if_pos ⟨hpre, hmanual⟩]
  exact keeps_say _ s

/-- The end of a request after what has changed nothing. -/
theorem post_then_applyFlags {p : Prog Unit}
    (hp : Post p s fun _ t => t.weapon = s.weapon) :
    Post (p >>= fun _ => applyFlags) s fun _ t => t.weapon = s.weapon := by
  rw [post_bind]
  refine hp.mono ?_
  intro _ m hm
  refine (keeps_weapon_applyFlags m).mono ?_
  intro _ t ht
  exact ht.trans hm

end Refused

/-- **A rejected request changes nothing** but the laser pin, the file of the offsets
    and the display. -/
theorem rejected_request_keeps {s : Server} {state : SystemState} (h : Rejected s state) :
    Post (processStateChangeRequest state) s fun _ t => t.weapon = s.weapon := by
  rw [processStateChangeRequest]
  dsimp only
  rcases h with ⟨hsafe, hpre, hauto, hmanual⟩ | ⟨hbase, hrefused⟩ | ⟨hbase, hrefused⟩
    | ⟨hbase, hrefused⟩
  · rw [if_neg hsafe, if_neg hpre, if_neg hauto, if_neg hmanual]
    exact keeps_weapon_applyFlags s
  · rw [if_neg (by rw [hbase]; decide), if_pos hbase]
    exact post_then_applyFlags (post_requestPrearmed_refused state hrefused.1 hrefused.2)
  · rw [if_neg (by rw [hbase]; decide), if_neg (by rw [hbase]; decide), if_pos hbase]
    exact post_then_applyFlags (post_requestEngageAuto_refused state hrefused)
  · rw [if_neg (by rw [hbase]; decide), if_neg (by rw [hbase]; decide),
      if_neg (by rw [hbase]; decide), if_pos hbase]
    exact post_then_applyFlags
      (post_requestArmedManual_refused state hrefused.1 hrefused.2)

/-- `ENGAGE_AUTO` is refused while the operator aims with laser and calibration on. -/
theorem engage_refused_in_armedManual :
    Post (processStateChangeRequest engageAuto)
      { systemState := armedManual ||| laserOn ||| calibOn, pan := 3, gpio18 := true }
      fun _ t => t.weapon = Server.weapon
        { systemState := armedManual ||| laserOn ||| calibOn, pan := 3, gpio18 := true } :=
  rejected_request_keeps (by decide)

end DemoCannon
