import DemoCannon.Moves

/-! # The interlock: base states and outputs over whole runs

    The base state decides what the outputs may do.  Three results about it:
    the armed states are entered only from `PREARMED` on request
    (`armed_only_from_prearmed`), and two that the code meets only as long as no
    engagement outlives its cancellation: `SAFE` is left only by the pre-arm
    code (`safe_left_by_prearm_iff`), and the outputs are off in `SAFE` and
    `PREARMED` (`disarmed_off_iff`). -/

namespace DemoCannon

open Interaction Interaction.Program SystemState

/-! ## One base state at any time -/

namespace Control

theorem firingDenied_iff (c : Control) : firingDenied c.systemState
    ↔ c.base = unknown ∨ c.base = SystemState.safe ∨ c.base = SystemState.prearmed :=
  Iff.rfl

theorem statement_laserTrue {c : Control} (h : c.engagement = .laserTrue) :
    c.statement = { c.laser true with engagement := .sendLaser } := by
  rw [statement, effect, h]; rfl

theorem statement_fireTrue {c : Control} (h : c.engagement = .fireTrue) :
    c.statement = { c.fire true with engagement := .sendFire } := by
  rw [statement, effect, h]; rfl

theorem statement_setComplete {c : Control} (h : c.engagement = .setComplete) :
    c.statement = { c with state := .engagementComplete, engagement := .unlock } := by
  rw [statement, effect, h]; rfl

theorem nextTarget_completed {c : Control}
    (h : c.numberOfTartgets ≤ c.currentIndex + 1) :
    c.nextTarget = { c with
      currentIndex := c.currentIndex + 1
      state := .notActive
      systemState := SystemState.prearmed } := if_pos h

theorem nextTarget_more {c : Control}
    (h : ¬ c.numberOfTartgets ≤ c.currentIndex + 1) :
    c.nextTarget
      = { c with currentIndex := c.currentIndex + 1, state := .newTarget } :=
  if_neg h

/-- An order changes nothing but the order and the sequencer. -/
theorem order_eq (firingOrder : Bytes) (c : Control) :
    c.order firingOrder = { c with
      state := .notActive
      haveFiringOrder := decide (IsOrder firingOrder)
      numberOfTartgets :=
        if IsOrder firingOrder then strlen firingOrder else 0 } := by
  rw [order]
  by_cases h : IsOrder firingOrder
  · simp only [h, if_true, decide_true, clearOrder]
  · simp only [h, if_false, decide_false, clearOrder]

/-- One of the four base states. -/
def HasBase (c : Control) : Prop :=
  c.base = SystemState.safe ∨ c.base = SystemState.prearmed
    ∨ c.base = SystemState.engageAuto ∨ c.base = SystemState.armedManual

theorem HasBase.of_eq {c d : Control} (h : c.HasBase) (he : d.base = c.base) :
    d.HasBase := by
  rw [HasBase, he]
  exact h

/-- What holds of the control part in every run. -/
structure Sound (c : Control) : Prop where
  base : c.HasBase
  /-- A stored order has one to ten targets. -/
  order : c.haveFiringOrder = true
    → 1 ≤ c.numberOfTartgets ∧ c.numberOfTartgets ≤ 10

/-- With one of the base states, firing is denied in two of them. -/
theorem HasBase.firingDenied_iff {c : Control} (h : c.HasBase) :
    firingDenied c.systemState
      ↔ c.base = SystemState.safe ∨ c.base = SystemState.prearmed := by
  refine c.firingDenied_iff.trans ⟨?_, Or.inr⟩
  rintro (hunknown | hdenied)
  · rcases h with h | h | h | h <;> rw [h] at hunknown <;> exact absurd hunknown (by decide)
  · exact hdenied

/-- **The step lemma.** -/
theorem Sound.move {c d : Control} {e : Event} (hc : Sound c) (hm : Move c e d) :
    Sound d := by
  cases hm with
  | quiet h =>
      exact ⟨hc.base.of_eq h.base, by
        rw [h.haveFiringOrder, h.numberOfTartgets]
        exact hc.order⟩
  | refused => exact ⟨hc.base, hc.order⟩
  | safe hstate => exact ⟨Or.inl base_safe, by rintro ⟨⟩⟩
  | prearmedFromAuto hstate hbase => exact ⟨Or.inr (Or.inl base_prearmed), by rintro ⟨⟩⟩
  | prearmedFromManual hstate hbase =>
      exact ⟨Or.inr (Or.inl base_prearmed), hc.order⟩
  | engageAuto hstate hbase horder =>
      exact ⟨Or.inr (Or.inr (Or.inl base_engageAuto)), hc.order⟩
  | armedManual hstate hbase =>
      exact ⟨Or.inr (Or.inr (Or.inr base_armedManual)), hc.order⟩
  | flags hstate hbase => exact ⟨Or.inr (Or.inr (Or.inr hstate)), hc.order⟩
  | @order firingOrder =>
      rw [order_eq]
      refine ⟨hc.base, fun h => ?_⟩
      have horder : IsOrder firingOrder := of_decide_eq_true h
      simp only [if_pos horder]
      exact ⟨horder.1, horder.2.1⟩
  | fireStart hbase =>
      rw [fire_true_manual hbase]
      exact ⟨hc.base.of_eq (base_flag .firing true c), hc.order⟩
  | prearm hcode hsafe => exact ⟨Or.inr (Or.inl base_prearmed), hc.order⟩
  | tracks h =>
      exact ⟨hc.base.of_eq h.base, by
        rw [h.haveFiringOrder, h.numberOfTartgets]
        exact hc.order⟩
  | listCompleted hstate hlast =>
      rw [nextTarget_completed hlast]
      exact ⟨Or.inr (Or.inl base_prearmed), hc.order⟩
  | newTarget hstate hlast =>
      rw [nextTarget_more hlast]
      exact ⟨hc.base, hc.order⟩
  | laserTrue hpc =>
      rw [statement_laserTrue hpc]
      exact ⟨hc.base.of_eq (base_laser true c), hc.order⟩
  | fireTrue hpc =>
      rw [statement_fireTrue hpc]
      by_cases hdenied : firingDenied c.systemState
      · -- a denied attempt still leaves one base state
        rw [fire_true_denied hdenied]
        exact ⟨Or.inr (Or.inl base_prearmed), hc.order⟩
      · rw [fire_true_permitted hdenied]
        exact ⟨hc.base.of_eq (base_flag .firing true c), hc.order⟩
  | setComplete hpc =>
      rw [statement_setComplete hpc]
      exact ⟨hc.base, hc.order⟩

/-- A move into an armed base is an accepted request for it. -/
theorem Move.arms {c d : Control} {e : Event} {b : SystemState} (hm : Move c e d)
    (hb : b = SystemState.engageAuto ∨ b = SystemState.armedManual)
    (hd : d.base = b) (hne : c.base ≠ b) :
    c.base = SystemState.prearmed
      ∧ (∃ state : SystemState, e = .request state ∧ state.base = b)
      ∧ (b = SystemState.engageAuto → c.haveFiringOrder = true
        ∧ d.haveFiringOrder = true ∧ d.numberOfTartgets = c.numberOfTartgets) := by
  have hdisarmed : b ≠ SystemState.safe ∧ b ≠ SystemState.prearmed := by
    rcases hb with rfl | rfl <;> decide
  -- a move that keeps the base, or makes it a disarmed one, is not into `b`
  have hsame : d.base ≠ c.base := fun h => hne (h.symm.trans hd)
  cases hm with
  | quiet h => exact absurd h.base hsame
  | refused => exact absurd rfl hsame
  | safe hstate => exact absurd (hd.symm.trans base_safe) hdisarmed.1
  | prearmedFromAuto hstate hbase | prearmedFromManual hstate hbase =>
      exact absurd (hd.symm.trans base_prearmed) hdisarmed.2
  | engageAuto hstate hbase horder =>
      have hauto : b = SystemState.engageAuto := hd.symm.trans base_engageAuto
      exact ⟨hbase, ⟨_, rfl, hstate.trans hauto.symm⟩, fun _ => ⟨horder, horder, rfl⟩⟩
  | armedManual hstate hbase =>
      have hmanual : b = SystemState.armedManual := hd.symm.trans base_armedManual
      refine ⟨hbase, ⟨_, rfl, hstate.trans hmanual.symm⟩, fun hauto => ?_⟩
      exact absurd (hmanual.symm.trans hauto) (by decide)
  | flags hstate hbase => exact absurd (hstate.trans hbase.symm) hsame
  | order =>
      rw [order_eq] at hsame
      exact absurd rfl hsame
  | fireStart hbase =>
      rw [fire_true_manual hbase] at hsame
      exact absurd (base_flag .firing true c) hsame
  | prearm hcode hsafe => exact absurd (hd.symm.trans base_prearmed) hdisarmed.2
  | tracks h => exact absurd h.base hsame
  | listCompleted hstate hlast =>
      rw [nextTarget_completed hlast] at hd
      exact absurd (hd.symm.trans base_prearmed) hdisarmed.2
  | newTarget hstate hlast =>
      rw [nextTarget_more hlast] at hsame
      exact absurd rfl hsame
  | laserTrue hpc =>
      rw [statement_laserTrue hpc] at hsame
      exact absurd (base_laser true c) hsame
  | fireTrue hpc =>
      rw [statement_fireTrue hpc] at hd hsame
      by_cases hdenied : firingDenied c.systemState
      · rw [fire_true_denied hdenied] at hd
        exact absurd (hd.symm.trans base_prearmed) hdisarmed.2
      · rw [fire_true_permitted hdenied] at hsame
        exact absurd (base_flag .firing true c) hsame
  | setComplete hpc =>
      rw [statement_setComplete hpc] at hsame
      exact absurd rfl hsame

/-- What can lead out of `SAFE`. -/
theorem Move.leavesSafe {c d : Control} {e : Event} (hm : Move c e d)
    (hsafe : c.base = SystemState.safe) (hd : d.base ≠ SystemState.safe) :
    (∃ code, e = .prearm code ∧ code.take 9 = prearmCode)
      ∨ (e = .statement ∧ c.engagement = .fireTrue)
      ∨ (∃ result, e = .frame result ∧ c.state = .engagementComplete
        ∧ c.numberOfTartgets ≤ c.currentIndex + 1) := by
  have hsame : d.base ≠ c.base := fun h => hd (h.trans hsafe)
  cases hm with
  | quiet h => exact absurd h.base hsame
  | refused => exact absurd rfl hsame
  | safe hstate => exact absurd base_safe hd
  | prearmedFromAuto _ hbase | prearmedFromManual _ hbase | engageAuto _ hbase
  | armedManual _ hbase | flags _ hbase | fireStart hbase =>
      exact absurd (hsafe.symm.trans hbase) (by decide)
  | order =>
      rw [order_eq] at hsame
      exact absurd rfl hsame
  | prearm hcode _ => exact Or.inl ⟨_, rfl, hcode⟩
  | tracks h => exact absurd h.base hsame
  | listCompleted hstate hlast => exact Or.inr (Or.inr ⟨_, rfl, hstate, hlast⟩)
  | newTarget hstate hlast =>
      rw [nextTarget_more hlast] at hsame
      exact absurd rfl hsame
  | laserTrue hpc =>
      rw [statement_laserTrue hpc] at hsame
      exact absurd (base_laser true c) hsame
  | fireTrue hpc => exact Or.inr (Or.inl ⟨rfl, hpc⟩)
  | setComplete hpc =>
      rw [statement_setComplete hpc] at hsame
      exact absurd rfl hsame

/-- The base states in which the outputs should be off. -/
def Disarmed (c : Control) : Prop :=
  c.base = SystemState.safe ∨ c.base = SystemState.prearmed

theorem not_disarmed {c : Control}
    (h : c.base = SystemState.engageAuto ∨ c.base = SystemState.armedManual) :
    ¬ c.Disarmed := by
  rintro (hd | hd) <;> rcases h with h | h <;> rw [h] at hd <;>
    exact absurd hd (by decide)

/-- The outputs are off, and the state word does not ask for the laser. -/
structure Off (c : Control) : Prop where
  gpio17 : c.gpio17 = false
  gpio18 : c.gpio18 = false
  laser : has c.systemState laserOn = false

theorem Off.quiet {c d : Control} (hc : c.Off) (h : Quiet c d) : d.Off where
  gpio17 := Bool.eq_false_iff.mpr fun hd =>
    Bool.eq_false_iff.mp hc.gpio17 (h.gpio17 hd)
  gpio18 := Bool.eq_false_iff.mpr fun hd =>
    Bool.eq_false_iff.mp hc.gpio18 (h.gpio18 hd)
  laser := Bool.eq_false_iff.mpr fun hd =>
    Bool.eq_false_iff.mp hc.laser (h.laser hd)

/-- A move keeps the outputs off in the disarmed states, unless it switches the
    laser on in one of them or ends the list of targets with an output on. -/
theorem Move.off {c d : Control} {e : Event} (hm : Move c e d) (hc : Sound c)
    (hoff : c.Disarmed → c.Off) :
    (d.Disarmed → d.Off)
      ∨ (e = .statement ∧ c.engagement = .laserTrue ∧ c.Disarmed)
      ∨ (∃ result, e = .frame result ∧ c.state = .engagementComplete
        ∧ c.numberOfTartgets ≤ c.currentIndex + 1
        ∧ (c.gpio17 = true ∨ c.gpio18 = true)) := by
  have hpre : has SystemState.prearmed laserOn = false :=
    (has_base_state .laserOn).2.1
  cases hm with
  | quiet h =>
      refine Or.inl fun hd => (hoff ?_).quiet h
      rw [Disarmed, ← h.base]
      exact hd
  | refused =>
      refine Or.inl fun hd => ?_
      have hc := hoff hd
      exact ⟨hc.gpio17, hc.laser, hc.laser⟩
  | safe hstate => exact Or.inl fun _ => ⟨rfl, rfl, (has_base_state .laserOn).1⟩
  | prearmedFromAuto hstate hbase => exact Or.inl fun _ => ⟨rfl, rfl, hpre⟩
  | prearmedFromManual hstate hbase => exact Or.inl fun _ => ⟨rfl, rfl, hpre⟩
  | engageAuto hstate hbase horder =>
      exact Or.inl fun hd => absurd hd (not_disarmed (Or.inl base_engageAuto))
  | armedManual hstate hbase =>
      exact Or.inl fun hd => absurd hd (not_disarmed (Or.inr base_armedManual))
  | flags hstate hbase =>
      exact Or.inl fun hd => absurd hd (not_disarmed (Or.inr hstate))
  | order =>
      rw [order_eq]
      refine Or.inl ?_
      intro hd
      exact ⟨(hoff hd).gpio17, (hoff hd).gpio18, (hoff hd).laser⟩
  | fireStart hbase =>
      rw [fire_true_manual hbase]
      refine Or.inl fun hd => absurd hd (not_disarmed (Or.inr ?_))
      exact (base_flag .firing true c).trans hbase
  | prearm hcode hsafe =>
      -- from one disarmed state into the other
      have hdisarmed : c.Disarmed := Or.inl ((congrArg _ hsafe).trans base_safe)
      exact Or.inl fun _ => ⟨(hoff hdisarmed).gpio17, (hoff hdisarmed).gpio18, hpre⟩
  | tracks h =>
      refine Or.inl fun hd => ?_
      have hc := hoff (by rw [Disarmed, ← h.base]; exact hd)
      exact ⟨h.gpio17.trans hc.gpio17, h.gpio18.trans hc.gpio18,
        Bool.eq_false_iff.mpr fun hd => Bool.eq_false_iff.mp hc.laser (h.laser hd)⟩
  | listCompleted hstate hlast =>
      -- the state drops to `PREARMED` with the pins as they are
      by_cases hpins : c.gpio17 = true ∨ c.gpio18 = true
      · exact Or.inr (Or.inr ⟨_, rfl, hstate, hlast, hpins⟩)
      · rw [nextTarget_completed hlast]
        exact Or.inl fun _ => ⟨Bool.eq_false_iff.mpr fun h => hpins (Or.inl h),
          Bool.eq_false_iff.mpr fun h => hpins (Or.inr h), hpre⟩
  | newTarget hstate hlast =>
      rw [nextTarget_more hlast]
      refine Or.inl ?_
      intro hd
      exact ⟨(hoff hd).gpio17, (hoff hd).gpio18, (hoff hd).laser⟩
  | laserTrue hpc =>
      -- `laser` has no check of the state
      by_cases hdisarmed : c.Disarmed
      · exact Or.inr (Or.inl ⟨rfl, hpc, hdisarmed⟩)
      · rw [statement_laserTrue hpc]
        refine Or.inl fun hd => absurd ?_ hdisarmed
        rw [Disarmed, ← base_laser true c]
        exact hd
  | fireTrue hpc =>
      rw [statement_fireTrue hpc]
      by_cases hdenied : firingDenied c.systemState
      · have hc := hoff (hc.base.firingDenied_iff.mp hdenied)
        rw [fire_true_denied hdenied]
        exact Or.inl fun _ => ⟨hc.gpio17, hc.gpio18, hpre⟩
      · rw [fire_true_permitted hdenied]
        refine Or.inl fun hd => absurd (hc.base.firingDenied_iff.mpr ?_) hdenied
        rw [← base_flag .firing true c]
        exact hd
  | setComplete hpc =>
      rw [statement_setComplete hpc]
      refine Or.inl ?_
      intro hd
      exact ⟨(hoff hd).gpio17, (hoff hd).gpio18, (hoff hd).laser⟩

end Control

/-! ## Armed states are entered from `PREARMED` on request -/

/-- Exactly one of the bits `SAFE`, `PREARMED`, `ENGAGE_AUTO` and
    `ARMED_MANUAL` is set, and no bit above `0x80`. -/
def OneBase (w : SystemState) : Prop :=
  (∃ b ∈ [safe, prearmed, engageAuto, armedManual],
      ∀ b' ∈ [safe, prearmed, engageAuto, armedManual], has w b' = true ↔ b' = b)
    ∧ w &&& ~~~0xFF#32 = 0#32

/-- A step to an armed base state `b` starts in `PREARMED` and handles a state
    request for `b`; for `ENGAGE_AUTO` an order of one to ten targets is
    stored. -/
def ArmsOnRequest (_ : List (Server × Act)) (s : Server) (a : Act) (t : Server) :
    Prop :=
  ∀ b, b = engageAuto ∨ b = armedManual →
    base t.systemState = b → base s.systemState ≠ b →
    base s.systemState = prearmed
      ∧ (∃ m, a = .message m ∧ m.buffer.type = mtStateChangeReq
        ∧ base (ntohl (m.mem 0)) = b)
      ∧ (b = engageAuto → ∀ u ∈ [s, t], u.autoEngage.haveFiringOrder = true
        ∧ 1 ≤ u.autoEngage.numberOfTartgets
        ∧ u.autoEngage.numberOfTartgets ≤ 10)

theorem mem_baseStates {b : SystemState} :
    b ∈ [safe, prearmed, engageAuto, armedManual]
      ↔ b = safe ∨ b = prearmed ∨ b = engageAuto ∨ b = armedManual := by
  simp only [List.mem_cons, List.not_mem_nil, or_false]

/-- The bits of the base states lie in the base. -/
theorem has_base {b : SystemState}
    (hb : b ∈ [safe, prearmed, engageAuto, armedManual]) (w : SystemState) :
    has w b = has (base w) b := by
  have hin : clearLaserFiringArmedCalibMask &&& b = b := by
    rcases mem_baseStates.mp hb with rfl | rfl | rfl | rfl <;> decide
  rw [has, has, base, BitVec.and_assoc, hin]

/-- Different base states have different bits. -/
theorem has_baseStates {b b' : SystemState}
    (hb : b ∈ [safe, prearmed, engageAuto, armedManual])
    (hb' : b' ∈ [safe, prearmed, engageAuto, armedManual]) :
    has b b' = true ↔ b' = b := by
  rcases mem_baseStates.mp hb with rfl | rfl | rfl | rfl <;>
    rcases mem_baseStates.mp hb' with rfl | rfl | rfl | rfl <;> decide

theorem oneBase_of_base_mem {w : SystemState}
    (hw : base w ∈ [safe, prearmed, engageAuto, armedManual]) : OneBase w := by
  have hlow : base w &&& ~~~0xFF#32 = 0#32 := by
    rcases mem_baseStates.mp hw with h | h | h | h <;> rw [h] <;> decide
  have hhigh : w &&& ~~~0xFF#32 = base w &&& ~~~0xFF#32 := by
    rw [base, BitVec.and_assoc,
      show clearLaserFiringArmedCalibMask &&& ~~~0xFF#32 = ~~~0xFF#32 by decide]
  refine ⟨⟨base w, hw, fun b' hb' => ?_⟩, hhigh.trans hlow⟩
  rw [has_base hb']
  exact has_baseStates hw hb'

section Runs

variable {P : Platform} {c : Config} {h : List (Server × Act)} {s : Server}

theorem sound_step {s t : Server} {a : Act} (hs : s.control.Sound)
    (hst : Step P s a t) : t.control.Sound := by
  obtain ⟨e, -, hm⟩ := step_move hst
  exact hs.move hm

theorem sound_start (c : Config) : (start c).control.Sound :=
  ⟨Or.inl base_safe, by rintro ⟨⟩⟩

theorem oneBase_of_sound {s : Server} (hs : s.control.Sound) :
    OneBase s.systemState :=
  oneBase_of_base_mem (mem_baseStates.mpr hs.base)

theorem step_arms {s t : Server} {a : Act} (hs : s.control.Sound)
    (hst : Step P s a t) : ArmsOnRequest h s a t := by
  intro b hb ht hne
  obtain ⟨e, hshows, hm⟩ := step_move hst
  obtain ⟨hpre, ⟨state, rfl, hstate⟩, horder⟩ := hm.arms hb ht hne
  obtain ⟨m, ha, htype, rfl⟩ := hshows.origin
  refine ⟨hpre, ⟨m, ha, htype, hstate⟩, ?_⟩
  intro hauto
  obtain ⟨hs_order, ht_order, hnumber⟩ := horder hauto
  have hrange := hs.order hs_order
  intro u hu
  rcases List.mem_cons.mp hu with rfl | hu
  · exact ⟨hs_order, hrange⟩
  · rw [List.mem_singleton.mp hu]
    refine ⟨ht_order, ?_⟩
    rw [show t.autoEngage.numberOfTartgets = s.autoEngage.numberOfTartgets
      from hnumber]
    exact hrange

/-- **Armed states are entered only from `PREARMED` by request.**  In every run
    the state word has one base bit, and every step into `ENGAGE_AUTO` or
    `ARMED_MANUAL` is a request for it handled in `PREARMED`. -/
theorem armed_only_from_prearmed (hr : ServerRun P c h s) :
    EveryState (fun u => OneBase u.systemState) h s
      ∧ EveryStep ArmsOnRequest h s := by
  have hsound : ∀ s a t, s.control.Sound → Step P s a t → t.control.Sound :=
    fun _ _ _ => sound_step
  refine ⟨?_, hr.everyStep (fun u => u.control.Sound) (sound_start c) hsound
    fun _ _ _ _ => step_arms⟩
  exact (hr.invariant (fun u => u.control.Sound) (sound_start c) hsound).mono
    fun _ => oneBase_of_sound

/-- A session in which `ENGAGE_AUTO` is entered. -/
theorem armed_only_from_prearmed_engage :
    ∃ h s, ServerRun Session.platform Session.config h s
      ∧ base s.systemState = engageAuto
      ∧ EveryState (fun u => OneBase u.systemState) h s
      ∧ EveryStep ArmsOnRequest h s := by
  obtain ⟨h, s, hr, hs⟩ := Session.reaches Session.engage
    (fun s => base s.systemState = engageAuto) (by decide +kernel)
  exact ⟨h, s, hr, of_decide_eq_true hs, armed_only_from_prearmed hr⟩

/-! ## `SAFE` is left by the pre-arm code -/

/-- A step that leaves `SAFE` handles an `MT_PREARM` with `"12345678"`. -/
def LeavesSafeByPrearm (_ : List (Server × Act)) (s : Server) (a : Act)
    (t : Server) : Prop :=
  base s.systemState = safe → base t.systemState ≠ safe →
    ∃ m, a = .message m ∧ m.buffer.type = mtPrearm
      ∧ (m.mem 0).take 9 = Control.prearmCode

/-- In `SAFE`, an engagement is still at work: `fire(true)` is executed, or the
    list of targets comes to its end. -/
def EngagesInSafe (s : Server) (a : Act) : Prop :=
  base s.systemState = safe
    ∧ ((a = .statement ∧ s.engagement = .fireTrue)
      ∨ ((∃ f, a = .frame f) ∧ s.autoEngage.state = .engagementComplete
        ∧ s.autoEngage.numberOfTartgets ≤ s.autoEngage.currentIndex + 1))

/-- The denied `fire(true)` and the end of the list make the state
    `PREARMED`. -/
theorem step_engagesInSafe {s t : Server} {a : Act} (hst : Step P s a t)
    (h : EngagesInSafe s a) : base t.systemState = prearmed ∧ ∀ m, a ≠ .message m := by
  obtain ⟨hsafe, ⟨rfl, hpc⟩ | ⟨⟨f, rfl⟩, hstate, hlast⟩⟩ := h
  · have hdenied : firingDenied s.control.systemState := Or.inr (Or.inl hsafe)
    have ht := step_statement hst
    rw [Control.statement_fireTrue hpc, Control.fire_true_denied hdenied] at ht
    exact ⟨(congrArg Control.base ht).trans base_prearmed, by rintro m ⟨⟩⟩
  · obtain ⟨result, -, ht⟩ := step_frame hst
    have hframe : s.control.frame result = s.control.nextTarget := by
      rw [Control.frame, show s.control.state = _ from hstate]
    rw [hframe, Control.nextTarget_completed hlast] at ht
    exact ⟨(congrArg Control.base ht).trans base_prearmed, by rintro m ⟨⟩⟩

theorem step_leavesSafe_iff {s t : Server} {a : Act} (hst : Step P s a t) :
    LeavesSafeByPrearm h s a t ↔ ¬ EngagesInSafe s a := by
  constructor
  · intro hleaves hengages
    obtain ⟨hpre, hno⟩ := step_engagesInSafe hst hengages
    obtain ⟨m, rfl, -⟩ := hleaves hengages.1 (by rw [hpre]; decide)
    exact hno m rfl
  · intro hno hsafe hleft
    obtain ⟨e, hshows, hm⟩ := step_move hst
    rcases hm.leavesSafe hsafe hleft with
      ⟨code, rfl, hcode⟩ | ⟨rfl, hpc⟩ | ⟨result, rfl, hstate, hlast⟩
    · obtain ⟨m, ha, htype, rfl⟩ := hshows.origin
      exact ⟨m, ha, htype, hcode⟩
    · exact absurd ⟨hsafe, Or.inl ⟨hshows.statement hpc (by decide), hpc⟩⟩ hno
    · exact absurd ⟨hsafe, Or.inr ⟨hshows.origin, hstate, hlast⟩⟩ hno

/-- **`SAFE` is left only by the pre-arm code**, in exactly the runs in which no
    engagement is at work in `SAFE`. -/
theorem safe_left_by_prearm_iff (hr : ServerRun P c h s) :
    EveryStep LeavesSafeByPrearm h s
      ↔ EveryStep (fun _ s a _ => ¬ EngagesInSafe s a) h s := by
  refine Run.everyStep_iff (fun _ _ => True) trivial ?_ ?_ hr
  · intro _ _ _ _ _ _ _
    trivial
  · intro _ _ _ _ _ hst
    exact step_leavesSafe_iff hst

theorem safe_left_by_prearm_iff_engage :
    ∃ h s, ServerRun Session.platform Session.config h s
      ∧ base s.systemState = engageAuto
      ∧ (EveryStep LeavesSafeByPrearm h s
        ↔ EveryStep (fun _ s a _ => ¬ EngagesInSafe s a) h s) := by
  obtain ⟨h, s, hr, hs⟩ := Session.reaches Session.engage
    (fun s => base s.systemState = engageAuto) (by decide +kernel)
  exact ⟨h, s, hr, of_decide_eq_true hs, safe_left_by_prearm_iff hr⟩

/-- An engagement is signalled and the operator requests `SAFE`: the thread
    comes to `fire(true)`, is denied, and leaves `SAFE` for `PREARMED`. -/
theorem safe_left_by_denied_fire :
    ∃ h s, ServerRun Session.platform Session.config h s
      ∧ ¬ EveryStep LeavesSafeByPrearm h s := by
  obtain ⟨h, s, t, hr, hst, hq⟩ := Session.reaches_step
    (Session.engage ++ [.message (Session.request safe), .statement, .statement]) .statement
    (fun s t => base s.systemState = safe && base t.systemState = prearmed)
    (by decide +kernel)
  obtain ⟨hsafe, hpre⟩ := Bool.and_eq_true_iff.mp hq
  refine ⟨_, t, hr.snoc hst, ?_⟩
  intro hall
  have hleft : base t.systemState ≠ safe := by
    rw [of_decide_eq_true hpre]
    decide
  obtain ⟨m, hm, -⟩ := hall.1 (of_decide_eq_true hsafe) hleft
  cases hm

/-! ## The outputs are off in `SAFE` and `PREARMED` -/

/-- In `SAFE` and in `PREARMED` the cannon and the laser are off. -/
def OffWhenDisarmed (s : Server) : Prop :=
  base s.systemState = safe ∨ base s.systemState = prearmed →
    s.gpio17 = false ∧ s.gpio18 = false

/-- The thread executes `laser(true)` in `SAFE` or `PREARMED`, or the list of
    targets comes to its end while an output is on. -/
def LeavesOn (s : Server) (a : Act) : Prop :=
  (a = .statement ∧ s.engagement = .laserTrue
      ∧ (base s.systemState = safe ∨ base s.systemState = prearmed))
    ∨ ((∃ f, a = .frame f) ∧ s.autoEngage.state = .engagementComplete
      ∧ s.autoEngage.numberOfTartgets ≤ s.autoEngage.currentIndex + 1
      ∧ (s.gpio17 = true ∨ s.gpio18 = true))

theorem step_leavesOn {s t : Server} {a : Act} (hst : Step P s a t)
    (h : LeavesOn s a) : ¬ OffWhenDisarmed t := by
  rcases h with ⟨rfl, hpc, hdisarmed⟩ | ⟨⟨f, rfl⟩, hstate, hlast, hpins⟩
  · have ht := step_statement hst
    rw [Control.statement_laserTrue hpc] at ht
    have hbase : base t.systemState = base s.systemState :=
      (congrArg Control.base ht).trans (Control.base_laser true s.control)
    have hlaser : t.gpio18 = true := congrArg Control.gpio18 ht
    intro hoff
    rw [OffWhenDisarmed, hbase, hlaser] at hoff
    cases (hoff hdisarmed).2
  · obtain ⟨result, -, ht⟩ := step_frame hst
    have hframe : s.control.frame result = s.control.nextTarget := by
      rw [Control.frame, show s.control.state = _ from hstate]
    rw [hframe, Control.nextTarget_completed hlast] at ht
    have hbase : base t.systemState = prearmed :=
      (congrArg Control.base ht).trans base_prearmed
    have h17 : t.gpio17 = s.gpio17 := congrArg Control.gpio17 ht
    have h18 : t.gpio18 = s.gpio18 := congrArg Control.gpio18 ht
    intro hoff
    obtain ⟨hoff17, hoff18⟩ := hoff (Or.inr hbase)
    rcases hpins with hpin | hpin
    · cases (h17.symm.trans hoff17).symm.trans hpin
    · cases (h18.symm.trans hoff18).symm.trans hpin

theorem step_off_of_not_leavesOn {s t : Server} {a : Act} (hs : s.control.Sound)
    (hoff : s.control.Disarmed → s.control.Off) (hst : Step P s a t)
    (hno : ¬ LeavesOn s a) : t.control.Disarmed → t.control.Off := by
  obtain ⟨e, hshows, hm⟩ := step_move hst
  rcases hm.off hs hoff with
    h | ⟨rfl, hpc, hdisarmed⟩ | ⟨result, rfl, hstate, hlast, hpins⟩
  · exact h
  · exact absurd (Or.inl ⟨hshows.statement hpc (by decide), hpc, hdisarmed⟩) hno
  · exact absurd (Or.inr ⟨hshows.origin, hstate, hlast, hpins⟩) hno

/-- **The outputs are off in `SAFE` and `PREARMED`** in exactly the runs in
    which the thread never executes `laser(true)` there and the list of targets
    never ends with an output on. -/
theorem disarmed_off_iff (hr : ServerRun P c h s) :
    EveryState OffWhenDisarmed h s
      ↔ EveryStep (fun _ s a _ => ¬ LeavesOn s a) h s := by
  have hiff : ∀ s a t,
      s.control.Sound ∧ (s.control.Disarmed → s.control.Off) → Step P s a t →
      (OffWhenDisarmed t ↔ ¬ LeavesOn s a) := by
    rintro s a t ⟨hs, hoff⟩ hst
    constructor
    · intro ht hleaves
      exact step_leavesOn hst hleaves ht
    · intro hno hd
      have ht := step_off_of_not_leavesOn hs hoff hst hno hd
      exact ⟨ht.gpio17, ht.gpio18⟩
  refine Run.everyState_iff
    (fun s => s.control.Sound ∧ (s.control.Disarmed → s.control.Off))
    ⟨sound_start c, fun _ => ⟨rfl, rfl, (has_base_state .laserOn).1⟩⟩
    (fun _ => ⟨rfl, rfl⟩) ?_ hiff hr
  intro s a t hs hst ht
  exact ⟨sound_step hs.1 hst,
    step_off_of_not_leavesOn hs.1 hs.2 hst ((hiff s a t hs hst).mp ht)⟩

theorem disarmed_off_iff_engage :
    ∃ h s, ServerRun Session.platform Session.config h s
      ∧ base s.systemState = engageAuto
      ∧ (EveryState OffWhenDisarmed h s
        ↔ EveryStep (fun _ s a _ => ¬ LeavesOn s a) h s) := by
  obtain ⟨h, s, hr, hs⟩ := Session.reaches Session.engage
    (fun s => base s.systemState = engageAuto) (by decide +kernel)
  exact ⟨h, s, hr, of_decide_eq_true hs, disarmed_off_iff hr⟩

/-- An engagement is signalled and the operator requests `SAFE`: the thread
    switches the laser on in `SAFE`. -/
theorem laser_on_in_safe :
    ∃ h s, ServerRun Session.platform Session.config h s
      ∧ ¬ EveryState OffWhenDisarmed h s := by
  obtain ⟨h, s, hr, hs⟩ := Session.reaches
    (Session.engage ++ [.message (Session.request safe), .statement])
    (fun s => base s.systemState = safe && s.gpio18) (by decide +kernel)
  obtain ⟨hsafe, hlaser⟩ := Bool.and_eq_true_iff.mp hs
  refine ⟨h, s, hr, ?_⟩
  intro hall
  have hoff := (hall.last (Or.inl (of_decide_eq_true hsafe))).2
  cases hoff.symm.trans hlaser

end Runs

end DemoCannon
