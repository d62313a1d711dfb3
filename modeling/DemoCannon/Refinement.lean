import DemoCannon.Control
import DemoCannon.System

/-! # The server refines the machine that controls the outputs

    Each function of the server acts on the control part of the state as an
    operation of `Control`; sends, log, servos, calibration, camera and the
    user table leave it alone.  So every step of the server is an event of the
    machine, `step_control`. -/

namespace DemoCannon

open Interaction Interaction.Program SystemState

/-! ## The server's functions on the control part -/

theorem blindToOled_control : BlindToOled Server.control := fun _ _ => rfl

theorem keeps_control_send : Keeps Server.control sendCurrentState :=
  keeps_sendCurrentState blindToOled_control

theorem blindToServos_control : BlindToServos Server.control :=
  ⟨fun _ _ num => by cases num <;> rfl, fun _ num => by cases num <;> rfl⟩

theorem keeps_control_servoAngle (num : ServoNum) :
    Keeps Server.control (servoAngle num) := keeps_servoAngle blindToServos_control num

theorem keeps_control_step (num : ServoNum) (delta : Rat) :
    Keeps Server.control (step num delta) :=
  Acts.update_then (fun s => by cases num <;> rfl)
    fun _ => keeps_control_servoAngle num

theorem acts_fire (value : Bool) :
    Acts Server.control (Control.fire value) (fire value) := by
  refine Acts.test (fun c : Control => value = true ∧ firingDenied c.systemState)
    ?_ ?_
  · intro _
    refine (keeps_say _).keeps_bind fun _ => ?_
    exact Acts.update_then (fun _ => rfl) fun _ => keeps_control_send
  · intro _
    refine (keeps_lock .gpio).keeps_bind fun _ => ?_
    cases value with
    | true =>
        refine (keeps_auditlog _).keeps_bind fun _ => ?_
        exact Acts.seq (fun c => { c with systemState := c.systemState ||| firing })
          (fun c => { c with gpio17 := true }) (Acts.update fun _ => rfl)
          (fun _ => Acts.update_then (fun _ => rfl) fun _ => keeps_unlock .gpio)
          fun _ => rfl
    | false =>
        exact Acts.seq
          (fun c => { c with systemState := c.systemState &&& clearFiringMask })
          (fun c => { c with gpio17 := false }) (Acts.update fun _ => rfl)
          (fun _ => Acts.update_then (fun _ => rfl) fun _ => keeps_unlock .gpio)
          fun _ => rfl

theorem acts_laser (value : Bool) :
    Acts Server.control (Control.laser value) (laser value) := by
  refine (keeps_lock .gpio).keeps_bind fun _ => ?_
  cases value with
  | true =>
      refine (keeps_auditlog _).keeps_bind fun _ => ?_
      exact Acts.seq (Control.flag laserOn true) (fun c => { c with gpio18 := true })
        (Acts.update fun _ => rfl)
        (fun _ => Acts.update_then (fun _ => rfl) fun _ => keeps_unlock .gpio)
        fun _ => rfl
  | false =>
      exact Acts.seq (Control.flag laserOn false) (fun c => { c with gpio18 := false })
        (Acts.update fun _ => rfl)
        (fun _ => Acts.update_then (fun _ => rfl) fun _ => keeps_unlock .gpio)
        fun _ => rfl

theorem acts_armed (value : Bool) :
    Acts Server.control (Control.flag SystemState.armed value) (armed value) := by
  refine (keeps_lock .gpio).keeps_bind fun _ => ?_
  cases value with
  | true => exact Acts.update_then (fun _ => rfl) fun _ => keeps_unlock .gpio
  | false => exact Acts.update_then (fun _ => rfl) fun _ => keeps_unlock .gpio

theorem acts_calibrate (value : Bool) :
    Acts Server.control (Control.flag calibOn value) (calibrate value) := by
  refine (keeps_lock .gpio).keeps_bind fun _ => ?_
  cases value with
  | true => exact Acts.update_then (fun _ => rfl) fun _ => keeps_unlock .gpio
  | false => exact Acts.update_then (fun _ => rfl) fun _ => keeps_unlock .gpio

/-! ### Requests -/

theorem acts_setState (state : SystemState) :
    Acts Server.control (fun c => { c with systemState := state })
      (setState state) :=
  Acts.update fun _ => rfl

theorem acts_clear :
    Acts Server.control Control.clearOrder (updateAuto TAutoEngage.clear) :=
  Acts.update fun _ => rfl

/-- Laser, calibration and cannon off and then `q`. -/
theorem acts_offThen {q : Prog Unit} {f g : Control → Control}
    (hq : Acts Server.control g q)
    (h : ∀ c, g (((c.laser false).flag calibOn false).fire false) = f c) :
    Acts Server.control f (do
      laser false
      calibrate false
      fire false
      q) := by
  refine Acts.seq (Control.laser false)
    (fun c => g ((c.flag calibOn false).fire false)) (acts_laser false) ?_ h
  intro _
  refine Acts.seq (Control.flag calibOn false) (fun c => g (c.fire false))
    (acts_calibrate false) ?_ fun _ => rfl
  intro _
  exact (acts_fire false).bind fun _ => hq

theorem acts_requestSafe (state : SystemState) :
    Acts Server.control (fun c => (c.standDown state.base).clearOrder)
      (requestSafe state) := by
  refine acts_offThen ((acts_setState state.base).bind fun _ => acts_clear) ?_
  intro c
  rfl

theorem acts_requestPrearmed (state : SystemState) :
    Acts Server.control
      (fun c =>
        if c.base = engageAuto then (c.standDown state.base).clearOrder
        else if c.base = armedManual then c.standDown state.base
        else c) (requestPrearmed state) := by
  have hlast : Acts Server.control
      (fun c =>
        if c.base = engageAuto then
          { c.clearOrder with systemState := state.base }
        else { c with systemState := state.base }) (do
      let s ← fetch
      if base s.systemState = engageAuto then updateAuto TAutoEngage.clear
      else pure ()
      setState (base state) : Prog Unit) := by
    refine Acts.test (fun c : Control => c.base = engageAuto) ?_ ?_
    · intro _
      exact acts_clear.bind fun _ => acts_setState state.base
    · intro _
      exact acts_setState state.base
  refine Acts.congr (Acts.test
    (fun c : Control => c.base = engageAuto ∨ c.base = armedManual)
    (fun _ => (acts_laser false).bind fun _ => (acts_fire false).bind
      fun _ => (acts_calibrate false).bind fun _ => hlast)
    fun _ => Acts.pure ()) ?_
  intro c
  -- switching off keeps the base, so the second test is on the base as it was
  have hbase : (((c.laser false).fire false).flag calibOn false).base = c.base :=
    (Control.base_flag .calibOn false _).trans
      ((Control.base_fire_false _).trans (Control.base_laser false c))
  by_cases hauto : c.base = engageAuto
  · simp only [Function.comp_apply, hbase, hauto, if_true, true_or]
    rfl
  · by_cases hmanual : c.base = armedManual
    · simp only [Function.comp_apply, hbase, hmanual]
      rfl
    · simp only [hauto, hmanual]
      rfl

theorem acts_requestEngageAuto (state : SystemState) :
    Acts Server.control
      (fun c =>
        if c.base = prearmed ∧ c.haveFiringOrder = true then
          { c.standDown state.base with state := .activate }
        else c) (requestEngageAuto state) := by
  have hactivate : Acts Server.control
      (fun c : Control => { c with systemState := state.base, state := .activate })
      (do
        setState state.base
        updateAuto fun a => { a with state := .activate } : Prog Unit) :=
    Acts.seq (fun c => { c with systemState := state.base })
      (fun c => { c with state := .activate }) (acts_setState state.base)
      (fun _ => Acts.update fun _ => rfl) fun _ => rfl
  refine Acts.fetch ?_
  intro s
  by_cases hbase : base s.systemState = prearmed
  · rw [if_neg (fun h => h hbase)]
    cases horder : s.autoEngage.haveFiringOrder with
    | false =>
        rw [if_pos rfl, if_neg (by simp [Server.control, horder])]
        exact keeps_say _ s
    | true =>
        rw [if_neg (by decide), if_pos ⟨hbase, horder⟩]
        exact acts_offThen hactivate (fun _ => rfl) s
  · rw [if_pos hbase, if_neg (fun h => hbase h.1)]
    exact keeps_say _ s

theorem acts_requestArmedManual (state : SystemState) :
    Acts Server.control
      (fun c =>
        if c.base = prearmed then c.standDown state.base
        else if c.base = armedManual then { c with systemState := state }
        else c) (requestArmedManual state) := by
  refine Acts.fetch ?_
  intro s
  by_cases hpre : s.control.base = prearmed
  · rw [if_neg (fun h => h.1 hpre), if_pos hpre]
    change Post (if s.control.base = prearmed then _ else _) s _
    rw [if_pos hpre]
    exact acts_offThen (acts_setState state.base) (fun _ => rfl) s
  · by_cases hmanual : s.control.base = armedManual
    · rw [if_neg (fun h => h.2 hmanual), if_neg hpre, if_pos hmanual]
      change Post (if s.control.base = prearmed then _ else _) s _
      rw [if_neg hpre]
      exact acts_setState state s
    · rw [if_pos ⟨hpre, hmanual⟩, if_neg hpre, if_neg hmanual]
      exact keeps_say _ s

/-- Writing a flag as it is changes nothing. -/
theorem Control.flag_has {f : SystemState} (hf : IsFlag f) (c : Control) :
    c.flag f (has c.systemState f) = c := by
  cases h : has c.systemState f with
  | true => exact congrArg (fun w => { c with systemState := w }) (or_flag_of_has hf h)
  | false =>
      exact congrArg (fun w => { c with systemState := w })
        (clear_flag_of_not_has hf h)

theorem Control.laser_has (c : Control) :
    c.laser (has c.systemState laserOn) = c.showLaser :=
  congrArg (fun d => { d with gpio18 := has c.systemState laserOn })
    (c.flag_has .laserOn)

theorem blindToOffsets_control : BlindToOffsets Server.control :=
  ⟨fun _ _ => rfl, fun _ _ => rfl⟩

theorem blindToIni_control : BlindToIni Server.control :=
  ⟨fun _ _ => rfl, fun _ _ => rfl⟩

/-- The laser and the calibration are written as the state word has them. -/
theorem acts_applyFlags : Acts Server.control Control.showLaser applyFlags := by
  have hcalib : Keeps Server.control (do
      let s ← fetch
      if has s.systemState calibOn then
        calibrate true
        update fun s => { s with calibrateWasOn := true }
        sendCurrentState
      else
        calibrate false
        let s ← fetch
        if s.calibrateWasOn then
          update fun s => { s with calibrateWasOn := false }
          writeOffsets
          sendCurrentState
        else sendCurrentState : Prog Unit) := by
    refine Acts.fetch ?_
    intro s
    -- either branch writes the calibration flag as it already is
    have hsame := s.control.flag_has .calibOn
    cases h : has s.systemState calibOn with
    | true =>
        rw [show has s.control.systemState calibOn = true from h] at hsame
        rw [if_pos rfl, id, ← hsame]
        exact (acts_calibrate true).bind_keeps
          (fun _ => keeps_calibrationOn blindToIni_control blindToOled_control) s
    | false =>
        rw [show has s.control.systemState calibOn = false from h] at hsame
        rw [if_neg (by decide), id, ← hsame]
        exact (acts_calibrate false).bind_keeps
          (fun _ => keeps_calibrationOff blindToIni_control blindToOled_control) s
  refine Acts.fetch ?_
  intro s
  rw [← Control.laser_has]
  exact (acts_laser _).bind_keeps (fun _ => hcalib) s

/-- `ProcessStateChangeRequest` is a request of the machine. -/
theorem acts_processStateChangeRequest (state : SystemState) :
    Acts Server.control (Control.request state)
      (processStateChangeRequest state) := by
  have hthen : ∀ {f : Control → Control} {p : Prog Unit},
      Acts Server.control f p → (∀ c : Control, f c = c.change state) →
      Acts Server.control (Control.request state) (p >>= fun _ => applyFlags) :=
    fun {f} {p} hp hf => Acts.seq f Control.showLaser hp (fun _ => acts_applyFlags)
      fun c => congrArg Control.showLaser (hf c)
  rw [processStateChangeRequest]
  dsimp only
  by_cases hsafe : state.base = safe
  · rw [if_pos hsafe]
    refine hthen (acts_requestSafe state) fun c => ?_
    rw [Control.change, if_pos hsafe, hsafe]
  rw [if_neg hsafe]
  by_cases hpre : state.base = prearmed
  · rw [if_pos hpre]
    refine hthen (acts_requestPrearmed state) fun c => ?_
    rw [Control.change, if_neg hsafe, if_pos hpre, hpre]
  rw [if_neg hpre]
  by_cases hauto : state.base = engageAuto
  · rw [if_pos hauto]
    refine hthen (acts_requestEngageAuto state) fun c => ?_
    rw [Control.change, if_neg hsafe, if_neg hpre, if_pos hauto, hauto]
  rw [if_neg hauto]
  by_cases hmanual : state.base = armedManual
  · rw [if_pos hmanual]
    refine hthen (acts_requestArmedManual state) fun c => ?_
    rw [Control.change, if_neg hsafe, if_neg hpre, if_neg hauto, if_pos hmanual,
      hmanual]
  · rw [if_neg hmanual]
    refine acts_applyFlags.congr fun c => ?_
    rw [Control.request, Control.change, if_neg hsafe, if_neg hpre, if_neg hauto,
      if_neg hmanual]

/-! ### Orders, commands and pre-arm codes -/

/-- The copying loop ends with every character a digit. -/
theorem copyOrder_snd (bs : Bytes) (i : Nat) (targets : Vector Nat 10) :
    (copyOrder bs i targets).2 = bs.all isDigit := by
  induction bs generalizing i targets with
  | nil => rfl
  | cons c rest ih =>
      rw [copyOrder, List.all_cons]
      cases hc : isDigit c with
      | true => rw [if_pos rfl, ih, Bool.true_and]
      | false => rw [if_neg (by decide), Bool.false_and]

theorem acts_processFiringOrder (firingOrder : Bytes) :
    Acts Server.control (Control.order firingOrder)
      (processFiringOrder firingOrder) := by
  have hcopy : ∀ targets, Keeps Server.control
      (updateAuto fun a => { a with firingOrder := targets }) :=
    fun _ => Acts.update fun _ => rfl
  have hclear : Acts Server.control Control.clearOrder
      (updateAuto fun a => { a.clear with target := 0 }) :=
    Acts.update fun _ => rfl
  -- the last write of an empty order repeats the first, so it counts here
  have hcompose : ∀ c : Control,
      (if Control.IsOrder firingOrder then
        { c.clearOrder with
          haveFiringOrder := true
          numberOfTartgets := strlen firingOrder }
      else if 0 < strlen firingOrder then c.clearOrder
      else { c.clearOrder with haveFiringOrder := false })
        = c.order firingOrder := by
    intro c
    by_cases hpos : 0 < strlen firingOrder
    · rw [if_pos hpos]; rfl
    · rw [if_neg hpos]; rfl
  refine Acts.seq Control.clearOrder
    (fun c =>
      if Control.IsOrder firingOrder then
        { c with
          haveFiringOrder := true
          numberOfTartgets := strlen firingOrder }
      else if 0 < strlen firingOrder then c
      else { c with haveFiringOrder := false }) hclear ?_ hcompose
  intro _
  by_cases hlen : 10 < strlen firingOrder
  · rw [if_pos hlen]
    refine (Acts.pure ()).congr fun c => ?_
    rw [if_neg (fun h : Control.IsOrder firingOrder => absurd h.2.1 (by omega)),
      if_pos (by omega), id]
  rw [if_neg hlen]
  refine Acts.read fun s => (hcopy _).keeps_bind fun _ => ?_
  rw [copyOrder_snd]
  cases hdigits : (firingOrder.take (strlen firingOrder)).all isDigit with
  | false =>
      -- an empty order has no character that is no digit
      have hpos : 0 < strlen firingOrder := by
        rcases Nat.eq_zero_or_pos (strlen firingOrder) with h0 | hpos
        · rw [h0] at hdigits
          cases hdigits
        · exact hpos
      have hno : ¬ Control.IsOrder firingOrder := fun h => by
        rw [h.2.2] at hdigits
        cases hdigits
      rw [if_pos rfl]
      refine (Acts.pure ()).congr fun c => ?_
      rw [if_neg hno, if_pos hpos, id]
  | true =>
      rw [if_neg (by decide)]
      by_cases hpos : 0 < strlen firingOrder
      · rw [if_pos hpos]
        refine Acts.seq (fun c => { c with haveFiringOrder := true })
          (fun c => { c with numberOfTartgets := strlen firingOrder })
          (Acts.update fun _ => rfl) (fun _ => Acts.update fun _ => rfl) fun c => ?_
        rw [if_pos ⟨hpos, by omega, hdigits⟩]
      · rw [if_neg hpos]
        refine Acts.seq (fun c => { c with haveFiringOrder := false }) id
          (Acts.update fun _ => rfl) (fun _ => keeps_say _) fun c => ?_
        rw [if_neg (fun h : Control.IsOrder firingOrder => hpos h.1), if_neg hpos, id]

theorem Control.command_start {c : Control} (h : c.base = armedManual) :
    c.command fireStart = c.fire true := if_pos ⟨h, rfl⟩

theorem Control.command_stop {c : Control} (h : c.base = armedManual) :
    c.command fireStop = c.fire false := by
  rw [command, if_neg (fun h => absurd h.2 (by decide)), if_pos ⟨h, rfl⟩]

theorem Control.command_other {c : Control} {cmd : UInt8}
    (h : ¬ ((cmd = fireStart ∨ cmd = fireStop) ∧ c.base = armedManual)) :
    c.command cmd = c := by
  rw [command, if_neg (fun hc => h ⟨Or.inl hc.2, hc.1⟩),
    if_neg (fun hc => h ⟨Or.inr hc.2, hc.1⟩)]

theorem acts_processCommands (cmd : UInt8) :
    Acts Server.control (Control.command cmd) (processCommands cmd) := by
  have hrun : ∀ on off, Keeps Server.control (runCmd on off) :=
    fun _ _ => Acts.update fun _ => rfl
  have hmove : ∀ on off num delta, Keeps Server.control (do
      runCmd on off
      step num delta : Prog Unit) :=
    fun on off num delta =>
      (hrun on off).keeps_bind fun _ => keeps_control_step num delta
  have hfire : ∀ on off value, Acts Server.control (Control.fire value) (do
      runCmd on off
      fire value
      sendCurrentState : Prog Unit) :=
    fun on off value => (hrun on off).keeps_bind fun _ =>
      (acts_fire value).bind_keeps fun _ => keeps_control_send
  refine Acts.fetch ?_
  intro s
  by_cases hstate : base s.systemState ≠ prearmed ∧ base s.systemState ≠ armedManual
  · have hsame : s.control.command cmd = s.control :=
      Control.command_other fun h => hstate.2 h.2
    rw [if_pos hstate, hsame]
    exact Acts.pure () s
  by_cases hdenied : (cmd = fireStart ∨ cmd = fireStop)
      ∧ base s.systemState ≠ armedManual
  · have hsame : s.control.command cmd = s.control :=
      Control.command_other fun h => hdenied.2 h.2
    rw [if_neg hstate, if_pos hdenied, hsame]
    exact Acts.pure () s
  rw [if_neg hstate, if_neg hdenied]
  by_cases hfires : cmd = fireStart ∨ cmd = fireStop
  · have hmanual : s.control.base = armedManual :=
      Decidable.byContradiction fun h => hdenied ⟨hfires, h⟩
    rcases hfires with rfl | rfl
    · rw [Control.command_start hmanual]
      exact hfire _ _ true s
    · rw [Control.command_stop hmanual]
      exact hfire _ _ false s
  · -- the other commands move a servo or write `RunCmds`
    have hstart : cmd ≠ fireStart := fun h => hfires (Or.inl h)
    have hstop : cmd ≠ fireStop := fun h => hfires (Or.inr h)
    rw [Control.command_other (fun h => hfires h.1), if_neg hstart, if_neg hstop]
    exact (hmove _ _ _ _).ite ((hmove _ _ _ _).ite ((hmove _ _ _ _).ite
      ((hmove _ _ _ _).ite ((hrun _ _).ite ((hrun _ _).ite ((hrun _ _).ite
        ((hrun _ _).ite (Acts.pure ())))))))) s

/-- Decoding twice gives the code back. -/
theorem zipWith_xor_xor (code key : Bytes) (h : code.length ≤ key.length) :
    List.zipWith (· ^^^ ·) (List.zipWith (· ^^^ ·) code key) key = code := by
  induction code generalizing key with
  | nil => rfl
  | cons c rest ih =>
      cases key with
      | nil => exact absurd h (by simp)
      | cons k key =>
          rw [List.zipWith_cons_cons, List.zipWith_cons_cons,
            ih key (Nat.le_of_succ_le_succ h), UInt8.xor_assoc, UInt8.xor_self,
            UInt8.xor_zero]

/-- The check of `ProcessPreArm` accepts one code. -/
theorem prearm_iff (code : Bytes) :
    ((code[decode.length]? = some 0 ∧ strlen code = decode.length)
        ∧ (xorDecode code).takeWhile (· ≠ 0) = prearmedText)
      ↔ code.take 9 = Control.prearmCode := by
  constructor
  · rintro ⟨⟨hnul, -⟩, htext⟩
    have h8 : 8 < code.length := (List.getElem?_eq_some_iff.mp hnul).1
    have hlen : (code.take 8).length = 8 := List.length_take_of_le (by omega)
    have hdecoded : List.zipWith (· ^^^ ·) (code.take 8) decode = prearmedText := by
      have hprefix : prearmedText <+: xorDecode code :=
        htext ▸ List.takeWhile_prefix _
      rw [List.prefix_iff_eq_take.mp hprefix]
      refine (List.take_left' ?_).symm
      rw [List.length_zipWith]
      exact congrArg (min · 8) hlen
    -- decoding once more gives back what was sent
    have hcode : code.take 8 = List.zipWith (· ^^^ ·) prearmedText decode := by
      rw [← hdecoded, zipWith_xor_xor _ _ (Nat.le_of_eq hlen)]
    rw [List.take_add_one, hcode]
    exact congrArg _ (congrArg Option.toList hnul)
  · intro h
    obtain ⟨rest, rfl⟩ : ∃ rest, code = Control.prearmCode ++ rest :=
      ⟨code.drop 9, by rw [← h, List.take_append_drop]⟩
    exact ⟨⟨rfl, rfl⟩, rfl⟩

theorem acts_processPreArm (code : Bytes) :
    Acts Server.control (Control.prearm code) (processPreArm code) := by
  have haccept : Acts Server.control (fun c => { c with systemState := prearmed })
      (do
        update fun s => { s with systemState := prearmed }
        sendCurrentState : Prog Unit) :=
    Acts.update_then (fun _ => rfl) fun _ => keeps_control_send
  refine Acts.fetch ?_
  intro s
  by_cases hsafe : s.systemState = safe
  · rw [if_pos hsafe]
    by_cases hcode : code.take 9 = Control.prearmCode
    · obtain ⟨hlen, htext⟩ := (prearm_iff code).mpr hcode
      have hyes : s.control.prearm code = { s.control with systemState := prearmed } :=
        if_pos ⟨hsafe, hcode⟩
      rw [if_pos hlen, if_pos htext, hyes]
      exact haccept s
    · have hno : s.control.prearm code = s.control := if_neg fun h => hcode h.2
      rw [hno]
      by_cases hlen : code[decode.length]? = some 0 ∧ strlen code = decode.length
      · rw [if_pos hlen,
          if_neg (fun htext => hcode ((prearm_iff code).mp ⟨hlen, htext⟩))]
        exact Acts.pure () s
      · rw [if_neg hlen]
        exact keeps_say _ s
  · have hno : s.control.prearm code = s.control := if_neg fun h => hsafe h.1
    rw [if_neg hsafe, hno]
    exact Acts.pure () s

/-! ### Logins -/

/-- What a login may change, next to sends and threads. -/
def Server.loginView (s : Server) : Control × List UserRow := (s.control, s.user)

/-- `ProcessLogin` comes to its end with a result, and leaves that. -/
theorem post_processLogin (P : Platform) (m : Received) (s : Server) :
    Post (processLogin P m) s (fun _ t => ∃ l users,
      checkLogin P m s.user = some (l, users)
        ∧ t.control = { s.control with isLoggedIn := decide (l = .loginOk) }
        ∧ t.user = users) := by
  rw [processLogin, post_bind, post_fetch]
  cases hcheck : checkLogin P m s.user with
  | none => exact (post_exit _ s _).mpr trivial
  | some result =>
      obtain ⟨l, users⟩ := result
      have hheartBeat : Keeps Server.loginView (do
          let s ← fetch
          if s.isLoggedIn = true ∧ s.heartBeatThread = false then
            let created : Int ← call .pthreadCreate
            if created ≠ 0 then .exit .pthreadCreate
            else update fun s => { s with heartBeatThread := true }
          else pure () : Prog Unit) :=
        Acts.read fun _ => Acts.ite
          ((Acts.ask _).keeps_bind fun (_ : Int) =>
            Acts.ite (Acts.exit _) (Acts.update fun _ => rfl)) (Acts.pure ())
      have hwrite : Acts Server.loginView
          (fun v => ({ v.1 with isLoggedIn := decide (l = .loginOk) }, v.2))
          (update fun s => { s with isLoggedIn := decide (l = .loginOk) }
            : Prog Unit) :=
        Acts.update fun _ => rfl
      have husers : Acts Server.loginView (fun v => (v.1, users))
          (update fun s => { s with user := users } : Prog Unit) :=
        Acts.update fun _ => rfl
      refine (husers.bind (fun _ => (keeps_sendLoginState _).keeps_bind fun _ =>
        hwrite.bind_keeps fun _ => hheartBeat) s).mono ?_
      intro _ t ht
      exact ⟨l, users, rfl, congrArg Prod.fst ht, congrArg Prod.snd ht⟩

/-! ### Frames -/

/-- The results of `TryToMatch`. -/
def IsMatchResult (state : TEngagementState) : Prop :=
  state = .lookingForTarget ∨ state = .tracking ∨ state = .trackingStable
    ∨ state = .engagementComplete

theorem isMatchResult_ite (c : Prop) [Decidable c] :
    IsMatchResult (if c then .trackingStable else .tracking) := by
  by_cases h : c
  · rw [if_pos h]; exact Or.inr (Or.inr (Or.inl rfl))
  · rw [if_neg h]; exact Or.inr (Or.inl rfl)

theorem returns_countStable : Returns IsMatchResult countStable :=
  Returns.bind fun _ => Returns.bind fun _ => Returns.pure (isMatchResult_ite _)

theorem returns_aimTilt (f : Frame) (d : TDetectedMatches) :
    Returns IsMatchResult (aimTilt f d) := by
  refine Returns.bind fun s => Returns.bind fun _ => Returns.bind fun s => ?_
  refine Returns.ite (Returns.bind fun _ => returns_countStable) ?_
  exact Returns.bind fun _ => Returns.pure (Or.inr (Or.inr (Or.inr rfl)))

theorem returns_aimAt (f : Frame) (d : TDetectedMatches) :
    Returns IsMatchResult (aimAt f d) := by
  refine Returns.bind fun s => Returns.bind fun _ => Returns.bind fun s => ?_
  refine Returns.ite (Returns.bind fun _ => returns_aimTilt f d) ?_
  exact Returns.bind fun _ => Returns.pure (Or.inr (Or.inr (Or.inr rfl)))

theorem returns_lookOn (f : Frame) : Returns IsMatchResult (lookOn f) := by
  refine Returns.bind fun s => Returns.ite ?_ (Returns.ite ?_ ?_)
  · exact Returns.bind fun _ => Returns.pure (Or.inl rfl)
  · exact Returns.pure (Or.inr (Or.inr (Or.inr rfl)))
  · exact Returns.pure (Or.inl rfl)

theorem returns_tryToMatch (f : Frame) : Returns IsMatchResult (tryToMatch f) := by
  refine Returns.bind fun s => ?_
  cases f.detectedMatches.find? _ with
  | some d =>
      exact Returns.seq (returns_aimAt f d) fun state hstate =>
        Returns.ite (Returns.bind fun _ => Returns.pure hstate) (Returns.pure hstate)
  | none =>
      exact Returns.seq (returns_lookOn f) fun state hstate =>
        Returns.ite (Returns.bind fun _ => Returns.pure hstate) (Returns.pure hstate)

theorem keeps_countStable : Keeps Server.control countStable :=
  Acts.read fun _ => Acts.update_then (fun _ => rfl) fun _ => Acts.pure _

theorem keeps_aimTilt (f : Frame) (d : TDetectedMatches) :
    Keeps Server.control (aimTilt f d) := by
  refine Acts.read fun s => Acts.update_then (fun _ => rfl) fun _ => Acts.read fun s => ?_
  refine Acts.ite ?_ ((keeps_say _).keeps_bind fun _ => Acts.pure _)
  exact (keeps_control_servoAngle _).keeps_bind fun _ => keeps_countStable

theorem keeps_aimAt (f : Frame) (d : TDetectedMatches) :
    Keeps Server.control (aimAt f d) := by
  refine Acts.read fun s => Acts.update_then (fun _ => rfl) fun _ => Acts.read fun s => ?_
  refine Acts.ite ?_ ((keeps_say _).keeps_bind fun _ => Acts.pure _)
  exact (keeps_control_servoAngle _).keeps_bind fun _ => keeps_aimTilt f d

theorem keeps_lookOn (f : Frame) : Keeps Server.control (lookOn f) := by
  refine Acts.read fun s => Acts.ite ?_ (Acts.ite (Acts.pure _) (Acts.pure _))
  exact Acts.update_then (fun _ => rfl) fun _ => Acts.pure _

theorem keeps_tryToMatch (f : Frame) : Keeps Server.control (tryToMatch f) := by
  refine Acts.read fun s => ?_
  cases f.detectedMatches.find? _ with
  | some d =>
      exact (keeps_aimAt f d).keeps_bind fun state =>
        Acts.ite (Acts.update_then (fun _ => rfl) fun _ => Acts.pure _) (Acts.pure _)
  | none =>
      exact (keeps_lookOn f).keeps_bind fun state =>
        Acts.ite (Acts.update_then (fun _ => rfl) fun _ => Acts.pure _) (Acts.pure _)

theorem control_signal (s : Server) : s.signal.control = s.control.signal := by
  by_cases h : s.engagement = .waiting
  · have hc : s.control.engagement = .waiting := h
    rw [Server.signal, Control.signal, if_pos h, if_pos hc]
    rfl
  · have hc : s.control.engagement ≠ .waiting := h
    rw [Server.signal, Control.signal, if_neg h, if_neg hc]

theorem acts_enterState (state : TEngagementState) :
    Acts Server.control (Control.enter state) (enterState state) := by
  refine Acts.read fun s => ?_
  cases state with
  | lookingForTarget =>
      exact (acts_armed false).bind_keeps fun _ =>
        keeps_control_send.keeps_bind fun _ => keeps_say _
  | tracking =>
      exact (acts_armed true).bind_keeps fun _ =>
        keeps_control_send.keeps_bind fun _ => keeps_say _
  | trackingStable =>
      -- a signal that fails ends the process, and so no step
      refine (keeps_say _).keeps_bind fun _ => ?_
      refine Acts.seq (fun c => { c with state := .engagementInProgress })
        Control.signal (Acts.update fun _ => rfl) (fun _ => ?_) fun _ => rfl
      exact (Acts.ask _).keeps_bind fun (_ : Int) =>
        Acts.ite (Acts.exit _) (Acts.update control_signal)
  | engagementComplete =>
      exact (keeps_say _).keeps_bind fun _ => keeps_auditlog _
  | notActive | activate | newTarget | engagementInProgress => exact Acts.pure ()

theorem acts_nextTarget : Acts Server.control Control.nextTarget nextTarget := by
  refine Acts.seq (fun c => { c with currentIndex := c.currentIndex + 1 })
    (fun c =>
      if c.numberOfTartgets ≤ c.currentIndex then
        { c with state := .notActive, systemState := prearmed }
      else { c with state := .newTarget }) (Acts.update fun _ => rfl) ?_ fun _ => rfl
  intro _
  refine Acts.test (fun c : Control => c.numberOfTartgets ≤ c.currentIndex) ?_ ?_
  · intro _
    refine Acts.seq (fun c => { c with state := .notActive })
      (fun c => { c with systemState := prearmed })
      (Acts.update fun _ => rfl) (fun _ => ?_) fun _ => rfl
    exact Acts.update_then (fun _ => rfl)
      fun _ => keeps_control_send.keeps_bind fun _ => keeps_say _
  · intro _
    exact Acts.update fun _ => rfl

/-- `case LOOKING_FOR_TARGET` and `case TRACKING`, with whatever is known of the
    result of `TryToMatch`. -/
theorem post_track_of {R : TEngagementState → Prop} {f : Frame} {s : Server}
    (hR : Post (tryToMatch f) s (fun result _ => R result)) (newState : Bool) :
    Post (track f newState) s (fun _ t => ∃ result,
      R result ∧ t.control = s.control.track newState result) := by
  have hrest : ∀ state : TEngagementState,
      Acts Server.control (Control.track newState state) (do
        let s ← fetch
        let changed := decide (s.autoEngage.state ≠ state)
        if changed then updateAuto fun a => { a with state := state } else pure ()
        if newState || changed then enterState state else pure () : Prog Unit) := by
    intro state
    refine Acts.fetch ?_
    intro s
    cases hchanged : decide (s.autoEngage.state ≠ state) with
    | true =>
        have htrack : s.control.track newState state
            = { s.control with state := state }.enter state :=
          if_pos (by rw [show decide (s.control.state ≠ state) = true from hchanged,
            Bool.or_true])
        have henter : Acts Server.control (Control.enter state)
            (if newState || true then enterState state else pure ()) := by
          rw [Bool.or_true, if_pos rfl]
          exact acts_enterState state
        have hupdate : Acts Server.control (fun c => { c with state := state })
            (updateAuto fun a => { a with state := state }) :=
          Acts.update fun _ => rfl
        rw [htrack]
        exact hupdate.bind (fun _ => henter) s
    | false =>
        -- nothing is written, which is writing the state it has
        have hstate : s.control.state = state :=
          Decidable.not_not.mp (of_decide_eq_false hchanged)
        have hsame : { s.control with state := state } = s.control :=
          congrArg (fun x => { s.control with state := x }) hstate.symm
        rw [Control.track, hsame,
          show decide (s.control.state ≠ state) = false from hchanged, Bool.or_false]
        cases newState with
        | true => exact acts_enterState state s
        | false => exact Acts.pure () s
  rw [track, post_bind]
  refine (hR.and (keeps_tryToMatch f s)).mono ?_
  rintro result m ⟨hresult, hm⟩
  refine (hrest result m).mono ?_
  intro _ t ht
  exact ⟨result, hresult, by rw [ht, hm, id]⟩

theorem post_track (f : Frame) (newState : Bool) (s : Server) :
    Post (track f newState) s (fun _ t => ∃ result,
      IsMatchResult result ∧ t.control = s.control.track newState result) :=
  post_track_of (returns_tryToMatch f s) newState

theorem post_processTargetEngagements (f : Frame) (s : Server) :
    Post (processTargetEngagements f) s (fun _ t => ∃ result,
      IsMatchResult result ∧ t.control = s.control.frame result) := by
  have hselect : Keeps Server.control selectTarget := Acts.update fun _ => rfl
  -- where nothing is looked for, any result will do
  have hany : ∀ {t : Server}, t.control = s.control.frame .tracking →
      ∃ result, IsMatchResult result ∧ t.control = s.control.frame result :=
    fun h => ⟨.tracking, Or.inr (Or.inl rfl), h⟩
  have htrack : ∀ {newState : Bool} {m : Server},
      (∀ result, s.control.frame result = m.control.track newState result) →
      Post (track f newState) m (fun _ t => ∃ result,
        IsMatchResult result ∧ t.control = s.control.frame result) := by
    intro newState m hframe
    refine (post_track f newState m).mono ?_
    rintro _ t ⟨result, hresult, ht⟩
    exact ⟨result, hresult, by rw [ht, hframe]⟩
  rw [processTargetEngagements, post_bind, post_fetch]
  cases hstate : s.autoEngage.state with
  | notActive =>
      refine (post_pure () s _).mpr (hany ?_)
      rw [Control.frame, show s.control.state = _ from hstate]
  | activate =>
      refine (post_bind _ _ s _).mpr ((post_update _ s _).mpr ?_)
      refine (post_bind _ _ _ _).mpr ((hselect _).mono fun _ m hm => htrack ?_)
      intro result
      rw [hm, Control.frame, show s.control.state = _ from hstate]
      rfl
  | newTarget =>
      refine (post_bind _ _ s _).mpr ((hselect s).mono fun _ m hm => htrack ?_)
      intro result
      rw [hm, Control.frame, show s.control.state = _ from hstate, id]
  | lookingForTarget | tracking =>
      refine htrack fun result => ?_
      rw [Control.frame, show s.control.state = _ from hstate]
  | trackingStable =>
      refine (post_pure () s _).mpr (hany ?_)
      rw [Control.frame, show s.control.state = _ from hstate]
  | engagementInProgress =>
      refine (post_pure () s _).mpr (hany ?_)
      rw [Control.frame, show s.control.state = _ from hstate]
  | engagementComplete =>
      refine (acts_nextTarget s).mono fun _ t ht => hany ?_
      rw [ht, Control.frame, show s.control.state = _ from hstate]

/-! ### Statements -/

/-- A statement ends as the machine says; a blocked thread has none. -/
theorem post_engagementStatement (s : Server) :
    Post engagementStatement s (fun _ t => t.control = s.control.statement) := by
  have hgo : ∀ {p : Prog Unit} {g : Control → Control} {pc : EngagementPc},
      Acts Server.control g p → s.engagement = pc →
      (∀ c : Control, c.engagement = pc → c.effect = g c) →
      Post (do p; goto pc.succ) s (fun _ t => t.control = s.control.statement) := by
    intro p g pc hp hpc heffect
    refine (Acts.seq g (fun c => { c with engagement := pc.succ }) hp
      (fun _ => Acts.update fun _ => rfl) (fun _ => rfl) s).mono ?_
    intro _ t ht
    rw [ht, Control.statement, heffect s.control hpc,
      show s.control.engagement = pc from hpc]
  have hcomplete : Acts Server.control
      (fun c => { c with state := .engagementComplete })
      (updateAuto fun a => { a with state := .engagementComplete }) :=
    Acts.update fun _ => rfl
  rw [engagementStatement, post_bind, post_fetch]
  cases hpc : s.engagement with
  | wait =>
      exact hgo (keeps_lock .engmnt) hpc fun c h => by rw [Control.effect, h, id]
  | waiting => exact post_never s _
  | laserTrue =>
      exact hgo (acts_laser true) hpc fun c h => by rw [Control.effect, h]
  | sendLaser | sendFire | sendEngaged =>
      exact hgo keeps_control_send hpc fun c h => by rw [Control.effect, h, id]
  | fireTrue => exact hgo (acts_fire true) hpc fun c h => by rw [Control.effect, h]
  | fireFalse => exact hgo (acts_fire false) hpc fun c h => by rw [Control.effect, h]
  | laserFalse =>
      exact hgo (acts_laser false) hpc fun c h => by rw [Control.effect, h]
  | armedFalse =>
      exact hgo (acts_armed false) hpc fun c h => by rw [Control.effect, h]
  | printfEngaged =>
      exact hgo (keeps_say _) hpc fun c h => by rw [Control.effect, h, id]
  | setComplete => exact hgo hcomplete hpc fun c h => by rw [Control.effect, h]
  | unlock =>
      exact hgo (keeps_unlock .engmnt) hpc fun c h => by rw [Control.effect, h, id]

/-! ## Steps of the server as events of the machine -/

/-- What a message is to the machine. -/
def Received.event (m : Received) (accepted : Bool) : Control.Event :=
  let type := m.buffer.type
  if type = mtLoginReq then .login accepted
  else if type = mtCamStateChangeReq then .other
  else if type = mtCommands then .command ((m.mem 0).headD 0)
  else if type = mtCalibCommands then .other
  else if type = mtTargetSequence then .order (m.mem 0)
  else if type = mtPrearm then .prearm (m.mem 0)
  else if type = mtStateChangeReq then .request (ntohl (m.mem 0))
  else .other

/-- The credentials of `m` are accepted. -/
def Received.LogsIn (P : Platform) (user : List UserRow) (m : Received) : Prop :=
  (checkLogin P (m.ntohlAt offsetIsChangePassword) user).map Prod.fst
    = some .loginOk

instance (P : Platform) (user : List UserRow) (m : Received) :
    Decidable (m.LogsIn P user) :=
  inferInstanceAs (Decidable (_ = _))

/-- The event that a step of the server is. -/
def Act.Shows (P : Platform) (s : Server) : Act → Control.Event → Prop
  | .message m, e => e = m.event (decide (m.LogsIn P s.user))
  | .frame _, e => ∃ result, IsMatchResult result ∧ e = .frame result
  | .statement, e => e = .statement
  | .spuriousWakeup, e => e = .statement ∧ s.engagement = .waiting

theorem post_switchType (m : Received) (accepted : Bool) (s : Server)
    (hlogin : m.buffer.type ≠ mtLoginReq) (hin : s.isLoggedIn = true) :
    Post (switchType m) s
      (fun _ t => t.control = s.control.next (m.event accepted)) := by
  have hc : s.control.isLoggedIn = true := hin
  -- each case logs its name and calls its handler
  have hcase : ∀ {name : String} {p : Prog Unit} {g : Control → Control},
      Acts Server.control g p → Post (do auditlog name; p) s
        (fun _ t => t.control = g s.control) :=
    fun hp => (keeps_auditlog _).keeps_bind (fun _ => hp) s
  rw [switchType, Received.event, if_neg hlogin]
  by_cases hcam : m.buffer.type = mtCamStateChangeReq
  · rw [if_pos hcam, if_pos hcam]
    exact hcase (keeps_processCamStateChangeRequest (fun _ _ => rfl) _)
  rw [if_neg hcam, if_neg hcam]
  by_cases hcommands : m.buffer.type = mtCommands
  · rw [if_pos hcommands, if_pos hcommands, Control.next, if_pos hc]
    exact hcase (acts_processCommands _)
  rw [if_neg hcommands, if_neg hcommands]
  by_cases hcalib : m.buffer.type = mtCalibCommands
  · rw [if_pos hcalib, if_pos hcalib]
    exact hcase (keeps_processCalibCommands blindToOffsets_control _)
  rw [if_neg hcalib, if_neg hcalib]
  by_cases horder : m.buffer.type = mtTargetSequence
  · rw [if_pos horder, if_pos horder, Control.next, if_pos hc]
    exact hcase (acts_processFiringOrder _)
  rw [if_neg horder, if_neg horder]
  by_cases hprearm : m.buffer.type = mtPrearm
  · rw [if_pos hprearm, if_pos hprearm, Control.next, if_pos hc]
    exact hcase (acts_processPreArm _)
  rw [if_neg hprearm, if_neg hprearm]
  by_cases hrequest : m.buffer.type = mtStateChangeReq
  · rw [if_pos hrequest, if_pos hrequest, Control.next, if_pos hc]
    exact hcase (acts_processStateChangeRequest _)
  · rw [if_neg hrequest, if_neg hrequest]
    exact keeps_auditlog _ s

/-- Without a login the machine only listens to logins. -/
theorem next_event_of_loggedOut {m : Received} {accepted : Bool} {c : Control}
    (hlogin : m.buffer.type ≠ mtLoginReq) (hout : c.isLoggedIn = false) :
    c.next (m.event accepted) = c := by
  rw [Received.event, if_neg hlogin]
  repeat' split
  all_goals simp [Control.next, hout]

/-- The dispatch of a message is an event of the machine. -/
theorem post_dispatch (P : Platform) (m : Received) (s : Server) :
    Post (dispatch P m) s (fun _ t =>
      t.control = s.control.next (m.event (decide (m.LogsIn P s.user)))) := by
  by_cases hlogin : m.buffer.type = mtLoginReq
  · rw [dispatch, if_pos hlogin, Received.event, if_pos hlogin, post_bind]
    refine (show Post (auditlog _) s (fun _ t => t.loginView = id s.loginView) from
      keeps_auditlog _ s).mono ?_
    intro _ s' hs'
    have hcontrol : s'.control = s.control := congrArg Prod.fst hs'
    have huser : s'.user = s.user := congrArg Prod.snd hs'
    refine (post_processLogin P (m.ntohlAt offsetIsChangePassword) s').mono ?_
    rintro _ t ⟨l, users, hcheck, ht, -⟩
    have haccepted : decide (m.LogsIn P s.user) = decide (l = .loginOk) := by
      rw [huser] at hcheck
      exact decide_eq_decide.mpr (by
        rw [Received.LogsIn, hcheck]
        exact Option.some_inj)
    rw [ht, hcontrol, haccepted]
    rfl
  · rw [dispatch, if_neg hlogin, post_bind, post_fetch]
    cases hin : s.isLoggedIn with
    | true => exact post_switchType m _ s hlogin hin
    | false =>
        exact (post_pure () s _).mpr (next_event_of_loggedOut hlogin hin).symm

/-- **The server refines the machine.**  Every step of the server is the event
    it shows. -/
theorem step_control {P : Platform} {s t : Server} {a : Act}
    (h : Step P s a t) : ∃ e, a.Shows P s e ∧ t.control = s.control.next e := by
  cases a with
  | message m => exact ⟨_, rfl, post_dispatch P m s () t h⟩
  | frame f =>
      obtain ⟨result, hresult, ht⟩ := post_processTargetEngagements f s () t h
      exact ⟨.frame result, ⟨result, hresult, rfl⟩, ht⟩
  | statement => exact ⟨.statement, rfl, post_engagementStatement s () t h⟩
  | spuriousWakeup =>
      have hwake : Post wakeUp s (fun _ t =>
          s.engagement = .waiting ∧ t.control = s.control.statement) := by
        rw [wakeUp, post_bind, post_fetch]
        by_cases hwaiting : s.engagement = .waiting
        · rw [if_pos hwaiting]
          refine (post_update _ s _).mpr ⟨hwaiting, ?_⟩
          rw [Control.statement, Control.effect,
            show s.control.engagement = _ from hwaiting]
          rfl
        · rw [if_neg hwaiting]
          exact post_never s _
      obtain ⟨hwaiting, ht⟩ := hwake () t h
      exact ⟨.statement, ⟨rfl, hwaiting⟩, ht⟩

end DemoCannon
