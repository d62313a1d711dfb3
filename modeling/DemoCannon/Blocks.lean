import DemoCannon.Handlers

/-! # What the server's functions are built from

    The functions of the server are sequences, tests and reads of the state
    over a few blocks: a text, a send, a servo, an output.  A property of
    programs that sequences and tests keep holds of every function once it
    holds of the blocks, so the functions are taken apart here once for all
    such properties.

    The blocks come in three groups.  A property may allow writes to what the
    operator has set (`SettingBlocks`), to the state word (`StateBlocks`), to
    both, or to neither.  `EngagementThread` is only moved on by its own
    statements and by the signal. -/

namespace DemoCannon

open Interaction Interaction.Program SystemState

/-! ## What is set and kept -/

/-- What the operator has entered: the targets with the one selected, and the
    offsets with their file. -/
structure Settings where
  firingOrder : Vector Nat 10
  target : Nat
  xCorrect : Rat
  yCorrect : Rat
  calibrateWasOn : Bool
  correctIni : Option Bytes

def Server.settings (s : Server) : Settings where
  firingOrder := s.autoEngage.firingOrder
  target := s.autoEngage.target
  xCorrect := s.xCorrect
  yCorrect := s.yCorrect
  calibrateWasOn := s.calibrateWasOn
  correctIni := s.correctIni

/-- The calls that neither lock nor send. -/
def Call.Plain : Call → Prop
  | .lock m | .unlock m => m = .engmnt
  | .sslWrite _ => False
  | _ => True

/-! ## The blocks -/

/-- A property of programs that holds of the blocks without a write to the state
    word, the settings or the place of `EngagementThread`, and of what is put together
    from its programs. -/
structure Blocks (Φ : (α : Type) → Prog α → Prop) : Prop where
  pure {α : Type} (a : α) : Φ α (Pure.pure a)
  bind {α β : Type} {p : Prog α} {q : α → Prog β} :
    Φ α p → (∀ a, Φ β (q a)) → Φ β (p >>= q)
  fetch : Φ Server fetch
  exit {α : Type} (x : Halt) : Φ α (.exit x)
  never {α : Type} : Φ α never
  call (c : Call) : c.Plain → Φ c.Answer (call c)
  update (f : Server → Server) :
    (∀ s, (f s).systemState = s.systemState ∧ (f s).settings = s.settings
      ∧ (f s).engagement = s.engagement) → Φ Unit (update f)
  say (text : String) : Φ Unit (say text)
  sendCurrentState : Φ Unit sendCurrentState
  sendLoginState (state : BitVec 32) : Φ Int (sendLoginState state)
  sendCamState (state : BitVec 32) : Φ Int (sendCamState state)
  servoAngle (num : ServoNum) : Φ Unit (servoAngle num)

/-- The property allows writes to the state word, and the signal. -/
structure StateBlocks (Φ : (α : Type) → Prog α → Prop) : Prop extends Blocks Φ where
  updateState (f : Server → Server) :
    (∀ s, (f s).settings = s.settings ∧ (f s).engagement = s.engagement) →
      Φ Unit (Program.update f)
  signal : Φ Unit (Program.update Server.signal)
  fire (value : Bool) : Φ Unit (fire value)
  armed (value : Bool) : Φ Unit (armed value)
  calibrate (value : Bool) : Φ Unit (calibrate value)
  laser (value : Bool) : Φ Unit (laser value)

/-- The property allows writes to the settings. -/
structure SettingBlocks (Φ : (α : Type) → Prog α → Prop) : Prop extends Blocks Φ where
  updateSettings (f : Server → Server) :
    (∀ s, (f s).systemState = s.systemState ∧ (f s).engagement = s.engagement) →
      Φ Unit (Program.update f)

namespace Blocks

variable {Φ : (α : Type) → Prog α → Prop} {α : Type}

theorem ite (_ : Blocks Φ) {c : Prop} [Decidable c] {p q : Prog α} (hp : Φ α p)
    (hq : Φ α q) : Φ α (if c then p else q) := by
  by_cases h : c
  · rw [if_pos h]; exact hp
  · rw [if_neg h]; exact hq

/-- A statement and what comes after it. -/
theorem next (hΦ : Blocks Φ) {p : Prog Unit} {q : Unit → Prog α} (hp : Φ Unit p)
    (hq : Φ α (q ())) : Φ α (p >>= q) := hΦ.bind hp fun _ => hq

/-- Reading the state, and what is done with it. -/
theorem read (hΦ : Blocks Φ) {k : Server → Prog α} (h : ∀ s, Φ α (k s)) :
    Φ α (Program.fetch >>= k) := hΦ.bind hΦ.fetch h

/-- A write that leaves all three alone, and what comes after. -/
theorem write (hΦ : Blocks Φ) {f : Server → Server} {q : Unit → Prog α}
    (hf : ∀ s, (f s).systemState = s.systemState ∧ (f s).settings = s.settings
      ∧ (f s).engagement = s.engagement)
    (hq : Φ α (q ())) : Φ α (Program.update f >>= q) := hΦ.next (hΦ.update f hf) hq

theorem auditlog (hΦ : Blocks Φ) (msg : String) : Φ Unit (auditlog msg) :=
  hΦ.read fun s => hΦ.ite (hΦ.call (.auditLine s.auditFile msg) trivial) (hΦ.pure ())

/-! ## Commands, camera and login -/

theorem runCmd (hΦ : Blocks Φ) (on off : UInt8) : Φ Unit (runCmd on off) :=
  hΦ.update _ fun _ => ⟨rfl, rfl, rfl⟩

theorem step (hΦ : Blocks Φ) (num : ServoNum) (delta : Rat) : Φ Unit (step num delta) :=
  hΦ.write (fun s => by cases num <;> exact ⟨rfl, rfl, rfl⟩) (hΦ.servoAngle num)

theorem processCamStateChangeRequest (hΦ : Blocks Φ) (state : BitVec 32) :
    Φ Unit (processCamStateChangeRequest state) := by
  have hset : ∀ on word, Φ Unit (do
      Program.update fun s => { s with isCameraOn := on }
      let _ ← DemoCannon.sendCamState word
      Pure.pure ()) := fun on word =>
    hΦ.write (fun _ => ⟨rfl, rfl, rfl⟩) (hΦ.bind (hΦ.sendCamState word) fun _ => hΦ.pure ())
  exact hΦ.ite (hset true camOn) (hΦ.ite (hset false camOff) (hΦ.pure ()))

theorem processLogin (hΦ : Blocks Φ) (P : Platform) (m : Received) :
    Φ Unit (processLogin P m) := by
  refine hΦ.read fun s => ?_
  cases checkLogin P m s.user with
  | none => exact hΦ.exit _
  | some result =>
      obtain ⟨lState, user⟩ := result
      refine hΦ.write (fun _ => ⟨rfl, rfl, rfl⟩) (hΦ.bind (hΦ.sendLoginState _) fun _ => ?_)
      refine hΦ.write (fun _ => ⟨rfl, rfl, rfl⟩) (hΦ.read fun _ => hΦ.ite ?_ (hΦ.pure ()))
      refine hΦ.bind (hΦ.call .pthreadCreate trivial) fun (_ : Int) => ?_
      exact hΦ.ite (hΦ.exit _) (hΦ.update _ fun _ => ⟨rfl, rfl, rfl⟩)

/-! ## The aim -/

theorem countStable (hΦ : Blocks Φ) : Φ TEngagementState countStable :=
  hΦ.read fun _ => hΦ.write (fun _ => ⟨rfl, rfl, rfl⟩) (hΦ.pure _)

theorem aimTilt (hΦ : Blocks Φ) (f : Frame) (d : TDetectedMatches) :
    Φ TEngagementState (aimTilt f d) := by
  refine hΦ.read fun s => hΦ.write (fun _ => ⟨rfl, rfl, rfl⟩) (hΦ.read fun s => ?_)
  exact hΦ.ite (hΦ.next (hΦ.servoAngle _) hΦ.countStable)
    (hΦ.next (hΦ.say _) (hΦ.pure _))

theorem aimAt (hΦ : Blocks Φ) (f : Frame) (d : TDetectedMatches) :
    Φ TEngagementState (aimAt f d) := by
  refine hΦ.read fun s => hΦ.write (fun _ => ⟨rfl, rfl, rfl⟩) (hΦ.read fun s => ?_)
  exact hΦ.ite (hΦ.next (hΦ.servoAngle _) (hΦ.aimTilt f d))
    (hΦ.next (hΦ.say _) (hΦ.pure _))

theorem lookOn (hΦ : Blocks Φ) (f : Frame) : Φ TEngagementState (lookOn f) :=
  hΦ.read fun _ => hΦ.ite (hΦ.write (fun _ => ⟨rfl, rfl, rfl⟩) (hΦ.pure _))
    (hΦ.ite (hΦ.pure _) (hΦ.pure _))

theorem tryToMatch (hΦ : Blocks Φ) (f : Frame) : Φ TEngagementState (tryToMatch f) := by
  have hlast : ∀ state : TEngagementState, Φ TEngagementState (do
      if state ≠ .lookingForTarget then
        Program.update fun s => { s with trying := false }
      else Pure.pure ()
      Pure.pure state) := fun state =>
    hΦ.ite (hΦ.write (fun _ => ⟨rfl, rfl, rfl⟩) (hΦ.pure _)) (hΦ.pure _)
  refine hΦ.read fun s => ?_
  cases f.detectedMatches.find? _ with
  | some d => exact hΦ.bind (hΦ.aimAt f d) hlast
  | none => exact hΦ.bind (hΦ.lookOn f) hlast

end Blocks

/-! ## Requests, commands and codes -/

namespace StateBlocks

variable {Φ : (α : Type) → Prog α → Prop} {α : Type}

/-- A write that leaves the settings alone, and what comes after. -/
theorem writeState (hΦ : StateBlocks Φ) {f : Server → Server} {q : Unit → Prog α}
    (hf : ∀ s, (f s).settings = s.settings ∧ (f s).engagement = s.engagement)
    (hq : Φ α (q ())) :
    Φ α (Program.update f >>= q) := hΦ.next (hΦ.updateState f hf) hq

theorem processPreArm (hΦ : StateBlocks Φ) (code : Bytes) :
    Φ Unit (processPreArm code) := by
  refine hΦ.read fun _ => hΦ.ite (hΦ.ite (hΦ.ite ?_ (hΦ.pure ())) (hΦ.say _)) (hΦ.pure ())
  exact hΦ.writeState (fun _ => ⟨rfl, rfl⟩) hΦ.sendCurrentState

theorem requestSafe (hΦ : StateBlocks Φ) (state : SystemState) :
    Φ Unit (requestSafe state) :=
  hΦ.next (hΦ.laser false) (hΦ.next (hΦ.calibrate false) (hΦ.next (hΦ.fire false)
    (hΦ.writeState (fun _ => ⟨rfl, rfl⟩) (hΦ.updateState _ fun _ => ⟨rfl, rfl⟩))))

theorem requestPrearmed (hΦ : StateBlocks Φ) (state : SystemState) :
    Φ Unit (requestPrearmed state) := by
  have hset : Φ Unit (setState (base state)) := hΦ.updateState _ fun _ => ⟨rfl, rfl⟩
  refine hΦ.read fun _ => hΦ.ite ?_ (hΦ.pure ())
  refine hΦ.next (hΦ.laser false) (hΦ.next (hΦ.fire false)
    (hΦ.next (hΦ.calibrate false) (hΦ.read fun _ => hΦ.ite ?_ ?_)))
  · exact hΦ.writeState (fun _ => ⟨rfl, rfl⟩) hset
  · exact hset

theorem requestEngageAuto (hΦ : StateBlocks Φ) (state : SystemState) :
    Φ Unit (requestEngageAuto state) := by
  refine hΦ.read fun _ => hΦ.ite (hΦ.say _) (hΦ.ite (hΦ.say _) ?_)
  exact hΦ.next (hΦ.laser false) (hΦ.next (hΦ.calibrate false) (hΦ.next (hΦ.fire false)
    (hΦ.writeState (fun _ => ⟨rfl, rfl⟩) (hΦ.updateState _ fun _ => ⟨rfl, rfl⟩))))

theorem requestArmedManual (hΦ : StateBlocks Φ) (state : SystemState) :
    Φ Unit (requestArmedManual state) := by
  have hset : ∀ word, Φ Unit (setState word) := fun word =>
    hΦ.updateState _ fun _ => ⟨rfl, rfl⟩
  refine hΦ.read fun _ => hΦ.ite (hΦ.say _) (hΦ.ite ?_ (hset _))
  exact hΦ.next (hΦ.laser false) (hΦ.next (hΦ.calibrate false)
    (hΦ.next (hΦ.fire false) (hset _)))

/-- A request is one of the four, or none, and then the end they share. -/
theorem request (hΦ : StateBlocks Φ) (Ψ : Prog Unit → Prop)
    (hthen : ∀ p, Φ Unit p → Ψ (p >>= fun _ => applyFlags)) (hend : Ψ applyFlags)
    (state : SystemState) : Ψ (processStateChangeRequest state) := by
  rw [processStateChangeRequest]
  dsimp only
  by_cases hsafe : state.base = safe
  · rw [if_pos hsafe]
    exact hthen _ (hΦ.requestSafe state)
  rw [if_neg hsafe]
  by_cases hpre : state.base = prearmed
  · rw [if_pos hpre]
    exact hthen _ (hΦ.requestPrearmed state)
  rw [if_neg hpre]
  by_cases hauto : state.base = engageAuto
  · rw [if_pos hauto]
    exact hthen _ (hΦ.requestEngageAuto state)
  rw [if_neg hauto]
  by_cases hmanual : state.base = armedManual
  · rw [if_pos hmanual]
    exact hthen _ (hΦ.requestArmedManual state)
  · rw [if_neg hmanual]
    exact hend

/-- The end of a request, for a property that allows its two writes. -/
theorem applyFlags (hΦ : StateBlocks Φ)
    (hwas : ∀ on, Φ Unit (Program.update fun s => { s with calibrateWasOn := on }))
    (hwrite : Φ Unit writeOffsets) : Φ Unit applyFlags := by
  refine hΦ.read fun _ => hΦ.next (hΦ.laser _) (hΦ.read fun _ => hΦ.ite ?_ ?_)
  · exact hΦ.next (hΦ.calibrate true) (hΦ.next (hwas true) hΦ.sendCurrentState)
  · refine hΦ.next (hΦ.calibrate false) (hΦ.read fun _ => hΦ.ite ?_ hΦ.sendCurrentState)
    exact hΦ.next (hwas false) (hΦ.next hwrite hΦ.sendCurrentState)

theorem processStateChangeRequest (hΦ : StateBlocks Φ)
    (hend : Φ Unit DemoCannon.applyFlags) (state : SystemState) :
    Φ Unit (processStateChangeRequest state) :=
  hΦ.request (Φ Unit) (fun _ hp => hΦ.next hp hend) hend state

theorem processCommands (hΦ : StateBlocks Φ) (cmd : UInt8) :
    Φ Unit (processCommands cmd) := by
  have hmove : ∀ on off num delta, Φ Unit (do
      DemoCannon.runCmd on off
      DemoCannon.step num delta) := fun on off num delta =>
    hΦ.next (hΦ.runCmd on off) (hΦ.step num delta)
  have hfire : ∀ on off value, Φ Unit (do
      DemoCannon.runCmd on off
      DemoCannon.fire value
      DemoCannon.sendCurrentState) := fun on off value =>
    hΦ.next (hΦ.runCmd on off) (hΦ.next (hΦ.fire value) hΦ.sendCurrentState)
  refine hΦ.read fun _ => hΦ.ite (hΦ.pure ()) (hΦ.ite (hΦ.pure ()) ?_)
  exact hΦ.ite (hmove _ _ _ _) (hΦ.ite (hmove _ _ _ _) (hΦ.ite (hmove _ _ _ _)
    (hΦ.ite (hmove _ _ _ _) (hΦ.ite (hfire _ _ _) (hΦ.ite (hΦ.runCmd _ _)
      (hΦ.ite (hΦ.runCmd _ _) (hΦ.ite (hΦ.runCmd _ _) (hΦ.ite (hΦ.runCmd _ _)
        (hΦ.ite (hfire _ _ _) (hΦ.pure ()))))))))))

/-! ## The sequencer and the thread -/

theorem enterState (hΦ : StateBlocks Φ) (state : TEngagementState) :
    Φ Unit (enterState state) := by
  refine hΦ.read fun s => ?_
  cases state with
  | lookingForTarget | tracking =>
      exact hΦ.next (hΦ.armed _) (hΦ.next hΦ.sendCurrentState (hΦ.say _))
  | trackingStable =>
      refine hΦ.next (hΦ.say _) (hΦ.writeState (fun _ => ⟨rfl, rfl⟩) ?_)
      refine hΦ.bind (hΦ.call .condSignal trivial) fun (_ : Int) => ?_
      exact hΦ.ite (hΦ.exit _) hΦ.signal
  | engagementComplete => exact hΦ.next (hΦ.say _) (hΦ.auditlog _)
  | notActive | activate | newTarget | engagementInProgress => exact hΦ.pure ()

theorem track (hΦ : StateBlocks Φ) (f : Frame) (newState : Bool) :
    Φ Unit (track f newState) := by
  refine hΦ.bind (hΦ.tryToMatch f) fun state => hΦ.read fun s => ?_
  have henter : Φ Unit (if newState || decide (s.autoEngage.state ≠ state) then
      DemoCannon.enterState state else Pure.pure ()) :=
    hΦ.ite (hΦ.enterState state) (hΦ.pure ())
  exact hΦ.ite (hΦ.writeState (fun _ => ⟨rfl, rfl⟩) henter) henter

theorem nextTarget (hΦ : StateBlocks Φ) : Φ Unit nextTarget := by
  refine hΦ.writeState (fun _ => ⟨rfl, rfl⟩) (hΦ.read fun _ => hΦ.ite ?_ ?_)
  · exact hΦ.writeState (fun _ => ⟨rfl, rfl⟩) (hΦ.writeState (fun _ => ⟨rfl, rfl⟩)
      (hΦ.next hΦ.sendCurrentState (hΦ.say _)))
  · exact hΦ.updateState _ fun _ => ⟨rfl, rfl⟩

/-- The statements of `EngagementThread`, for a property that allows them to be gone
    through. -/
theorem engagementStatement (hΦ : StateBlocks Φ) (hgoto : ∀ pc, Φ Unit (goto pc)) :
    Φ Unit engagementStatement := by
  have hgo : ∀ {p : Prog Unit} {pc : EngagementPc}, Φ Unit p →
      Φ Unit (do p; goto pc) := fun hp => hΦ.next hp (hgoto _)
  refine hΦ.read fun s => ?_
  cases s.engagement with
  | wait => exact hgo (hΦ.call (.lock .engmnt) rfl)
  | waiting => exact hΦ.never
  | laserTrue | laserFalse => exact hgo (hΦ.laser _)
  | fireTrue | fireFalse => exact hgo (hΦ.fire _)
  | armedFalse => exact hgo (hΦ.armed _)
  | sendLaser | sendFire | sendEngaged => exact hgo hΦ.sendCurrentState
  | printfEngaged => exact hgo (hΦ.say _)
  | setComplete => exact hgo (hΦ.updateState _ fun _ => ⟨rfl, rfl⟩)
  | unlock => exact hgo (hΦ.call (.unlock .engmnt) rfl)

end StateBlocks

/-! ## Orders and offsets -/

namespace SettingBlocks

variable {Φ : (α : Type) → Prog α → Prop} {α : Type}

/-- A write that leaves the state word alone, and what comes after. -/
theorem writeSettings (hΦ : SettingBlocks Φ) {f : Server → Server} {q : Unit → Prog α}
    (hf : ∀ s, (f s).systemState = s.systemState ∧ (f s).engagement = s.engagement)
    (hq : Φ α (q ())) :
    Φ α (Program.update f >>= q) := hΦ.next (hΦ.updateSettings f hf) hq

theorem processFiringOrder (hΦ : SettingBlocks Φ) (firingOrder : Bytes) :
    Φ Unit (processFiringOrder firingOrder) := by
  refine hΦ.writeSettings (fun _ => ⟨rfl, rfl⟩) (hΦ.ite (hΦ.pure ()) (hΦ.read fun s => ?_))
  refine hΦ.writeSettings (fun _ => ⟨rfl, rfl⟩) (hΦ.ite (hΦ.pure ()) (hΦ.ite ?_ ?_))
  · exact hΦ.writeSettings (fun _ => ⟨rfl, rfl⟩) (hΦ.updateSettings _ fun _ => ⟨rfl, rfl⟩)
  · exact hΦ.writeSettings (fun _ => ⟨rfl, rfl⟩) (hΦ.say _)

theorem processCalibCommands (hΦ : SettingBlocks Φ) (cmd : UInt8) :
    Φ Unit (processCalibCommands cmd) := by
  have hset : ∀ {f : Server → Server},
      (∀ s, (f s).systemState = s.systemState ∧ (f s).engagement = s.engagement) →
        Φ Unit (Program.update f) := fun hf => hΦ.updateSettings _ hf
  refine hΦ.read fun _ => hΦ.ite (hΦ.pure ()) ?_
  exact hΦ.ite (hset fun _ => ⟨rfl, rfl⟩) (hΦ.ite (hset fun _ => ⟨rfl, rfl⟩)
    (hΦ.ite (hset fun _ => ⟨rfl, rfl⟩) (hΦ.ite (hset fun _ => ⟨rfl, rfl⟩) (hΦ.pure ()))))

theorem writeOffsets (hΦ : SettingBlocks Φ) : Φ Unit writeOffsets :=
  hΦ.bind (hΦ.call .fopenIni trivial) fun (_ : IniWrite) =>
    hΦ.updateSettings _ fun _ => ⟨rfl, rfl⟩

theorem selectTarget (hΦ : SettingBlocks Φ) : Φ Unit selectTarget :=
  hΦ.updateSettings _ fun _ => ⟨rfl, rfl⟩

end SettingBlocks

end DemoCannon
