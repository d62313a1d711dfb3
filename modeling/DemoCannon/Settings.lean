import DemoCannon.Blocks
import DemoCannon.Moves

/-! # The settings: targets, offsets and their file

    Outputs, servos, sends and logins leave alone what the operator has
    entered.  A firing order writes the targets, `ProcessTargetEngagements`
    selects one of them, calibration commands move the offsets, and the end of
    a request writes the offsets to their file when calibration was on.

    From this: the file has the offsets whenever calibration is off, as long as
    no offset is moved while it is off and the file takes them
    (`calibration_persisted`). -/

namespace DemoCannon

open Interaction Interaction.Program SystemState

/-! ## What leaves the settings alone -/

section Keeps

variable {γ : Type} (g : Settings → γ)

theorem blindToOutputs_settings : BlindToOutputs fun s => g s.settings where
  oled _ _ := rfl
  systemState _ _ := rfl
  gpio17 _ _ := rfl
  gpio18 _ _ := rfl

/-- The functions that do not set anything leave every part of the settings
    alone. -/
theorem stateBlocks_settings :
    StateBlocks fun _ p => Keeps (fun s => g s.settings) p where
  pure := Acts.pure
  bind := Acts.keeps_bind
  fetch := fun s => (post_fetch s _).mpr rfl
  exit := Acts.exit
  never := keeps_never
  call c _ := Acts.ask c
  update _ hf := Acts.update fun s => congrArg g (hf s).2.1
  say := keeps_say
  sendCurrentState := keeps_sendCurrentState fun _ _ => rfl
  sendLoginState := keeps_sendLoginState
  sendCamState := keeps_sendCamState
  servoAngle := keeps_servoAngle
    ⟨fun _ _ num => by cases num <;> rfl, fun _ num => by cases num <;> rfl⟩
  updateState _ hf := Acts.update fun s => congrArg g (hf s).1
  signal := Acts.update fun s => by
    rw [Server.signal]
    split <;> rfl
  fire := keeps_fire (blindToOutputs_settings g)
  armed := keeps_armed (blindToOutputs_settings g)
  calibrate := keeps_calibrate (blindToOutputs_settings g)
  laser := keeps_laser (blindToOutputs_settings g)

end Keeps

/-! ## The offsets -/

/-- The offsets, their file, and the static flag that decides about writing
    it. -/
structure Offsets where
  xCorrect : Rat
  yCorrect : Rat
  calibrateWasOn : Bool
  correctIni : Option Bytes

def Settings.offsets (c : Settings) : Offsets where
  xCorrect := c.xCorrect
  yCorrect := c.yCorrect
  calibrateWasOn := c.calibrateWasOn
  correctIni := c.correctIni

abbrev Server.offsets (s : Server) : Offsets := s.settings.offsets

namespace Offsets

/-- A calibration command. -/
def move (cmd : UInt8) (o : Offsets) : Offsets :=
  if cmd = decX then { o with xCorrect := o.xCorrect + 1 }
  else if cmd = incX then { o with xCorrect := o.xCorrect - 1 }
  else if cmd = decY then { o with yCorrect := o.yCorrect - 1 }
  else if cmd = incY then { o with yCorrect := o.yCorrect + 1 }
  else o

/-- The end of a request that leaves calibration on or off; when it was on, the
    file is written. -/
def close (on : Bool) (ini : Option Bytes) (o : Offsets) : Offsets :=
  if on then { o with calibrateWasOn := true }
  else if o.calibrateWasOn then { o with calibrateWasOn := false, correctIni := ini }
  else o

/-- The offsets are read from the file. -/
def Written (o : Offsets) : Prop := o.correctIni.bind readOffsets = some (o.xCorrect, o.yCorrect)

/-- Where the end of a request writes the file, this is what an allowed answer leaves in
    it. -/
def Leaves (A : (c : Call) → c.Answer → Prop) (on : Bool) (ini : Option Bytes) (o : Offsets) :
    Prop :=
  on = false → o.calibrateWasOn = true → ∃ result : IniWrite, A .fopenIni result
    ∧ ini = result.leaves o.correctIni o.xCorrect o.yCorrect

end Offsets

/-- Calibration commands are taken. -/
def CalibAccepted (s : Server) : Prop :=
  base s.systemState = prearmed ∨ base s.systemState = armedManual
    ∨ has s.systemState calibOn = true

instance (s : Server) : Decidable (CalibAccepted s) :=
  inferInstanceAs (Decidable (_ ∨ _ ∨ _))

theorem post_processCalibCommands (cmd : UInt8) (s : Server) :
    Post (processCalibCommands cmd) s (fun _ t =>
      t.offsets = if CalibAccepted s then s.offsets.move cmd else s.offsets) := by
  have hmove : Acts Server.offsets (Offsets.move cmd) (
      if cmd = decX then update fun s => { s with xCorrect := s.xCorrect + 1 }
      else if cmd = incX then update fun s => { s with xCorrect := s.xCorrect - 1 }
      else if cmd = decY then update fun s => { s with yCorrect := s.yCorrect - 1 }
      else if cmd = incY then update fun s => { s with yCorrect := s.yCorrect + 1 }
      else pure () : Prog Unit) := by
    by_cases hdx : cmd = decX
    · rw [if_pos hdx]
      exact Acts.update fun s => by rw [Offsets.move, if_pos hdx]; rfl
    rw [if_neg hdx]
    by_cases hix : cmd = incX
    · rw [if_pos hix]
      exact Acts.update fun s => by rw [Offsets.move, if_neg hdx, if_pos hix]; rfl
    rw [if_neg hix]
    by_cases hdy : cmd = decY
    · rw [if_pos hdy]
      exact Acts.update fun s => by
        rw [Offsets.move, if_neg hdx, if_neg hix, if_pos hdy]; rfl
    rw [if_neg hdy]
    by_cases hiy : cmd = incY
    · rw [if_pos hiy]
      exact Acts.update fun s => by
        rw [Offsets.move, if_neg hdx, if_neg hix, if_neg hdy, if_pos hiy]; rfl
    rw [if_neg hiy]
    refine (Acts.pure ()).congr fun o => ?_
    rw [Offsets.move, if_neg hdx, if_neg hix, if_neg hdy, if_neg hiy, id]
  refine (post_bind _ _ s _).mpr ((post_fetch s _).mpr ?_)
  by_cases hdenied : base s.systemState ≠ prearmed ∧ base s.systemState ≠ armedManual
      ∧ has s.systemState calibOn = false
  · have hno : ¬ CalibAccepted s := by
      rintro (h | h | h)
      · exact hdenied.1 h
      · exact hdenied.2.1 h
      · cases hdenied.2.2.symm.trans h
    rw [if_pos hdenied, if_neg hno]
    exact (post_pure () s _).mpr rfl
  · have hyes : CalibAccepted s := by
      by_cases hpre : base s.systemState = prearmed
      · exact Or.inl hpre
      by_cases hmanual : base s.systemState = armedManual
      · exact Or.inr (Or.inl hmanual)
      · exact Or.inr (Or.inr ((Bool.not_eq_false _).mp fun h =>
          hdenied ⟨hpre, hmanual, h⟩))
    rw [if_neg hdenied, if_pos hyes]
    exact hmove s

/-- The end of a request writes the file when calibration was on and is not any
    more. -/
theorem postUnder_applyFlags {A : (c : Call) → c.Answer → Prop} (s : Server) :
    PostUnder A applyFlags s (fun _ t => ∃ ini,
      s.offsets.Leaves A (has s.systemState calibOn) ini
        ∧ t.offsets = s.offsets.close (has s.systemState calibOn) ini) := by
  have hΦ := stateBlocks_settings Settings.offsets
  have hlaser : Post (laser (has s.systemState laserOn)) s (fun _ m =>
      m.offsets = s.offsets ∧ m.systemState = s.systemState) := by
    refine ((hΦ.laser _ s).and (acts_laser _ s)).mono fun _ m hm => ⟨hm.1, ?_⟩
    rw [show has s.systemState laserOn = has s.control.systemState laserOn from rfl,
      Control.laser_has] at hm
    exact congrArg Control.systemState hm.2
  refine PostUnder.bind ((post_fetch s _).mpr ?_).under
  refine PostUnder.bind (hlaser.under.mono ?_)
  rintro _ m ⟨hm, hword⟩
  refine PostUnder.bind ((post_fetch m _).mpr ?_).under
  rw [hword, ← hm]
  cases hon : has s.systemState calibOn with
  | true =>
      have hset : Acts Server.offsets (Offsets.close true none) (do
          calibrate true
          update fun s => { s with calibrateWasOn := true }
          sendCurrentState : Prog Unit) :=
        Acts.keeps_bind (hΦ.calibrate true) fun _ =>
          Acts.update_then (fun _ => rfl) fun _ => hΦ.sendCurrentState
      exact (hset m).under.mono fun _ t ht => ⟨none, by rintro ⟨⟩, ht⟩
  | false =>
      refine PostUnder.bind ((hΦ.calibrate false m).under.mono fun _ o ho => ?_)
      rw [← show o.offsets = m.offsets from ho]
      refine PostUnder.bind ((post_fetch o _).mpr ?_).under
      by_cases hwas : o.calibrateWasOn = true
      · -- the flag is cleared whatever becomes of the file
        rw [if_pos hwas]
        refine PostUnder.bind ((post_update _ o _).mpr ?_).under
        refine PostUnder.bind (PostUnder.bind (PostUnder.ask fun (result : IniWrite) hA => ?_))
        refine ((post_update _ _ _).mpr ?_ : Post _ _ _).under
        refine (hΦ.sendCurrentState _).under.mono fun _ t ht => ?_
        refine ⟨result.leaves o.correctIni o.xCorrect o.yCorrect, fun _ _ => ⟨result, hA, rfl⟩, ?_⟩
        rw [show t.offsets = _ from ht, Offsets.close, if_neg (by decide),
          if_pos (show o.offsets.calibrateWasOn = true from hwas)]
        rfl
      · rw [if_neg hwas]
        refine (hΦ.sendCurrentState o).under.mono fun _ t ht =>
          ⟨none, fun _ hon => absurd hon hwas, ?_⟩
        rw [show t.offsets = _ from ht, Offsets.close, if_neg (by decide),
          if_neg (show ¬ o.offsets.calibrateWasOn = true from hwas)]
        rfl

/-! ## A message and the offsets -/

/-- What an order, a calibration command and a request leave alone, every message
    leaves alone. -/
theorem keeps_switchType {γ : Type} (g : Settings → γ) {m : Received}
    (hcalib : m.buffer.type = mtCalibCommands →
      ∀ cmd, Keeps (fun s => g s.settings) (processCalibCommands cmd))
    (horder : m.buffer.type = mtTargetSequence →
      ∀ order, Keeps (fun s => g s.settings) (processFiringOrder order))
    (hrequest : m.buffer.type = mtStateChangeReq →
      ∀ state, Keeps (fun s => g s.settings) (processStateChangeRequest state)) :
    Keeps (fun s => g s.settings) (switchType m) := by
  have hΦ := stateBlocks_settings g
  have hlogged : ∀ {name : String} {p : Prog Unit}, Keeps (fun s => g s.settings) p →
      Keeps (fun s => g s.settings) (do auditlog name; p) :=
    fun hp => hΦ.next (hΦ.auditlog _) hp
  rw [switchType]
  refine hΦ.ite (hlogged (hΦ.processCamStateChangeRequest _)) ?_
  refine hΦ.ite (hlogged (hΦ.processCommands _)) ?_
  by_cases hc : m.buffer.type = mtCalibCommands
  · rw [if_pos hc]
    exact hlogged (hcalib hc _)
  rw [if_neg hc]
  by_cases ho : m.buffer.type = mtTargetSequence
  · rw [if_pos ho]
    exact hlogged (horder ho _)
  rw [if_neg ho]
  refine hΦ.ite (hlogged (hΦ.processPreArm _)) ?_
  by_cases hr : m.buffer.type = mtStateChangeReq
  · rw [if_pos hr]
    exact hlogged (hrequest hr _)
  · rw [if_neg hr]
    exact hΦ.auditlog _

theorem keeps_offsets_processFiringOrder (firingOrder : Bytes) :
    Keeps (fun s => s.settings.offsets) (processFiringOrder firingOrder) := by
  have hset : ∀ {f : TAutoEngage → TAutoEngage} {q : Unit → Prog Unit},
      Keeps (fun s => s.settings.offsets) (q ()) →
      Keeps (fun s => s.settings.offsets) (updateAuto f >>= q) :=
    fun hq => Acts.update_then (fun _ => rfl) fun _ => hq
  refine hset (Acts.ite (Acts.pure ()) (Acts.read fun s => hset ?_))
  refine Acts.ite (Acts.pure ()) (Acts.ite (hset (Acts.update fun _ => rfl)) (hset ?_))
  exact keeps_say _

/-- The log leaves the whole state alone. -/
theorem post_auditlog (msg : String) (s : Server) :
    Post (auditlog msg) s (fun _ t => t = s) :=
  (keeps_auditlog msg : Keeps (id : Server → Server) _) s

/-- A request ends with the offsets closed for the word that it leaves. -/
theorem postUnder_processStateChangeRequest {A : (c : Call) → c.Answer → Prop}
    (state : SystemState) (s : Server) :
    PostUnder A (processStateChangeRequest state) s (fun _ t =>
      ∃ ini, s.offsets.Leaves A (has t.systemState calibOn) ini
        ∧ t.offsets = s.offsets.close (has t.systemState calibOn) ini) := by
  have hΦ := stateBlocks_settings Settings.offsets
  have hend : ∀ n : Server, n.offsets = s.offsets → PostUnder A applyFlags n (fun _ t =>
      ∃ ini, s.offsets.Leaves A (has t.systemState calibOn) ini
        ∧ t.offsets = s.offsets.close (has t.systemState calibOn) ini) := by
    intro n hn u t ht
    obtain ⟨ini, hA, hclose⟩ := postUnder_applyFlags n u t ht
    have hword : t.systemState = n.systemState :=
      congrArg Control.systemState (acts_applyFlags n u t ht.ends)
    rw [hn, ← hword] at hA hclose
    exact ⟨ini, hA, hclose⟩
  exact hΦ.request (fun p => PostUnder A p s _)
    (fun _ hp => PostUnder.bind ((hp s).under.mono fun _ n hn => hend n hn)) (hend s rfl) state

/-- What a message makes of the offsets: a calibration command moves them, the
    end of a request may write the file. -/
theorem postUnder_dispatch {A : (c : Call) → c.Answer → Prop} (P : Platform)
    (m : Received) (s : Server) :
    PostUnder A (dispatch P m) s (fun _ t =>
      (s.isLoggedIn = true ∧ m.buffer.type = mtCalibCommands ∧ CalibAccepted s
          ∧ t.offsets = s.offsets.move ((m.mem 0).headD 0))
        ∨ (s.isLoggedIn = true ∧ m.buffer.type = mtStateChangeReq
          ∧ ∃ ini, s.offsets.Leaves A (has t.systemState calibOn) ini
            ∧ t.offsets = s.offsets.close (has t.systemState calibOn) ini)
        ∨ ((s.isLoggedIn = true → m.buffer.type ≠ mtStateChangeReq)
          ∧ t.offsets = s.offsets)) := by
  have hΦ := stateBlocks_settings Settings.offsets
  rw [dispatch]
  by_cases hlogin : m.buffer.type = mtLoginReq
  · rw [if_pos hlogin]
    have hkeeps : Keeps Server.offsets (do
        auditlog "MT_LOGIN_REQ"
        processLogin P (m.ntohlAt offsetIsChangePassword)) :=
      hΦ.next (hΦ.auditlog _) (hΦ.processLogin P _)
    refine (hkeeps s).under.mono fun _ t ht => Or.inr (Or.inr ⟨fun _ => ?_, ht⟩)
    rw [hlogin]
    decide
  rw [if_neg hlogin]
  refine PostUnder.bind ((post_fetch s _).mpr ?_).under
  by_cases hin : s.isLoggedIn = false
  · rw [if_pos hin]
    refine ((post_pure () s _).mpr (Or.inr (Or.inr ⟨fun h => ?_, rfl⟩))).under
    cases hin.symm.trans h
  rw [if_neg hin]
  replace hin : s.isLoggedIn = true := (Bool.not_eq_false _).mp hin
  by_cases hcalib : m.buffer.type = mtCalibCommands
  · have hrun : switchType m = (do
        auditlog "MT_CALIB_COMMANDS"
        processCalibCommands ((m.mem 0).headD 0)) := by
      rw [switchType, hcalib]
      rfl
    rw [hrun]
    refine PostUnder.bind ((post_auditlog _ s).under.mono ?_)
    rintro _ m' rfl
    refine (post_processCalibCommands _ m').under.mono fun _ t ht => ?_
    by_cases haccepted : CalibAccepted m'
    · rw [if_pos haccepted] at ht
      exact Or.inl ⟨hin, hcalib, haccepted, ht⟩
    · rw [if_neg haccepted] at ht
      refine Or.inr (Or.inr ⟨fun _ => ?_, ht⟩)
      rw [hcalib]
      decide
  by_cases hrequest : m.buffer.type = mtStateChangeReq
  · have hrun : switchType m = (do
        auditlog "MT_STATE_CHANGE_REQ"
        processStateChangeRequest (ntohl (m.mem 0))) := by
      rw [switchType, hrequest]
      rfl
    rw [hrun]
    refine PostUnder.bind ((post_auditlog _ s).under.mono ?_)
    rintro _ m' rfl
    have hall := postUnder_processStateChangeRequest (A := A) (ntohl (m.mem 0)) m'
    exact hall.mono fun _ t ht => Or.inr (Or.inl ⟨hin, hrequest, ht⟩)
  · have hkeeps := keeps_switchType Settings.offsets (absurd · hcalib)
      (fun _ order => keeps_offsets_processFiringOrder order) (absurd · hrequest)
    exact (hkeeps s).under.mono fun _ t ht => Or.inr (Or.inr ⟨fun _ => hrequest, ht⟩)

end DemoCannon
