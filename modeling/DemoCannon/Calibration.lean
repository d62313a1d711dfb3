import DemoCannon.Settings

/-! # Calibration is kept in its file

    The end of a request writes the offsets when calibration was on and is off
    now.  So the file has them whenever calibration is off, as long as no
    offset is moved while it is off, and the file takes them when it is written
    (`calibration_persisted`).  The guard of `ProcessCalibCommands` lets moves
    through in `PREARMED` and `ARMED_MANUAL` without calibration. -/

namespace DemoCannon

open Interaction Interaction.Program SystemState

/-! ## The calibration flag -/

namespace Control

theorem has_calibOn_fire (value : Bool) {c : Control}
    (hpermitted : value = true → ¬ firingDenied c.systemState) :
    has (c.fire value).systemState calibOn = has c.systemState calibOn := by
  have hother : has SystemState.firing calibOn = false := by decide
  rw [fire, if_neg fun h => hpermitted h.1 h.2]
  cases value with
  | true =>
      change has (c.systemState ||| SystemState.firing) calibOn = _
      rw [has_or _ _ .calibOn, hother, Bool.or_false]
  | false =>
      change has (c.systemState &&& ~~~SystemState.firing) calibOn = _
      rw [has_clear _ _ .calibOn, hother, Bool.not_false, Bool.and_true]

theorem has_calibOn_command (cmd : UInt8) (c : Control) :
    has (c.command cmd).systemState calibOn = has c.systemState calibOn := by
  rw [command]
  by_cases hstart : c.base = SystemState.armedManual ∧ cmd = fireStart
  · rw [if_pos hstart]
    exact has_calibOn_fire true fun _ => not_firingDenied hstart.1
  rw [if_neg hstart]
  split
  · exact has_calibOn_fire false (by rintro ⟨⟩)
  · rfl

/-- Only a request changes whether calibration is on. -/
theorem has_calibOn_next_event {m : Received} (hrequest : m.buffer.type ≠ mtStateChangeReq)
    (accepted : Bool) (c : Control) :
    has (c.next (m.event accepted)).systemState calibOn = has c.systemState calibOn := by
  have hkept : ∀ {d : Control}, has d.systemState calibOn = has c.systemState calibOn →
      has (if c.isLoggedIn then d else c).systemState calibOn
        = has c.systemState calibOn := by
    intro d hd
    split
    · exact hd
    · rfl
  rcases m.event_cases accepted with
    ⟨-, hm⟩ | ⟨-, hm⟩ | ⟨-, hm⟩ | ⟨-, hm⟩ | ⟨ht, hm⟩ | hm
  · rw [hm]
    rfl
  · rw [hm]
    exact hkept (has_calibOn_command _ c)
  · rw [hm]
    refine hkept ?_
    rw [order]
    split <;> rfl
  · rw [hm]
    refine hkept ?_
    rw [prearm]
    split
    · rename_i hcode
      obtain ⟨hs, hp, -⟩ := has_base_state .calibOn
      rw [hcode.1]
      exact hp.trans hs.symm
    · rfl
  · exact absurd ht hrequest
  · rw [hm]
    rfl

end Control

/-! ## The offsets and the file -/

section Persistence

variable {P : Platform} {c : Config} {isLoggedIn : Bool}
  {h : List (Server × Received)} {s t : Server} {m : Received}

/-- After a request that leaves calibration off, the file has the offsets. -/
def CalibrationPersisted (s : Server) (m : Received) (t : Server) : Prop :=
  s.isLoggedIn = true → m.buffer.type = mtStateChangeReq →
    has t.systemState calibOn = false →
      t.correctIni.bind readOffsets = some (t.xCorrect, t.yCorrect)

/-- An offset is moved while calibration is off. -/
def MovedWhileOff (s : Server) (m : Received) : Prop :=
  s.isLoggedIn = true ∧ m.buffer.type = mtCalibCommands
    ∧ (base s.systemState = prearmed ∨ base s.systemState = armedManual)
    ∧ has s.systemState calibOn = false
    ∧ (m.mem 0).headD 0 ∈ [decX, incX, decY, incY]

instance (s : Server) (m : Received) : Decidable (MovedWhileOff s m) :=
  inferInstanceAs (Decidable (_ ∧ _ ∧ _ ∧ _ ∧ _))

/-- The file takes the offsets: it can be opened, unless it has them already; they have six
    places, which is what `%f` prints; and `fprintf` and `fclose` succeed, unless what gets
    into the file is read as the offsets all the same. -/
def IniWrite.Takes (s : Server) : IniWrite → Prop
  | notOpened => s.offsets.Written
  | written => HasSixPlaces s.xCorrect ∧ HasSixPlaces s.yCorrect
  | broken left => readOffsets left = some (s.xCorrect, s.yCorrect)

/-- The answers with which `Correct.ini` takes the offsets. -/
def IniTakes (s : Server) : (c : Call) → c.Answer → Prop
  | .fopenIni, result => IniWrite.Takes s result
  | _, _ => True

/-- What the file is left with is read as the offsets. -/
theorem IniWrite.Takes.read {result : IniWrite} (h : result.Takes s) :
    (result.leaves s.correctIni s.xCorrect s.yCorrect).bind readOffsets
      = some (s.xCorrect, s.yCorrect) := by
  cases result with
  | notOpened => exact h
  | written => exact readOffsets_of_hasSixPlaces h.1 h.2
  | broken left => exact h

/-- The static flag says whether calibration is on, and while it is off the file
    has the offsets. -/
structure Calibrated (s : Server) : Prop where
  wasOn : s.calibrateWasOn = has s.systemState calibOn
  written : has s.systemState calibOn = false → s.offsets.Written

/-- A command that moves no offset. -/
theorem Offsets.move_other {cmd : UInt8} (hcmd : cmd ∉ [decX, incX, decY, incY])
    (o : Offsets) : o.move cmd = o := by
  simp only [List.mem_cons, List.not_mem_nil, or_false, not_or] at hcmd
  rw [move, if_neg hcmd.1, if_neg hcmd.2.1, if_neg hcmd.2.2.1, if_neg hcmd.2.2.2]

theorem Offsets.move_calibrateWasOn (cmd : UInt8) (o : Offsets) :
    (o.move cmd).calibrateWasOn = o.calibrateWasOn := by
  rw [move]
  repeat' split
  all_goals rfl

/-- The end of a request leaves the flag as calibration is, and the file with the offsets
    when calibration is off. -/
theorem Calibrated.close {ini : Option Bytes} (hs : Calibrated s)
    (hleaves : s.offsets.Leaves (IniTakes s) (has t.systemState calibOn) ini)
    (ht : t.offsets = s.offsets.close (has t.systemState calibOn) ini) :
    Calibrated t := by
  rw [Offsets.close] at ht
  by_cases hon : has t.systemState calibOn = true
  · rw [if_pos hon] at ht
    refine ⟨(congrArg Offsets.calibrateWasOn ht).trans hon.symm, fun hoff => ?_⟩
    cases hon.symm.trans hoff
  rw [if_neg hon] at ht
  replace hon : has t.systemState calibOn = false := Bool.eq_false_iff.mpr hon
  by_cases hwas : s.calibrateWasOn = true
  · rw [if_pos (show s.offsets.calibrateWasOn = true from hwas)] at ht
    refine ⟨(congrArg Offsets.calibrateWasOn ht).trans hon.symm, fun _ => ?_⟩
    obtain ⟨result, htakes, rfl⟩ := hleaves hon hwas
    have htakes' : result.Takes s := htakes
    rw [ht]
    exact htakes'.read
  · rw [if_neg (show ¬ s.offsets.calibrateWasOn = true from hwas)] at ht
    have hoff : s.calibrateWasOn = false := Bool.eq_false_iff.mpr hwas
    refine ⟨?_, fun _ => ?_⟩
    · rw [hon, ← hoff]
      exact congrArg Offsets.calibrateWasOn ht
    · rw [ht]
      exact hs.written (hs.wasOn.symm.trans hoff)

theorem Calibrated.step (hs : Calibrated s) (hmove : ¬ MovedWhileOff s m)
    (hend : EndsUnder (IniTakes s) (dispatch P m) s () t) : Calibrated t := by
  have hst : Step P s (.message m) t := hend.ends
  have hflag : (s.isLoggedIn = true → m.buffer.type ≠ mtStateChangeReq) →
      has t.systemState calibOn = has s.systemState calibOn := by
    intro hno
    rw [show t.systemState = _ from congrArg Control.systemState (step_message hst)]
    by_cases hrequest : m.buffer.type = mtStateChangeReq
    · have hout : s.isLoggedIn = false := Bool.eq_false_iff.mpr fun hin => hno hin hrequest
      rw [next_event_of_loggedOut (by rw [hrequest]; decide) hout]
      rfl
    · exact Control.has_calibOn_next_event hrequest _ s.control
  rcases postUnder_dispatch P m s () t hend with
    ⟨hin, htype, haccepted, ht⟩ | ⟨hin, htype, ini, hleaves, ht⟩ | ⟨hno, ht⟩
  · have hsame := hflag fun _ => by rw [htype]; decide
    refine ⟨?_, fun hoff => ?_⟩
    · rw [hsame, ← hs.wasOn]
      exact (congrArg Offsets.calibrateWasOn ht).trans (Offsets.move_calibrateWasOn _ _)
    · -- accepted with calibration off, so the command is none that moves
      rw [hsame] at hoff
      have hcmd : (m.mem 0).headD 0 ∉ [decX, incX, decY, incY] := by
        intro hmem
        refine hmove ⟨hin, htype, ?_, hoff, hmem⟩
        rcases haccepted with hpre | hmanual | hon
        · exact Or.inl hpre
        · exact Or.inr hmanual
        · cases hoff.symm.trans hon
      rw [ht, Offsets.move_other hcmd]
      exact hs.written hoff
  · exact hs.close hleaves ht
  · refine ⟨?_, fun hoff => ?_⟩
    · rw [hflag hno, ← hs.wasOn]
      exact congrArg Offsets.calibrateWasOn ht
    · rw [ht]
      exact hs.written ((hflag hno).symm.trans hoff)

/-- The offsets of a session, read from the file. -/
def Session.calibrated : Config := { Session.config with correctIni := some (offsetsText 60 (-90)) }

/-- The offsets are whole numbers. -/
def WholeOffsets (s : Server) : Prop := s.xCorrect.den = 1 ∧ s.yCorrect.den = 1

instance (s : Server) : Decidable (WholeOffsets s) := inferInstanceAs (Decidable (_ ∧ _))

theorem hasSixPlaces_of_den {x : Rat} (h : x.den = 1) : HasSixPlaces x := by
  have hx : x = (x.num : Rat) := (Rat.den_eq_one_iff x).mp h |>.symm
  refine ⟨x.num * 10 ^ 6, ?_⟩
  rw [Int.cast_mul, Int.cast_pow, Int.cast_ofNat, mul_div_cancel_right₀ _ (by norm_num)]
  exact hx

end Persistence

end DemoCannon
