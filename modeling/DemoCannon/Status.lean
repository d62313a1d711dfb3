import DemoCannon.Lib.Calls
import DemoCannon.Lib.Redraw
import DemoCannon.Device

/-! # The status display

    `OLED_UpdateStatus` redraws the lines of the OLED one by one.  Each line is
    a region of the display that watches something of the state word: the first
    the base, the second and third their flags (`Oled.Follows`).  The second
    and third draw no more than they watch.  The first also shows `ARMED`, and
    is out of date exactly when that flag is not what it was when the base last
    changed (`oledUpdateStatus_shows_iff`). -/

namespace DemoCannon

open Interaction Interaction.Program SystemState

/-! ## The words shown and the lines -/

/-- A word of `SystemState` while the server runs: one of the four base states
    and any of the four flags. -/
structure StatusWord where
  word : SystemState
  base_mem : base word = safe ∨ base word = prearmed ∨ base word = engageAuto
    ∨ base word = armedManual

/-- No base state is `UNKNOWN`, which the two static variables start with. -/
theorem StatusWord.base_ne (v : StatusWord) : base v.word ≠ base unknown := by
  rcases v.base_mem with h | h | h | h <;> rw [h] <;> decide

theorem StatusWord.ne_unknown (v : StatusWord) : v.word ≠ unknown :=
  fun h => v.base_ne (congrArg base h)

/-- What `-ARMED` adds to the name of the base state. -/
def armedSuffix (s : SystemState) : String := if has s SystemState.armed then "-ARMED" else ""

/-- Line 0. -/
def nameLine : Region StatusWord SystemState String where
  watch v := base v.word
  draw v := statusName (base v.word) ++ armedSuffix v.word

/-- A line that says whether a flag is set. -/
def flagLine (flag : SystemState) (on off : String) : Region StatusWord Bool String where
  watch v := has v.word flag
  draw v := if has v.word flag then on else off

/-- Line 1. -/
def laserLine : Region StatusWord Bool String := flagLine laserOn "LASER-ON" "LASER-OFF"

/-- Line 2. -/
def firingLine : Region StatusWord Bool String :=
  flagLine firing "FIRING-TRUE" "FIRING-FALSE"

/-- What `LastSystemState` is when `last` was the last word shown. -/
def lastSystemState : Option StatusWord → SystemState
  | none => unknown
  | some u => u.word

/-- The test of `OLED_UpdateStatus` for line 0 asks what the region watches. -/
theorem nameLine_refresh (last : Option StatusWord) (shown : String) (v : StatusWord) :
    nameLine.refresh last shown v =
      if base (lastSystemState last) = base v.word then shown else nameLine.draw v := by
  cases last with
  | none => rw [nameLine.refresh_first, lastSystemState, if_neg (Ne.symm v.base_ne)]
  | some u =>
      rw [lastSystemState]
      by_cases h : base u.word = base v.word
      · rw [nameLine.refresh_same h, if_pos h]
      · rw [nameLine.refresh_changed h, if_neg h]

/-- So do its tests for the other two, with that for a word unchanged. -/
theorem flagLine_refresh (flag : SystemState) (on off : String) (last : Option StatusWord)
    (shown : String) (v : StatusWord) :
    (flagLine flag on off).refresh last shown v =
      if lastSystemState last = v.word
          ∨ lastSystemState last ≠ unknown
            ∧ has (lastSystemState last) flag = has v.word flag
      then shown else if has v.word flag then on else off := by
  cases last with
  | none =>
      rw [Region.refresh_first, lastSystemState, if_neg]
      · rfl
      · rintro (h | ⟨h, -⟩)
        · exact v.ne_unknown h.symm
        · exact h rfl
  | some u =>
      rw [lastSystemState]
      by_cases h : has u.word flag = has v.word flag
      · rw [Region.refresh_same _ h, if_pos (Or.inr ⟨u.ne_unknown, h⟩)]
      · rw [Region.refresh_changed _ h, if_neg]
        · rfl
        · rintro (hw | ⟨-, hf⟩)
          · exact h (congrArg (has · flag) hw)
          · exact h hf

namespace Oled

/-- The three lines are those of `v`, drawn from scratch. -/
structure Shows (o : Oled) (v : StatusWord) : Prop where
  line0 : o.line0 = nameLine.draw v
  line1 : o.line1 = laserLine.draw v
  line2 : o.line2 = firingLine.draw v

/-! ## One update -/

section Update

variable (o : Oled) (s : SystemState)

theorem updateStatus_lastSystemState : (o.updateStatus s).lastSystemState = s := by
  rw [updateStatus]
  by_cases h : o.lastSystemState = s
  · rw [if_pos h]; exact h
  · rw [if_neg h]

/-- The base is remembered with the word it is the base of. -/
theorem updateStatus_lastSystemStateBase
    (ho : o.lastSystemStateBase = base o.lastSystemState) :
    (o.updateStatus s).lastSystemStateBase = base s := by
  rw [updateStatus]
  by_cases h : o.lastSystemState = s
  · rw [if_pos h, ho, h]
  · rw [if_neg h]
    by_cases hb : base s = o.lastSystemStateBase <;> grind

theorem updateStatus_line0 (ho : o.lastSystemStateBase = base o.lastSystemState) :
    (o.updateStatus s).line0 =
      if base o.lastSystemState = base s then o.line0
      else statusName (base s) ++ armedSuffix s := by
  rw [updateStatus]
  by_cases h : o.lastSystemState = s
  · rw [if_pos h, if_pos (congrArg base h)]
  · rw [if_neg h, ho]
    by_cases hb : base o.lastSystemState = base s
    · rw [if_pos hb]; grind
    · rw [if_neg hb]; grind [armedSuffix]

theorem updateStatus_line1 :
    (o.updateStatus s).line1 =
      if o.lastSystemState = s
          ∨ o.lastSystemState ≠ unknown ∧ has o.lastSystemState laserOn = has s laserOn
      then o.line1 else if has s laserOn then "LASER-ON" else "LASER-OFF" := by
  rw [updateStatus]
  by_cases h : o.lastSystemState = s
  · rw [if_pos h, if_pos (Or.inl h)]
  · rw [if_neg h]
    grind

theorem updateStatus_line2 :
    (o.updateStatus s).line2 =
      if o.lastSystemState = s
          ∨ o.lastSystemState ≠ unknown ∧ has o.lastSystemState firing = has s firing
      then o.line2 else if has s firing then "FIRING-TRUE" else "FIRING-FALSE" := by
  rw [updateStatus]
  by_cases h : o.lastSystemState = s
  · rw [if_pos h, if_pos (Or.inl h)]
  · rw [if_neg h]
    grind

end Update

/-! ## After any updates -/

/-- The display has followed the words of `history`, the latest first: each
    line is what its region shows. -/
structure Follows (o : Oled) (history : List StatusWord) : Prop where
  lastSystemState : o.lastSystemState = DemoCannon.lastSystemState history.head?
  lastSystemStateBase : o.lastSystemStateBase = base o.lastSystemState
  line0 : o.line0 = nameLine.shows "READY" history
  line1 : o.line1 = laserLine.shows "" history
  line2 : o.line2 = firingLine.shows "" history

/-- What `OLEDInit` leaves on the display. -/
theorem follows_nil : ({} : Oled).Follows [] where
  lastSystemState := rfl
  lastSystemStateBase := by decide
  line0 := rfl
  line1 := rfl
  line2 := rfl

theorem Follows.updateStatus {o : Oled} {history : List StatusWord}
    (ho : o.Follows history) (v : StatusWord) :
    (o.updateStatus v.word).Follows (v :: history) where
  lastSystemState := o.updateStatus_lastSystemState v.word
  lastSystemStateBase := by
    rw [o.updateStatus_lastSystemState,
      o.updateStatus_lastSystemStateBase v.word ho.lastSystemStateBase]
  line0 := by
    rw [o.updateStatus_line0 v.word ho.lastSystemStateBase, ho.lastSystemState, ho.line0,
      Region.shows, nameLine_refresh]
    rfl
  line1 := by
    rw [o.updateStatus_line1, ho.lastSystemState, ho.line1, Region.shows]
    exact (flagLine_refresh laserOn _ _ _ _ v).symm
  line2 := by
    rw [o.updateStatus_line2, ho.lastSystemState, ho.line2, Region.shows]
    exact (flagLine_refresh firing _ _ _ _ v).symm

/-- The first update draws everything. -/
theorem shows_updateStatus (v : StatusWord) : (({} : Oled).updateStatus v.word).Shows v := by
  have ho := follows_nil.updateStatus v
  exact ⟨ho.line0.trans (nameLine.shows_cons _ v []),
    ho.line1.trans (laserLine.shows_cons _ v []),
    ho.line2.trans (firingLine.shows_cons _ v [])⟩

/-- The flag of a name is all that can be wrong with line 0. -/
theorem nameLine_draw_iff {u v : StatusWord} (h : base u.word = base v.word) :
    nameLine.draw u = nameLine.draw v
      ↔ has u.word SystemState.armed = has v.word SystemState.armed := by
  change statusName (base u.word) ++ armedSuffix u.word
    = statusName (base v.word) ++ armedSuffix v.word ↔ _
  rw [h, String.append_right_inj, armedSuffix, armedSuffix]
  cases has u.word SystemState.armed <;> cases has v.word SystemState.armed <;> decide

/-- **What is right on the display.**  The last word is shown if and only if
    `ARMED` is in it what it was in the word that line 0 was drawn for. -/
theorem Follows.shows_iff {o : Oled} {v : StatusWord} {before : List StatusWord}
    (ho : o.Follows (v :: before)) :
    o.Shows v ↔ has (nameLine.drawnFor v before).word SystemState.armed
      = has v.word SystemState.armed := by
  have hflag : ∀ (flag : SystemState) (on off : String) (u v : StatusWord),
      (flagLine flag on off).watch u = (flagLine flag on off).watch v →
      (flagLine flag on off).draw u = (flagLine flag on off).draw v := by
    intro flag on off u v h
    exact congrArg (fun b : Bool => if b then on else off) h
  have hline0 : o.line0 = nameLine.draw (nameLine.drawnFor v before) :=
    ho.line0.trans (nameLine.shows_cons _ v before)
  rw [← nameLine_draw_iff (nameLine.watch_drawnFor v before), ← hline0]
  constructor
  · exact Shows.line0
  · intro h
    exact ⟨h, ho.line1.trans (laserLine.shows_eq_draw (hflag _ _ _) _ v before),
      ho.line2.trans (firingLine.shows_eq_draw (hflag _ _ _) _ v before)⟩

end Oled

/-! ## The program -/

/-- The state is set and `OLED_UpdateStatus` called. -/
def showStatus (v : StatusWord) : Prog Unit := do
  update fun s => { s with systemState := v.word }
  oledUpdateStatus

/-- One word after the other. -/
def showStatuses : List StatusWord → Prog Unit
  | [] => pure ()
  | v :: vs => do
      showStatus v
      showStatuses vs

/-- The server when `OLEDInit` has succeeded. -/
def Server.oledInit (s : Server) : Server := { s with haveOled := true, oled := {} }

section Program

/-- Any answers: the calls are those for the lock. -/
abbrev anyAnswer (c : Call) (_ : c.Answer) : Prop := True

theorem delivers_showStatus {s : Server} {history : List StatusWord}
    (hs : s.haveOled = true) (ho : s.oled.Follows history) (v : StatusWord) :
    Delivers anyAnswer (showStatus v) s
      fun _ _ t => t.haveOled = true ∧ t.oled.Follows (v :: history) := by
  rw [showStatus, delivers_bind, delivers_update, oledUpdateStatus, delivers_bind,
    delivers_fetch, if_pos hs]
  -- locked, drawn and unlocked
  refine ⟨⟨(), trivial⟩, fun _ _ => ⟨⟨(), trivial⟩, fun _ _ => ?_⟩⟩
  exact ⟨hs, ho.updateStatus v⟩

theorem delivers_showStatuses {s : Server} {history : List StatusWord}
    (hs : s.haveOled = true) (ho : s.oled.Follows history) (vs : List StatusWord) :
    Delivers anyAnswer (showStatuses vs) s
      fun _ _ t => t.oled.Follows (vs.reverse ++ history) := by
  induction vs generalizing s history with
  | nil => exact ho
  | cons v vs ih =>
      rw [showStatuses, delivers_bind]
      refine (delivers_showStatus hs ho v).mono ?_
      rintro _ _ t ⟨ht, hfollows⟩
      refine (ih ht hfollows).mono ?_
      intro _ _ u hu
      rw [List.reverse_cons, List.append_assoc]
      exact hu

end Program

/-- **The incremental display.**  After any words the OLED shows what drawing
    the last one from scratch shows if and only if `ARMED` is in it what it was
    in the word with which its base state was entered. -/
theorem oledUpdateStatus_shows_iff (s : Server) (vs : List StatusWord) (v : StatusWord) :
    Delivers anyAnswer (showStatuses (vs ++ [v])) s.oledInit fun _ _ t =>
      (t.oled.Shows v ↔ has (nameLine.drawnFor v vs.reverse).word SystemState.armed
        = has v.word SystemState.armed) := by
  refine (delivers_showStatuses (s := s.oledInit) rfl Oled.follows_nil (vs ++ [v])).mono ?_
  intro _ _ t ht
  rw [List.reverse_append, List.append_nil] at ht
  exact ht.shows_iff

/-- The automatic engagement, and its target found. -/
def engaging : StatusWord := ⟨engageAuto, Or.inr (Or.inr (Or.inl base_engageAuto))⟩

def engagingArmed : StatusWord :=
  ⟨engageAuto ||| SystemState.armed, Or.inr (Or.inr (Or.inl (by decide)))⟩

/-- When the target is found the display goes on without `-ARMED`. -/
theorem armed_not_shown :
    ∃ t, Ends (showStatuses ([engaging] ++ [engagingArmed])) ({} : Server).oledInit () t
      ∧ ¬ t.oled.Shows engagingArmed := by
  refine ⟨_, ends_of_exec (rfl : exec smooth _ _ = .done () _), ?_⟩
  rintro ⟨h, -, -⟩
  exact absurd h (by decide)

end DemoCannon
