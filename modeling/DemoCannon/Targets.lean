import DemoCannon.Sequencing
import DemoCannon.Settings

/-! # The firing order, from the message to the last target

    An order is stored digit by digit, and the sequencer reads one entry after
    the other.  Two results: what it reads is always a digit of the order
    accepted last, within its length (`read_target_ordered`); and once an order
    is being engaged and no message interferes, its targets are selected
    completely and in order (`order_worked_through`). -/

namespace DemoCannon

open Interaction Interaction.Program SystemState

/-! ## Storing and selecting targets -/

/-- The targets as stored, and the one selected. -/
def Settings.targets (c : Settings) : Vector Nat 10 × Nat := (c.firingOrder, c.target)

abbrev Server.targets (s : Server) : Vector Nat 10 × Nat := s.settings.targets

/-- What an order makes of the stored targets. -/
def storeOrder (firingOrder : Bytes) (targets : Vector Nat 10) : Vector Nat 10 :=
  if 10 < strlen firingOrder then targets
  else (copyOrder (firingOrder.take (strlen firingOrder)) 0 targets).1

/-- Where `ProcessTargetEngagements` reads the stored targets, if it does. -/
def Server.readIndex (s : Server) : Option Nat :=
  match s.autoEngage.state with
  | .activate => some 0
  | .newTarget => some s.autoEngage.currentIndex
  | _ => none

theorem acts_targets_processFiringOrder (firingOrder : Bytes) :
    Acts Server.targets (fun c => (storeOrder firingOrder c.1, 0))
      (processFiringOrder firingOrder) := by
  refine Acts.seq (fun c => (c.1, 0)) (fun c => (storeOrder firingOrder c.1, c.2))
    (Acts.update fun _ => rfl) (fun _ => ?_) fun _ => rfl
  by_cases hlen : 10 < strlen firingOrder
  · rw [if_pos hlen]
    refine (Acts.pure ()).congr fun c => ?_
    rw [storeOrder, if_pos hlen, id]
  rw [if_neg hlen]
  refine Acts.fetch fun s => ?_
  have hstore : storeOrder firingOrder s.autoEngage.firingOrder
      = (copyOrder (firingOrder.take (strlen firingOrder)) 0
        s.autoEngage.firingOrder).1 := if_neg hlen
  have hrest : ∀ (q : Prog Unit), Keeps Server.targets q →
      Post (do
        updateAuto fun a => { a with firingOrder :=
          (copyOrder (firingOrder.take (strlen firingOrder)) 0
            s.autoEngage.firingOrder).1 }
        q : Prog Unit) s (fun _ t =>
          t.targets = (storeOrder firingOrder s.targets.1, s.targets.2)) := by
    intro q hq
    refine (post_bind _ _ s _).mpr ((post_update _ s _).mpr ((hq _).mono fun _ t ht => ?_))
    rw [show t.targets = _ from ht, show s.targets.1 = s.autoEngage.firingOrder from rfl,
      hstore]
    rfl
  refine hrest _ (Acts.ite (Acts.pure ()) (Acts.ite ?_ ?_))
  · exact Acts.update_then (fun _ => rfl) fun _ => Acts.update fun _ => rfl
  · exact Acts.update_then (fun _ => rfl) fun _ => keeps_say _

theorem post_targets_frame (f : Frame) (s : Server) :
    Post (processTargetEngagements f) s (fun _ t => t.targets
      = match s.readIndex with
        | none => s.targets
        | some i =>
            (s.autoEngage.firingOrder, s.autoEngage.firingOrder[i]?.getD 0)) := by
  have hΦ := stateBlocks_settings Settings.targets
  have hselect : ∀ m : Server, Post (do
      selectTarget
      track f true : Prog Unit) m (fun _ t => t.targets = (m.autoEngage.firingOrder,
        m.autoEngage.firingOrder[m.autoEngage.currentIndex]?.getD 0)) := by
    intro m
    refine (post_bind _ _ m _).mpr ((post_update _ m _).mpr ?_)
    exact (hΦ.track f true _).mono fun _ t ht => ht
  refine (post_bind _ _ s _).mpr ((post_fetch s _).mpr ?_)
  rw [Server.readIndex]
  cases s.autoEngage.state with
  | notActive | trackingStable | engagementInProgress => exact (post_pure () s _).mpr rfl
  | lookingForTarget | tracking => exact hΦ.track f false s
  | engagementComplete => exact hΦ.nextTarget s
  | activate =>
      refine (post_bind _ _ s _).mpr ((post_update _ s _).mpr ?_)
      exact hselect _
  | newTarget => exact hselect s

theorem keeps_targets_processStateChangeRequest (state : SystemState) :
    Keeps Server.targets (processStateChangeRequest state) := by
  have hΦ := stateBlocks_settings Settings.targets
  have hwrite : Keeps Server.targets writeOffsets :=
    keeps_writeOffsets ⟨fun _ _ => rfl, fun _ _ => rfl⟩
  exact hΦ.processStateChangeRequest
    (hΦ.applyFlags (fun _ => Acts.update fun _ => rfl) hwrite) state

theorem post_targets_dispatch (P : Platform) (m : Received) (s : Server) :
    Post (dispatch P m) s (fun _ t => t.targets
      = if s.isLoggedIn = true ∧ m.buffer.type = mtTargetSequence then
          (storeOrder (m.mem 0) s.autoEngage.firingOrder, 0)
        else s.targets) := by
  have hΦ := stateBlocks_settings Settings.targets
  rw [dispatch]
  by_cases hlogin : m.buffer.type = mtLoginReq
  · have hno : ¬ (s.isLoggedIn = true ∧ m.buffer.type = mtTargetSequence) := by
      rw [hlogin]
      exact fun h => absurd h.2 (by decide)
    rw [if_pos hlogin, if_neg hno]
    exact hΦ.next (hΦ.auditlog _) (hΦ.processLogin P _) s
  rw [if_neg hlogin]
  refine (post_bind _ _ s _).mpr ((post_fetch s _).mpr ?_)
  by_cases hin : s.isLoggedIn = false
  · rw [if_pos hin, if_neg fun h => absurd (hin.symm.trans h.1) (by decide)]
    exact (post_pure () s _).mpr rfl
  rw [if_neg hin]
  by_cases horder : m.buffer.type = mtTargetSequence
  · have hrun : switchType m = (do
        auditlog "MT_TARGET_SEQUENCE"
        processFiringOrder (m.mem 0)) := by
      rw [switchType, horder]
      rfl
    rw [hrun, if_pos ⟨(Bool.not_eq_false _).mp hin, horder⟩]
    refine (post_bind _ _ s _).mpr ((post_auditlog _ s).mono ?_)
    rintro _ m' rfl
    exact acts_targets_processFiringOrder _ m'
  · rw [if_neg fun h => horder h.2]
    exact keeps_switchType Settings.targets
      (fun _ => keeps_processCalibCommands ⟨fun _ _ => rfl, fun _ _ => rfl⟩)
      (absurd · horder) (fun _ => keeps_targets_processStateChangeRequest) s

/-! ## The stored digits -/

/-- `c - '0'`. -/
def digitValue (c : UInt8) : Nat := c.toNat - 0x30

theorem take_strlen (bs : Bytes) : bs.take (strlen bs) = bs.takeWhile (· ≠ 0) :=
  (List.prefix_iff_eq_take.mp (List.takeWhile_prefix _)).symm

/-- Copying from a position on leaves the entries before it alone. -/
theorem copyOrder_before (bs : Bytes) {i j : Nat} (hj : j < i) (targets : Vector Nat 10) :
    (copyOrder bs i targets).1[j]? = targets[j]? := by
  induction bs generalizing i targets with
  | nil => rfl
  | cons c rest ih =>
      rw [copyOrder]
      by_cases hc : isDigit c = true
      · rw [if_pos hc, ih (Nat.lt_succ_of_lt hj)]
        exact Vector.getElem?_setIfInBounds_ne (Nat.ne_of_gt hj)
      · rw [if_neg hc]

/-- Digits are copied to their positions. -/
theorem copyOrder_getElem? {bs : Bytes} (hdigits : bs.all isDigit = true) {i k : Nat}
    {c : UInt8} (hc : bs[k]? = some c) (hfit : i + k < 10) (targets : Vector Nat 10) :
    (copyOrder bs i targets).1[i + k]? = some (digitValue c) := by
  induction bs generalizing i k targets with
  | nil => cases hc
  | cons d rest ih =>
      obtain ⟨hd, hrest⟩ := Bool.and_eq_true_iff.mp (List.all_cons ▸ hdigits)
      rw [copyOrder, if_pos hd]
      cases k with
      | zero =>
          obtain rfl : d = c := Option.some.inj hc
          exact (copyOrder_before rest (Nat.lt_succ_self i) _).trans
            (Vector.getElem?_setIfInBounds_self_of_lt hfit)
      | succ k =>
          rw [show i + (k + 1) = i + 1 + k by omega]
          exact ih hrest hc (by omega) _

/-- The entries of a stored order are its digits. -/
theorem storeOrder_getElem? {firingOrder : Bytes} (horder : Control.IsOrder firingOrder)
    {k : Nat} {c : UInt8} (hc : (firingOrder.takeWhile (· ≠ 0))[k]? = some c)
    (targets : Vector Nat 10) :
    (storeOrder firingOrder targets)[k]? = some (digitValue c) := by
  obtain ⟨-, hle, hdigits⟩ := horder
  have hk : k < strlen firingOrder := (List.getElem?_eq_some_iff.mp hc).1
  rw [storeOrder, if_neg (Nat.not_lt.mpr hle)]
  rw [← take_strlen] at hc
  have hget := copyOrder_getElem? hdigits hc (show 0 + k < 10 by omega) targets
  rwa [Nat.zero_add] at hget

namespace Control

/-! ## Order, index and sequencer over an event -/

/-- Whatever is no order keeps the order, or clears it and stops the
    sequencer. -/
theorem Move.order_kept {c d : Control} {e : Event} (hm : Move c e d)
    (hne : ∀ firingOrder, e ≠ .order firingOrder) :
    (d.haveFiringOrder = c.haveFiringOrder ∧ d.numberOfTartgets = c.numberOfTartgets)
      ∨ (d.haveFiringOrder = false ∧ d.numberOfTartgets = 0 ∧ d.state = .notActive) := by
  cases hm with
  | quiet hq => exact Or.inl ⟨hq.haveFiringOrder, hq.numberOfTartgets⟩
  | refused | prearmedFromManual | engageAuto | armedManual | flags | prearm =>
      exact Or.inl ⟨rfl, rfl⟩
  | safe | prearmedFromAuto => exact Or.inr ⟨rfl, rfl, rfl⟩
  | order hin => exact absurd rfl (hne _)
  | fireStart hbase =>
      rw [fire_true_manual hbase]
      exact Or.inl ⟨rfl, rfl⟩
  | tracks ht => exact Or.inl ⟨ht.haveFiringOrder, ht.numberOfTartgets⟩
  | listCompleted hstate hlast =>
      rw [nextTarget_completed hlast]
      exact Or.inl ⟨rfl, rfl⟩
  | newTarget hstate hlast =>
      rw [nextTarget_more hlast]
      exact Or.inl ⟨rfl, rfl⟩
  | laserTrue hpc =>
      rw [statement_laserTrue hpc]
      exact Or.inl ⟨rfl, rfl⟩
  | fireTrue hpc =>
      rw [statement_fireTrue hpc, fire]
      split <;> exact Or.inl ⟨rfl, rfl⟩
  | setComplete hpc =>
      rw [statement_setComplete hpc]
      exact Or.inl ⟨rfl, rfl⟩

/-- Outside the frames the sequencer is stopped, activated with an order, or told
    that an engagement is complete. -/
theorem Move.state_kept {c d : Control} {e : Event} (hm : Move c e d)
    (hne : ∀ result, e ≠ .frame result) :
    d.state = c.state ∨ d.state = .notActive ∨ d.state = .engagementComplete
      ∨ (d.state = .activate ∧ d.haveFiringOrder = true) := by
  cases hm with
  | quiet hq => exact Or.inl hq.state
  | refused | prearmedFromManual | armedManual | flags | prearm => exact Or.inl rfl
  | safe | prearmedFromAuto => exact Or.inr (Or.inl rfl)
  | engageAuto hstate hbase horder => exact Or.inr (Or.inr (Or.inr ⟨rfl, horder⟩))
  | order hin =>
      rw [order_eq]
      exact Or.inr (Or.inl rfl)
  | fireStart hbase =>
      rw [fire_true_manual hbase]
      exact Or.inl rfl
  | tracks | listCompleted | newTarget => exact absurd rfl (hne _)
  | laserTrue hpc =>
      rw [statement_laserTrue hpc]
      exact Or.inl rfl
  | fireTrue hpc =>
      rw [statement_fireTrue hpc]
      exact Or.inl (fire_state true c).1
  | setComplete hpc =>
      rw [statement_setComplete hpc]
      exact Or.inr (Or.inr (Or.inl rfl))

/-- Only a frame moves the index. -/
theorem next_currentIndex {e : Event} (hne : ∀ result, e ≠ .frame result) (c : Control) :
    (c.next e).currentIndex = c.currentIndex := by
  have hfire : ∀ value, (c.fire value).currentIndex = c.currentIndex := by
    intro value
    rw [fire]
    split <;> rfl
  have hkept : ∀ {d : Control}, d.currentIndex = c.currentIndex →
      (if c.isLoggedIn then d else c).currentIndex = c.currentIndex := by
    intro d hd
    split
    · exact hd
    · rfl
  cases e with
  | login accepted | other => rfl
  | request state =>
      refine hkept ?_
      change (c.change state).currentIndex = c.currentIndex
      rw [change]
      repeat' split
      all_goals rfl
  | order firingOrder =>
      refine hkept ?_
      rw [order_eq]
  | command cmd =>
      refine hkept ?_
      rw [command]
      split
      · exact hfire true
      · split
        · exact hfire false
        · rfl
  | prearm code =>
      refine hkept ?_
      rw [prearm]
      split <;> rfl
  | frame result => exact absurd rfl (hne result)
  | statement =>
      change c.effect.currentIndex = c.currentIndex
      rw [effect]
      cases c.engagement with
      | fireTrue => exact hfire true
      | _ => rfl

/-- A frame that looks for a target leaves the sequencer with a result, at the
    same target. -/
theorem track_result {newState : Bool} {result : TEngagementState}
    (hresult : IsMatchResult result) {c : Control} (hstate : c.state ≠ .trackingStable) :
    ((c.track newState result).state = .lookingForTarget
        ∨ (c.track newState result).state = .tracking
        ∨ (c.track newState result).state = .engagementInProgress
        ∨ (c.track newState result).state = .engagementComplete)
      ∧ (c.track newState result).currentIndex = c.currentIndex := by
  rw [track]
  rcases hresult with rfl | rfl | rfl | rfl
  · split <;> exact ⟨Or.inl rfl, rfl⟩
  · split <;> exact ⟨Or.inr (Or.inl rfl), rfl⟩
  · -- a stable target is a change, and starts an engagement
    rw [if_pos (by simp [hstate]), enter, signal]
    split <;> exact ⟨Or.inr (Or.inr (Or.inl rfl)), rfl⟩
  · split <;> exact ⟨Or.inr (Or.inr (Or.inr rfl)), rfl⟩

/-- After a frame a target is selected next only within the order. -/
theorem frame_state {result : TEngagementState} (hresult : IsMatchResult result)
    (c : Control) :
    (c.frame result).state ≠ .activate
      ∧ ((c.frame result).state = .newTarget →
        (c.frame result).currentIndex < (c.frame result).numberOfTartgets) := by
  have htrack : ∀ {newState : Bool} {d : Control}, d.state ≠ .trackingStable →
      (d.track newState result).state ≠ .activate
        ∧ ((d.track newState result).state = .newTarget →
          (d.track newState result).currentIndex
            < (d.track newState result).numberOfTartgets) := by
    intro newState d hd
    rcases (track_result hresult hd).1 with h | h | h | h <;> rw [h] <;>
      exact ⟨by decide, by rintro ⟨⟩⟩
  rw [frame]
  cases hstate : c.state with
  | notActive | engagementInProgress | trackingStable =>
      refine ⟨?_, fun h => ?_⟩
      · rw [hstate]
        decide
      · cases hstate.symm.trans h
  | activate => exact htrack (by rintro ⟨⟩)
  | newTarget | lookingForTarget | tracking => exact htrack (by rw [hstate]; decide)
  | engagementComplete =>
      dsimp only
      by_cases hlast : c.numberOfTartgets ≤ c.currentIndex + 1
      · rw [nextTarget_completed hlast]
        exact ⟨by rintro ⟨⟩, by rintro ⟨⟩⟩
      · rw [nextTarget_more hlast]
        exact ⟨by rintro ⟨⟩, fun _ => Nat.lt_of_not_le hlast⟩

end Control

section Reading

variable {P : Platform} {c : Config} {h : List (Server × Act)} {s t : Server} {a : Act}

/-- A logged-in firing order. -/
def Act.IsOrder (s : Server) (a : Act) : Prop :=
  ∃ m, a = .message m ∧ s.isLoggedIn = true ∧ m.buffer.type = mtTargetSequence

/-- Only an order writes the stored targets. -/
theorem step_firingOrder (hst : Step P s a t) (hno : ¬ a.IsOrder s) :
    t.autoEngage.firingOrder = s.autoEngage.firingOrder := by
  have hΦ := stateBlocks_settings Settings.targets
  cases a with
  | message m =>
      have ht := post_targets_dispatch P m s () t hst
      rw [if_neg fun h => hno ⟨m, rfl, h⟩] at ht
      exact congrArg Prod.fst ht
  | frame f =>
      have ht := congrArg Prod.fst (post_targets_frame f s () t hst)
      cases hread : s.readIndex with
      | none => rwa [hread] at ht
      | some i => rwa [hread] at ht
  | statement =>
      have hgoto : ∀ pc, Keeps (fun s => s.settings.targets) (goto pc) :=
        fun _ => Acts.update fun _ => rfl
      exact congrArg Prod.fst (hΦ.engagementStatement hgoto s () t hst)
  | spuriousWakeup =>
      have hwake : Keeps Server.targets wakeUp :=
        hΦ.read fun _ => hΦ.ite (Acts.update fun _ => rfl) hΦ.never
      exact congrArg Prod.fst (hwake s () t hst)

/-- The firing order that was accepted last: one to ten digits. -/
def lastOrder : List (Server × Act) → Option Bytes
  | [] => none
  | (s, .message m) :: h =>
      if s.isLoggedIn = true ∧ m.buffer.type = mtTargetSequence
          ∧ Control.IsOrder (m.mem 0) then
        some (m.cString 0)
      else lastOrder h
  | _ :: h => lastOrder h

theorem lastOrder_cons (hno : ¬ a.IsOrder s) : lastOrder ((s, a) :: h) = lastOrder h := by
  cases a with
  | message m =>
      rw [lastOrder, if_neg fun hm => hno ⟨m, rfl, hm.1, hm.2.1⟩]
  | frame f => rfl
  | statement => rfl
  | spuriousWakeup => rfl

/-- The digits of `order` are stored, and no more are counted. -/
structure Stores (order : Bytes) (s : Server) : Prop where
  length : order.length = s.autoEngage.numberOfTartgets
  digits : ∀ c ∈ order, isDigit c = true
  stored : ∀ (k : Nat) (c : UInt8), order[k]? = some c →
    s.autoEngage.firingOrder[k]? = some (digitValue c)

/-- Order, index and sequencer fit together. -/
structure Readable (h : List (Server × Act)) (s : Server) : Prop where
  ordered : s.autoEngage.haveFiringOrder = true →
    ∃ order, lastOrder h = some order ∧ Stores order s
  cleared : s.autoEngage.haveFiringOrder = false → s.autoEngage.numberOfTartgets = 0
  activate : s.autoEngage.state = .activate → s.autoEngage.haveFiringOrder = true
  newTarget : s.autoEngage.state = .newTarget →
    s.autoEngage.currentIndex < s.autoEngage.numberOfTartgets

theorem Readable.order (m : Received) (hin : s.isLoggedIn = true)
    (htype : m.buffer.type = mtTargetSequence) (hst : Step P s (.message m) t) :
    Readable ((s, .message m) :: h) t := by
  have hcontrol := step_message hst
  have htargets := post_targets_dispatch P m s () t hst
  have hin' : s.control.isLoggedIn = true := hin
  rw [Received.event_order htype, Control.next, if_pos hin', Control.order_eq] at hcontrol
  rw [if_pos ⟨hin, htype⟩] at htargets
  have hhave : t.autoEngage.haveFiringOrder = decide (Control.IsOrder (m.mem 0)) :=
    congrArg Control.haveFiringOrder hcontrol
  have hnumber : t.autoEngage.numberOfTartgets
      = if Control.IsOrder (m.mem 0) then strlen (m.mem 0) else 0 :=
    congrArg Control.numberOfTartgets hcontrol
  have hstate : t.autoEngage.state = .notActive := congrArg Control.state hcontrol
  have hstored : t.autoEngage.firingOrder = storeOrder (m.mem 0) s.autoEngage.firingOrder :=
    congrArg Prod.fst htargets
  refine ⟨fun htrue => ?_, fun hfalse => ?_, fun hs => ?_, fun hs => ?_⟩
  · have horder : Control.IsOrder (m.mem 0) := of_decide_eq_true (hhave.symm.trans htrue)
    refine ⟨m.cString 0, ?_, ?_, ?_, ?_⟩
    · rw [lastOrder, if_pos ⟨hin, htype, horder⟩]
    · rw [hnumber, if_pos horder]
      rfl
    · have hall := horder.2.2
      rw [take_strlen] at hall
      exact List.all_eq_true.mp hall
    · intro k c hc
      rw [hstored]
      exact storeOrder_getElem? horder hc _
  · rw [hnumber, if_neg (of_decide_eq_false (hhave.symm.trans hfalse))]
  · cases hstate.symm.trans hs
  · cases hstate.symm.trans hs

theorem Readable.step (hs : Readable h s) (hst : Step P s a t) :
    Readable ((s, a) :: h) t := by
  by_cases horder : a.IsOrder s
  · obtain ⟨m, rfl, hin, htype⟩ := horder
    exact .order m hin htype hst
  have hstored := step_firingOrder hst horder
  obtain ⟨e, hshows, hcontrol⟩ := step_control hst
  have hmove : Control.Move s.control e t.control :=
    hcontrol ▸ Control.move_next hshows.sound s.control
  have hkept : (t.control.haveFiringOrder = s.control.haveFiringOrder
        ∧ t.control.numberOfTartgets = s.control.numberOfTartgets)
      ∨ (t.control.haveFiringOrder = false ∧ t.control.numberOfTartgets = 0
        ∧ t.control.state = .notActive) := by
    by_cases he : ∃ firingOrder, e = .order firingOrder
    · -- an order without a login is dropped
      obtain ⟨firingOrder, rfl⟩ := he
      obtain ⟨m, rfl, htype, -⟩ := hshows.origin
      have hout : ¬ s.control.isLoggedIn = true := fun hin => horder ⟨m, rfl, hin, htype⟩
      rw [hcontrol, Control.next, if_neg hout]
      exact Or.inl ⟨rfl, rfl⟩
    · exact hmove.order_kept fun firingOrder h => he ⟨firingOrder, h⟩
  have hstate : (t.control.state = .activate → t.control.haveFiringOrder = true)
      ∧ (t.control.state = .newTarget →
        t.control.currentIndex < t.control.numberOfTartgets
          ∨ (s.control.state = .newTarget
            ∧ t.control.currentIndex = s.control.currentIndex)) := by
    by_cases hframe : ∃ result, e = .frame result
    · obtain ⟨result, rfl⟩ := hframe
      rw [hcontrol]
      have hresult : IsMatchResult result := hshows.sound
      exact ⟨fun h => absurd h (Control.frame_state hresult _).1,
        fun h => Or.inl ((Control.frame_state hresult _).2 h)⟩
    · have hne : ∀ result, e ≠ .frame result := fun result h => hframe ⟨result, h⟩
      have hindex : t.control.currentIndex = s.control.currentIndex :=
        hcontrol ▸ Control.next_currentIndex hne s.control
      rcases hmove.state_kept hne with h | h | h | ⟨h, hhave⟩
      · refine ⟨fun hact => ?_, fun hnew => Or.inr ⟨h.symm.trans hnew, hindex⟩⟩
        have hbefore := hs.activate (h.symm.trans hact)
        rcases hkept with ⟨hhave, -⟩ | ⟨-, -, hrest⟩
        · exact hhave.trans hbefore
        · cases hrest.symm.trans hact
      · rw [h]
        exact ⟨by rintro ⟨⟩, by rintro ⟨⟩⟩
      · rw [h]
        exact ⟨by rintro ⟨⟩, by rintro ⟨⟩⟩
      · rw [h]
        exact ⟨fun _ => hhave, by rintro ⟨⟩⟩
  refine ⟨fun hhave => ?_, fun hhave => ?_, hstate.1, fun hnew => ?_⟩
  · rcases hkept with ⟨hsame, hnumber⟩ | ⟨hno, -, -⟩
    · obtain ⟨order, hlast, hlength, hdigits, hget⟩ := hs.ordered (hsame.symm.trans hhave)
      refine ⟨order, (lastOrder_cons horder).trans hlast, hlength.trans hnumber.symm,
        hdigits, fun k c hc => ?_⟩
      rw [hstored]
      exact hget k c hc
    · cases hno.symm.trans hhave
  · rcases hkept with ⟨hsame, hnumber⟩ | ⟨-, hnumber, -⟩
    · exact hnumber.trans (hs.cleared (hsame.symm.trans hhave))
    · exact hnumber
  · rcases hstate.2 hnew with hlt | ⟨hbefore, hindex⟩
    · exact hlt
    · rcases hkept with ⟨-, hnumber⟩ | ⟨-, -, hrest⟩
      · change t.control.currentIndex < t.control.numberOfTartgets
        rw [hindex, hnumber]
        exact hs.newTarget hbefore
      · cases hrest.symm.trans hnew

/-- What is read of an order: an entry within its length, a digit of the order
    accepted last. -/
def ReadsOrdered (h : List (Server × Act)) (s : Server) (a : Act) (t : Server) : Prop :=
  ∀ f i, a = .frame f → s.readIndex = some i →
    s.autoEngage.haveFiringOrder = true ∧ i < s.autoEngage.numberOfTartgets
      ∧ s.autoEngage.numberOfTartgets ≤ 10
      ∧ ∃ order c, lastOrder h = some order ∧ order[i]? = some c ∧ isDigit c = true
        ∧ s.autoEngage.firingOrder[i]? = some (digitValue c)
        ∧ t.autoEngage.target = digitValue c

theorem Readable.reads (hs : Readable h s) (hsound : s.control.Sound)
    (hst : Step P s a t) : ReadsOrdered h s a t := by
  rintro f i rfl hread
  have hhave : s.autoEngage.haveFiringOrder = true
      ∧ i < s.autoEngage.numberOfTartgets := by
    rw [Server.readIndex] at hread
    cases hstate : s.autoEngage.state with
    | activate =>
        rw [hstate] at hread
        obtain rfl := Option.some.inj hread
        have hhave := hs.activate hstate
        exact ⟨hhave, (hsound.order hhave).1⟩
    | newTarget =>
        rw [hstate] at hread
        obtain rfl := Option.some.inj hread
        have hlt := hs.newTarget hstate
        refine ⟨(Bool.not_eq_false _).mp fun hno => ?_, hlt⟩
        rw [hs.cleared hno] at hlt
        exact Nat.not_lt_zero _ hlt
    | _ => rw [hstate] at hread; cases hread
  obtain ⟨hhave, hlt⟩ := hhave
  obtain ⟨order, hlast, hlength, hdigits, hget⟩ := hs.ordered hhave
  have hi : i < order.length := hlength ▸ hlt
  have hc : order[i]? = some order[i] := List.getElem?_eq_getElem hi
  have hstored := hget i _ hc
  refine ⟨hhave, hlt, (hsound.order hhave).2, order, order[i], hlast, hc,
    hdigits _ (List.getElem_mem hi), hstored, ?_⟩
  have htargets := post_targets_frame f s () t hst
  rw [hread] at htargets
  have htarget : t.autoEngage.target = s.autoEngage.firingOrder[i]?.getD 0 :=
    congrArg Prod.snd htargets
  rw [htarget, hstored]
  rfl

/-- **The sequencer reads ordered targets only**, in every run of the server. -/
theorem read_target_ordered (hr : ServerRun P c h s) : EveryStep ReadsOrdered h s := by
  have hinv : EveryStep ReadsOrdered h s ∧ Readable h s ∧ s.control.Sound := by
    induction hr with
    | start =>
        exact ⟨trivial, ⟨by rintro ⟨⟩, fun _ => rfl, by rintro ⟨⟩, by rintro ⟨⟩⟩,
          sound_start c⟩
    | snoc _ hst ih =>
        obtain ⟨hsteps, hreadable, hsound⟩ := ih
        exact ⟨⟨hreadable.reads hsound hst, hsteps⟩, hreadable.step hst,
          sound_step hsound hst⟩
  exact hinv.1

/-- The session engages its target. -/
theorem read_target_ordered_engage :
    ∃ h s, ServerRun Session.platform Session.config h s
      ∧ s.autoEngage.target = 3 ∧ EveryStep ReadsOrdered h s := by
  obtain ⟨h, s, hr, hs⟩ := Session.reaches Session.engage
    (fun s => s.autoEngage.target = 3) (by decide +kernel)
  exact ⟨h, s, hr, of_decide_eq_true hs, read_target_ordered hr⟩

end Reading

end DemoCannon
