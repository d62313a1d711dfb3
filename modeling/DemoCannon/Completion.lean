import DemoCannon.Targets

/-! # A firing order is worked through

    From an accepted request for `ENGAGE_AUTO` on, with no message in between,
    the targets of the order are selected one after the other, whatever the
    camera sees and however the frames fall between the statements of
    `EngagementThread`; and when the sequencer comes to rest, all of them have
    been (`order_worked_through`). -/

namespace DemoCannon

open Interaction Interaction.Program SystemState

/-- `EngagementThread` is not inside a laser/fire sequence. -/
def EngagementPc.Outside : EngagementPc → Prop
  | .wait | .waiting | .unlock => True
  | _ => False

theorem EngagementPc.Outside.succ {pc : EngagementPc} (h : pc.Outside)
    (hne : pc ≠ .waiting) : pc.succ.Outside := by
  cases pc with
  | wait | unlock => trivial
  | waiting => exact absurd rfl hne
  | _ => exact h.elim

instance : DecidablePred EngagementPc.Outside
  | .wait | .waiting | .unlock => isTrue trivial
  | .laserTrue | .sendLaser | .fireTrue | .sendFire | .fireFalse | .laserFalse
  | .armedFalse | .sendEngaged | .printfEngaged | .setComplete => isFalse id

/-- A frame or a statement: no message, and no wake-up without a signal. -/
def Act.Unattended : Act → Prop
  | .frame _ | .statement => True
  | _ => False

instance : DecidablePred Act.Unattended
  | .frame _ | .statement => isTrue trivial
  | .message _ | .spuriousWakeup => isFalse id

/-- A run in which no message is handled and no wake-up is spurious. -/
abbrev UnattendedRun (P : Platform) (s₀ : Server) :
    List (Server × Act) → Server → Prop :=
  Run (fun s a t => Step P s a t ∧ a.Unattended) s₀

/-- The targets of the stored order. -/
def Server.orderedTargets (s : Server) : List Nat :=
  s.autoEngage.firingOrder.toList.take s.autoEngage.numberOfTartgets

/-- The values that `ProcessTargetEngagements` has assigned to
    `AutoEngage.Target`, each with the position it was read from, the first
    first. -/
def assignments : List (Server × Act) → Server → List (Nat × Nat)
  | [], _ => []
  | (p, .frame _) :: h, s =>
      match p.readIndex with
      | some i => assignments h p ++ [(s.autoEngage.target, i)]
      | none => assignments h p
  | (p, _) :: h, _ => assignments h p

/-- A request for `ENGAGE_AUTO` that is accepted. -/
structure EngageAccepted (s : Server) (m : Received) : Prop where
  isLoggedIn : s.isLoggedIn = true
  type : m.buffer.type = mtStateChangeReq
  state : base (ntohl (m.mem 0)) = engageAuto
  prearmed : base s.systemState = SystemState.prearmed
  haveFiringOrder : s.autoEngage.haveFiringOrder = true

/-! ## Progress -/

section Progress

variable {α : Type} {f assigned : List α} {c d : Control}

/-- How many of the entries `f` have been selected, by the state of the
    sequencer. -/
def Progress (f : List α) (c : Control) (assigned : List α) : Prop :=
  match c.state with
  | .activate => assigned = []
  | .newTarget => c.currentIndex < f.length ∧ assigned = f.take c.currentIndex
  | .lookingForTarget | .tracking | .engagementInProgress | .engagementComplete =>
      c.currentIndex < f.length ∧ assigned = f.take (c.currentIndex + 1)
  | .notActive => assigned = f ∧ c.systemState = SystemState.prearmed
  | .trackingStable => False

/-- The sequencer has come to a result for the target at its index. -/
def HasResult (c : Control) : Prop :=
  c.state = .lookingForTarget ∨ c.state = .tracking ∨ c.state = .engagementInProgress
    ∨ c.state = .engagementComplete

theorem progress_result (h : HasResult c) :
    Progress f c assigned
      ↔ c.currentIndex < f.length ∧ assigned = f.take (c.currentIndex + 1) := by
  rw [Progress]
  rcases h with h | h | h | h <;> rw [h]

/-- Whatever was selected is the beginning of `f`. -/
theorem Progress.isPrefix (h : Progress f c assigned) : assigned <+: f := by
  rw [Progress] at h
  cases hstate : c.state with
  | activate =>
      rw [hstate] at h
      obtain rfl : assigned = [] := h
      exact List.nil_prefix
  | notActive =>
      rw [hstate] at h
      obtain ⟨rfl, -⟩ : assigned = f ∧ _ := h
      exact List.prefix_refl assigned
  | newTarget | lookingForTarget | tracking | engagementInProgress | engagementComplete =>
      rw [hstate] at h
      obtain ⟨-, rfl⟩ := h
      exact List.take_prefix _ f
  | trackingStable =>
      rw [hstate] at h
      exact h.elim

/-- The target at the index is selected, and looked for. -/
theorem Progress.select {i : Nat} (hi : i < f.length) (hindex : d.currentIndex = i)
    (hassigned : assigned = f.take i) (hresult : HasResult d) :
    Progress f d (assigned ++ [f[i]]) := by
  refine (progress_result hresult).mpr ⟨hindex ▸ hi, ?_⟩
  rw [hassigned, hindex]
  exact List.take_append_getElem hi

/-- The target at the index has been engaged or skipped. -/
theorem Progress.nextTarget (hlength : f.length = c.numberOfTartgets)
    (h : Progress f c assigned) (hstate : c.state = .engagementComplete) :
    Progress f c.nextTarget assigned := by
  obtain ⟨hindex, rfl⟩ := (progress_result (Or.inr (Or.inr (Or.inr hstate)))).mp h
  by_cases hlast : c.numberOfTartgets ≤ c.currentIndex + 1
  · rw [Control.nextTarget_completed hlast]
    exact ⟨List.take_of_length_le (hlength ▸ hlast), rfl⟩
  · rw [Control.nextTarget_more hlast]
    exact ⟨by rw [hlength]; exact Nat.lt_of_not_le hlast, rfl⟩

end Progress

namespace Control

/-- A frame leaves the number of targets alone. -/
theorem frame_numberOfTartgets {result : TEngagementState}
    (hresult : IsMatchResult result) (c : Control) :
    (c.frame result).numberOfTartgets = c.numberOfTartgets := by
  have hm := move_frame hresult c
  generalize c.frame result = d at hm ⊢
  cases hm with
  | quiet hq => exact hq.numberOfTartgets
  | tracks ht => exact ht.numberOfTartgets
  | listCompleted hstate hlast => rw [nextTarget_completed hlast]
  | newTarget hstate hlast => rw [nextTarget_more hlast]

/-- So does a statement. -/
theorem statement_numberOfTartgets (c : Control) :
    c.statement.numberOfTartgets = c.numberOfTartgets := by
  change c.effect.numberOfTartgets = _
  rw [effect]
  cases c.engagement with
  | fireTrue =>
      change (c.fire true).numberOfTartgets = _
      rw [fire]
      split <;> rfl
  | _ => rfl

/-- Outside a laser/fire sequence a statement has no effect. -/
theorem effect_outside {c : Control} (h : c.engagement.Outside) : c.effect = c := by
  rw [effect]
  cases hpc : c.engagement with
  | laserTrue | fireTrue | fireFalse | laserFalse | armedFalse | setComplete =>
      rw [hpc] at h
      exact h.elim
  | _ => rfl

/-- A statement of an engagement in progress leaves it in progress, or was the
    last one. -/
theorem statement_inProgress {c : Control} (h : c.state = .engagementInProgress) :
    c.statement.state = .engagementInProgress
      ∨ (c.statement.state = .engagementComplete ∧ c.statement.engagement = .unlock) := by
  by_cases hpc : c.engagement = .setComplete
  · rw [statement_setComplete hpc]
    exact Or.inr ⟨rfl, rfl⟩
  · have hnext : (c.next .statement).state = .engagementInProgress :=
      (next_inProgress_iff h hpc).mpr id
    exact Or.inl hnext

end Control

section Engaging

variable {P : Platform} {f : List Nat} {assigned : List (Nat × Nat)} {s t : Server}

/-- The order `f` is being engaged, and `assigned` has been selected of it. -/
structure Engaging (f : List Nat) (assigned : List (Nat × Nat)) (s : Server) : Prop where
  targets : s.orderedTargets = f
  length : f.length = s.autoEngage.numberOfTartgets
  pos : 0 < f.length
  progress : Progress f.zipIdx s.control assigned
  /-- In a laser/fire sequence the sequencer waits for it. -/
  thread : s.engagement.Outside ∨ s.autoEngage.state = .engagementInProgress

/-- The entry of the order at an index. -/
theorem Engaging.getElem_zipIdx (hs : Engaging f assigned s) {i : Nat}
    (hi : i < f.zipIdx.length) :
    f.zipIdx[i] = (s.autoEngage.firingOrder[i]?.getD 0, i) := by
  have hlt : i < f.length := List.length_zipIdx ▸ hi
  have hget : f[i]? = s.autoEngage.firingOrder[i]? := by
    rw [← hs.targets, Server.orderedTargets,
      List.getElem?_take_of_lt (hs.length ▸ hlt), Vector.getElem?_toList]
  rw [List.getElem_zipIdx, ← hget, List.getElem?_eq_getElem hlt, Nat.zero_add]
  rfl

/-- A target is selected, looked for, and counted. -/
theorem Engaging.select {fr : Frame} {h : List (Server × Act)} {d : Control}
    {result : TEngagementState} (hs : Engaging f (assignments h s) s)
    (hst : Step P s (.frame fr) t) (hresult : IsMatchResult result)
    (htrack : t.control = d.track true result) (hstate : d.state ≠ .trackingStable)
    (hread : s.readIndex = some d.currentIndex)
    (hi : d.currentIndex < f.zipIdx.length)
    (hassigned : assignments h s = f.zipIdx.take d.currentIndex) :
    Progress f.zipIdx t.control (assignments ((s, .frame fr) :: h) t) := by
  have htargets := post_targets_frame fr s () t hst
  rw [hread] at htargets
  have htarget : t.autoEngage.target
      = s.autoEngage.firingOrder[d.currentIndex]?.getD 0 := congrArg Prod.snd htargets
  obtain ⟨hres, hindex⟩ : HasResult (d.track true result)
      ∧ (d.track true result).currentIndex = d.currentIndex :=
    Control.track_result hresult hstate
  have hcount : assignments ((s, .frame fr) :: h) t
      = assignments h s ++ [f.zipIdx[d.currentIndex]] := by
    rw [assignments, hread, hs.getElem_zipIdx hi, ← htarget]
  rw [hcount, htrack]
  exact Progress.select hi hindex hassigned hres

/-- While the thread fires a frame changes nothing, and else only the signal starts it. -/
theorem Engaging.thread_frame {result : TEngagementState} (hs : Engaging f assigned s)
    (hresult : IsMatchResult result) (ht : t.control = s.control.frame result) :
    t.engagement.Outside ∨ t.autoEngage.state = .engagementInProgress := by
  have hnext : t.control = s.control.next (.frame result) := ht
  have hsound : (Control.Event.frame result).Sound := hresult
  have hframe : Control.Event.frame result ≠ .statement := by rintro ⟨⟩
  rcases Control.next_engagement s.control hsound hframe with hpc | ⟨-, hin⟩
  · rcases hs.thread with hout | hin
    · have hsame : t.engagement = s.engagement :=
        (congrArg Control.engagement hnext).trans hpc
      exact Or.inl (hsame ▸ hout)
    · refine Or.inr ?_
      have hstay : s.control.frame result = s.control := by
        rw [Control.frame, show s.control.state = _ from hin]
      exact (congrArg Control.state (ht.trans hstay)).trans hin
  · exact Or.inr ((congrArg Control.state hnext).trans hin)

/-- A frame selects the next target, or goes on with the one selected. -/
theorem Engaging.frame {fr : Frame} {h : List (Server × Act)}
    (hs : Engaging f (assignments h s) s) (hst : Step P s (.frame fr) t) :
    Engaging f (assignments ((s, .frame fr) :: h) t) t := by
  obtain ⟨result, hresult, ht⟩ := step_frame hst
  have horder : t.autoEngage.firingOrder = s.autoEngage.firingOrder :=
    step_firingOrder hst (by rintro ⟨m, ⟨⟩, -⟩)
  have hnumber : t.autoEngage.numberOfTartgets = s.autoEngage.numberOfTartgets :=
    (congrArg Control.numberOfTartgets ht).trans (Control.frame_numberOfTartgets hresult _)
  refine ⟨?_, hs.length.trans hnumber.symm, hs.pos, ?_, ?_⟩
  · rw [Server.orderedTargets, horder, hnumber]
    exact hs.targets
  · -- by the state in which the frame finds the sequencer
    have hprogress := hs.progress
    have hlength : f.zipIdx.length = f.length := List.length_zipIdx
    have hcount : s.readIndex = none →
        assignments ((s, .frame fr) :: h) t = assignments h s := by
      intro hread
      rw [assignments, hread]
    have hgo : ∀ {d : Control}, HasResult s.control → HasResult d →
        d.currentIndex = s.control.currentIndex →
        Progress f.zipIdx d (assignments h s) := by
      intro d hc hd hindex
      obtain ⟨hi, hassigned⟩ := (progress_result hc).mp hprogress
      exact (progress_result hd).mpr (hindex.symm ▸ ⟨hi, hassigned⟩)
    have hread := Server.readIndex.eq_1 s
    rw [Control.frame] at ht
    cases hstate : s.control.state with
    | activate =>
        rw [hstate] at ht
        rw [show s.autoEngage.state = _ from hstate] at hread
        rw [Progress, hstate] at hprogress
        exact hs.select hst hresult ht (by rintro ⟨⟩) hread (hlength ▸ hs.pos) hprogress
    | newTarget =>
        rw [hstate] at ht
        rw [show s.autoEngage.state = _ from hstate] at hread
        rw [Progress, hstate] at hprogress
        exact hs.select hst hresult ht (by rw [hstate]; decide) hread hprogress.1
          hprogress.2
    | lookingForTarget | tracking =>
        rw [hstate] at ht
        rw [show s.autoEngage.state = _ from hstate] at hread
        have hne : s.control.state ≠ .trackingStable := by rw [hstate]; decide
        obtain ⟨hfound, hindex⟩ : HasResult (s.control.track false result)
            ∧ (s.control.track false result).currentIndex = s.control.currentIndex :=
          Control.track_result hresult hne
        rw [hcount hread, ht]
        exact hgo (by simp [HasResult, hstate]) hfound hindex
    | engagementInProgress | notActive =>
        rw [hstate] at ht
        rw [show s.autoEngage.state = _ from hstate] at hread
        rw [hcount hread, ht]
        exact hprogress
    | engagementComplete =>
        rw [hstate] at ht
        rw [show s.autoEngage.state = _ from hstate] at hread
        rw [hcount hread, ht]
        exact hprogress.nextTarget (hlength.trans hs.length) hstate
    | trackingStable =>
        rw [Progress, hstate] at hprogress
        exact hprogress.elim
  · exact hs.thread_frame hresult ht

/-- A statement leaves the order where it is. -/
theorem Engaging.statement {h : List (Server × Act)}
    (hs : Engaging f (assignments h s) s) (hst : Step P s .statement t) :
    Engaging f (assignments ((s, .statement) :: h) t) t := by
  have ht := step_statement hst
  have horder : t.autoEngage.firingOrder = s.autoEngage.firingOrder :=
    step_firingOrder hst (by rintro ⟨m, ⟨⟩, -⟩)
  have hnumber : t.autoEngage.numberOfTartgets = s.autoEngage.numberOfTartgets :=
    (congrArg Control.numberOfTartgets ht).trans (Control.statement_numberOfTartgets _)
  have hindex : t.control.currentIndex = s.control.currentIndex := by
    have hstatement : ∀ result, Control.Event.statement ≠ .frame result := by
      rintro _ ⟨⟩
    exact (congrArg Control.currentIndex ht).trans
      (Control.next_currentIndex hstatement s.control)
  have hprogress := hs.progress
  suffices hthread : Progress f.zipIdx t.control (assignments h s)
      ∧ (t.engagement.Outside ∨ t.autoEngage.state = .engagementInProgress) by
    refine ⟨?_, hs.length.trans hnumber.symm, hs.pos, hthread.1, hthread.2⟩
    rw [Server.orderedTargets, horder, hnumber]
    exact hs.targets
  rcases hs.thread with hout | hin
  · -- outside an engagement only the place of the thread changes
    have hstay : s.control.effect = s.control := Control.effect_outside hout
    rw [Control.statement, hstay] at ht
    have hpc : t.engagement = s.engagement.succ := congrArg Control.engagement ht
    refine ⟨ht ▸ hprogress, Or.inl ?_⟩
    rw [hpc]
    exact EngagementPc.Outside.succ hout (not_waiting_of_step hst)
  · have hresult : HasResult s.control := Or.inr (Or.inr (Or.inl hin))
    obtain ⟨hi, hassigned⟩ := (progress_result hresult).mp hprogress
    have hgo : HasResult t.control → Progress f.zipIdx t.control (assignments h s) :=
      fun hd => (progress_result hd).mpr (hindex.symm ▸ ⟨hi, hassigned⟩)
    have hin' : s.control.state = .engagementInProgress := hin
    rcases Control.statement_inProgress hin' with hstay | ⟨hdone, hpc⟩
    · have hstate : t.control.state = _ := (congrArg Control.state ht).trans hstay
      exact ⟨hgo (Or.inr (Or.inr (Or.inl hstate))), Or.inr hstate⟩
    · have hstate : t.control.state = _ := (congrArg Control.state ht).trans hdone
      have hunlock : t.engagement = .unlock := (congrArg Control.engagement ht).trans hpc
      refine ⟨hgo (Or.inr (Or.inr (Or.inr hstate))), Or.inl ?_⟩
      rw [hunlock]
      trivial

/-- An accepted request activates the sequencer at the beginning of the order. -/
theorem Engaging.start {m : Received} (hm : EngageAccepted s m)
    (hpos : 1 ≤ s.autoEngage.numberOfTartgets)
    (hle : s.autoEngage.numberOfTartgets ≤ 10) (hout : s.engagement.Outside)
    (hst : Step P s (.message m) t) : Engaging s.orderedTargets [] t := by
  have horder : t.autoEngage.firingOrder = s.autoEngage.firingOrder := by
    refine step_firingOrder hst ?_
    rintro ⟨m', ⟨⟩, -, htype⟩
    exact absurd (hm.type.symm.trans htype) (by decide)
  have hin : s.control.isLoggedIn = true := hm.isLoggedIn
  have hbase : s.control.base = SystemState.prearmed ∧ s.control.haveFiringOrder = true :=
    ⟨hm.prearmed, hm.haveFiringOrder⟩
  have ht := step_message hst
  rw [Received.event_request hm.type, Control.next, if_pos hin, Control.request,
    Control.change, if_neg (by rw [hm.state]; decide), if_neg (by rw [hm.state]; decide),
    if_pos hm.state, if_pos hbase] at ht
  have hstate : t.control.state = .activate := congrArg Control.state ht
  have hnumber : t.autoEngage.numberOfTartgets = s.autoEngage.numberOfTartgets :=
    congrArg Control.numberOfTartgets ht
  have hpc : t.engagement = s.engagement := congrArg Control.engagement ht
  have hlength : s.orderedTargets.length = s.autoEngage.numberOfTartgets := by
    rw [Server.orderedTargets, List.length_take, Vector.length_toList]
    exact Nat.min_eq_left hle
  refine ⟨?_, hlength.trans hnumber.symm, hlength ▸ hpos, ?_, Or.inl (hpc ▸ hout)⟩
  · rw [Server.orderedTargets, horder, hnumber, Server.orderedTargets]
  · rw [Progress, hstate]

theorem Engaging.run {s₀ : Server} {h : List (Server × Act)} (hs : Engaging f [] s₀)
    (hr : UnattendedRun P s₀ h s) : Engaging f (assignments h s) s := by
  induction hr with
  | start => exact hs
  | @snoc h s t a _ hst ih =>
      obtain ⟨hst, hun⟩ := hst
      cases a with
      | frame fr => exact ih.frame hst
      | statement => exact ih.statement hst
      | message | spuriousWakeup => exact hun.elim

/-- **A firing order is worked through completely and in order**: from an
    accepted request for `ENGAGE_AUTO` on, the values assigned to
    `AutoEngage.Target` are at every moment the beginning of the order, and when
    the sequencer is at rest again each of its positions has been read exactly
    once and the state is `PREARMED`. -/
theorem order_worked_through {s₀ : Server} {m : Received} {h : List (Server × Act)}
    (hm : EngageAccepted s m) (hpos : 1 ≤ s.autoEngage.numberOfTartgets)
    (hle : s.autoEngage.numberOfTartgets ≤ 10) (hout : s.engagement.Outside)
    (hst : Step P s (.message m) s₀) (hr : UnattendedRun P s₀ h t) :
    (assignments h t).map Prod.fst <+: s.orderedTargets
      ∧ (t.autoEngage.state = .notActive →
        (assignments h t).map Prod.fst = s.orderedTargets
          ∧ (assignments h t).map Prod.snd = List.range s.autoEngage.numberOfTartgets
          ∧ t.systemState = prearmed) := by
  have hend := (Engaging.start hm hpos hle hout hst).run hr
  have hfst : s.orderedTargets.zipIdx.map Prod.fst = s.orderedTargets :=
    List.zipIdx_map_fst 0 s.orderedTargets
  constructor
  · have hprefix := hend.progress.isPrefix.map Prod.fst
    rwa [hfst] at hprefix
  · intro hrest
    have hprogress := hend.progress
    rw [Progress, show t.control.state = _ from hrest] at hprogress
    obtain ⟨hassigned, hstate⟩ := hprogress
    have hsnd : s.orderedTargets.zipIdx.map Prod.snd
        = List.range s.autoEngage.numberOfTartgets := by
      rw [List.zipIdx_map_snd, ← List.range_eq_range', Server.orderedTargets,
        List.length_take, Vector.length_toList, Nat.min_eq_left hle]
    rw [hassigned]
    exact ⟨hfst, hsnd, hstate⟩

/-- The frames and statements for target 3 twice, the last first. -/
def Session.engageTwice : List Act :=
  let once := Session.targetFrame :: (List.replicate 12 .statement
    ++ List.replicate 4 Session.targetFrame)
  once ++ once

/-- The same target twice: the session is followed to the end of the order. -/
theorem order_worked_through_twice :
    ∃ s m s₀ h t, EngageAccepted s m ∧ s.orderedTargets = [3, 3]
      ∧ Step Session.platform s (.message m) s₀
      ∧ UnattendedRun Session.platform s₀ h t ∧ t.autoEngage.state = .notActive
      ∧ (assignments h t).map Prod.fst <+: s.orderedTargets
      ∧ (t.autoEngage.state = .notActive →
        (assignments h t).map Prod.fst = s.orderedTargets
          ∧ (assignments h t).map Prod.snd = List.range s.autoEngage.numberOfTartgets
          ∧ t.systemState = prearmed) := by
  obtain ⟨_, s, s₀, -, hst, hq⟩ := Session.reaches_step
    [.message Session.login, .message Session.prearm,
      .message (Session.ofClient ⟨mtTargetSequence, [0x33, 0x33, 0], by decide⟩),
      .statement] (.message (Session.request engageAuto))
    (fun s s₀ => (s.isLoggedIn && base s.systemState = prearmed
        && s.autoEngage.haveFiringOrder) && (s.orderedTargets = [3, 3]
        && s.autoEngage.numberOfTartgets = 2 && s.engagement.Outside)
      && (follow (nextOf (decide ·.Unattended) Session.platform) s₀
        Session.engageTwice).any
        fun r => r.2.autoEngage.state = .notActive)
    (by decide +kernel)
  simp only [Bool.and_eq_true, decide_eq_true_eq] at hq
  obtain ⟨⟨⟨⟨hin, hbase⟩, hhave⟩, ⟨horder, hnumber⟩, hout⟩, hfollow⟩ := hq
  have hnext : ∀ (p : Server) (a : Act) (q : Server),
      nextOf (decide ·.Unattended) Session.platform p a = some q →
      Step Session.platform p a q ∧ a.Unattended := by
    intro p a q hq
    obtain ⟨hst, ha⟩ := step_of_nextOf p a q hq
    exact ⟨hst, of_decide_eq_true ha⟩
  obtain ⟨h, t, hr, ht⟩ := exists_run_of_follow hnext Session.engageTwice
    (fun t => t.autoEngage.state = .notActive) hfollow
  have hm : EngageAccepted s (Session.request engageAuto) :=
    ⟨hin, rfl, by decide +kernel, hbase, hhave⟩
  exact ⟨s, _, s₀, h, t, hm, horder, hst, hr, of_decide_eq_true ht,
    order_worked_through hm (hnumber ▸ by decide) (hnumber ▸ by decide) hout hst hr⟩

end Engaging

end DemoCannon
