import DemoCannon.Interlock

/-! # The sequencer, the base state and the engagement thread

    Two state machines and a thread have to agree: `ENGAGE_AUTO` in the state
    word, `AutoEngage.State`, and the place where `EngagementThread` is.  The
    first two agree as long as no order arrives in `ENGAGE_AUTO` and no
    engagement ends outside it (`sequencer_agrees_iff`); and the thread fires
    for a live engagement only, as long as nothing cancels the engagement on
    its way to `fire(true)` (`cancelled_never_fires_iff`). -/

namespace DemoCannon

open Interaction Interaction.Program SystemState

namespace Control

/-! ## Base state and sequencer -/

/-- The sequencer is active in `ENGAGE_AUTO` and only there. -/
def Agrees (c : Control) : Prop :=
  c.base = SystemState.engageAuto ↔ c.state ≠ .notActive

theorem Agrees.of_eq {c d : Control} (h : c.Agrees) (hbase : d.base = c.base)
    (hstate : d.state = c.state) : d.Agrees := by
  rw [Agrees, hbase, hstate]
  exact h

/-- In another base state the sequencer is at rest. -/
theorem Agrees.rest {c : Control} {b : SystemState} (h : c.Agrees) (hbase : c.base = b)
    (hne : b ≠ SystemState.engageAuto) : c.state = .notActive := by
  apply Decidable.not_not.mp
  intro hstate
  exact hne (hbase.symm.trans (h.mpr hstate))

theorem agrees_active {c : Control} (hbase : c.base = SystemState.engageAuto)
    (hstate : c.state ≠ .notActive) : c.Agrees :=
  ⟨fun _ => hstate, fun _ => hbase⟩

theorem agrees_rest {c : Control} {b : SystemState} (hbase : c.base = b)
    (hne : b ≠ SystemState.engageAuto) (hstate : c.state = .notActive) : c.Agrees := by
  constructor
  · intro hauto
    exact absurd (hbase.symm.trans hauto) hne
  · intro hactive
    exact absurd hstate hactive

/-- A move keeps the agreement, unless it takes an order in `ENGAGE_AUTO` or
    ends an engagement outside. -/
theorem Move.agrees {c d : Control} {e : Event} (hm : Move c e d) (hc : Sound c)
    (h : c.Agrees) :
    d.Agrees
      ∨ (∃ firingOrder, e = .order firingOrder ∧ c.isLoggedIn = true
        ∧ c.base = SystemState.engageAuto)
      ∨ (e = .statement ∧ c.engagement = .setComplete
        ∧ c.base ≠ SystemState.engageAuto) := by
  have hpre : SystemState.prearmed ≠ SystemState.engageAuto := by decide
  cases hm with
  | quiet hq => exact Or.inl (h.of_eq hq.base hq.state)
  | refused => exact Or.inl (h.of_eq rfl rfl)
  | safe hstate =>
      exact Or.inl (agrees_rest base_safe (by decide) rfl)
  | prearmedFromAuto hstate hbase =>
      exact Or.inl (agrees_rest base_prearmed hpre rfl)
  | prearmedFromManual hstate hbase =>
      -- the request leaves the sequencer alone, which was at rest before
      exact Or.inl (agrees_rest base_prearmed hpre (h.rest hbase (by decide)))
  | engageAuto hstate hbase horder =>
      exact Or.inl (agrees_active base_engageAuto (by rintro ⟨⟩))
  | armedManual hstate hbase =>
      have hrest : c.state = .notActive := h.rest hbase hpre
      exact Or.inl (agrees_rest base_armedManual (by decide) hrest)
  | flags hstate hbase =>
      have hrest : c.state = .notActive := h.rest hbase (by decide)
      exact Or.inl (agrees_rest hstate (by decide) hrest)
  | order hin =>
      by_cases hauto : c.base = SystemState.engageAuto
      · exact Or.inr (Or.inl ⟨_, rfl, hin, hauto⟩)
      · rw [order_eq]
        exact Or.inl (agrees_rest rfl hauto rfl)
  | fireStart hbase =>
      rw [fire_true_manual hbase]
      exact Or.inl (h.of_eq (base_flag .firing true c) rfl)
  | prearm hcode hsafe =>
      have hbase : c.base = SystemState.safe := (congrArg _ hsafe).trans base_safe
      exact Or.inl (agrees_rest base_prearmed hpre (h.rest hbase (by decide)))
  | tracks ht =>
      -- the sequencer was active, so the base is `ENGAGE_AUTO`
      exact Or.inl (agrees_active (ht.base.trans (h.mpr ht.active.1)) ht.state)
  | listCompleted hstate hlast =>
      rw [nextTarget_completed hlast]
      exact Or.inl (agrees_rest base_prearmed hpre rfl)
  | newTarget hstate hlast =>
      rw [nextTarget_more hlast]
      exact Or.inl (agrees_active (h.mpr (by rw [hstate]; decide)) (by rintro ⟨⟩))
  | laserTrue hpc =>
      rw [statement_laserTrue hpc]
      exact Or.inl (h.of_eq (base_laser true c) rfl)
  | fireTrue hpc =>
      rw [statement_fireTrue hpc]
      by_cases hdenied : firingDenied c.systemState
      · -- denied in `SAFE` and `PREARMED`, where the sequencer is at rest
        have hrest : c.state = .notActive := by
          rcases hc.base.firingDenied_iff.mp hdenied with hsafe | hprearmed
          · exact h.rest hsafe (by decide)
          · exact h.rest hprearmed hpre
        rw [fire_true_denied hdenied]
        exact Or.inl (agrees_rest base_prearmed hpre hrest)
      · rw [fire_true_permitted hdenied]
        exact Or.inl (h.of_eq (base_flag .firing true c) rfl)
  | setComplete hpc =>
      -- the thread writes the state whatever has become of its engagement
      by_cases hauto : c.base = SystemState.engageAuto
      · rw [statement_setComplete hpc]
        exact Or.inl (agrees_active hauto (by rintro ⟨⟩))
      · exact Or.inr (Or.inr ⟨rfl, hpc, hauto⟩)

end Control

section Agreement

variable {P : Platform} {c : Config} {h : List (Server × Act)} {s : Server}

/-- The base is `ENGAGE_AUTO` if and only if the sequencer is active. -/
def SequencerAgrees (s : Server) : Prop :=
  base s.systemState = engageAuto ↔ s.autoEngage.state ≠ .notActive

/-- A firing order is handled in `ENGAGE_AUTO`, or the thread sets
    `ENGAGEMENT_COMPLETE` in another base state. -/
def Diverges (s : Server) (a : Act) : Prop :=
  (base s.systemState = engageAuto ∧ s.isLoggedIn = true
      ∧ ∃ m, a = .message m ∧ m.buffer.type = mtTargetSequence)
    ∨ (base s.systemState ≠ engageAuto
      ∧ a = .statement ∧ s.engagement = .setComplete)

theorem step_diverges {s t : Server} {a : Act} (hst : Step P s a t)
    (hd : Diverges s a) : ¬ SequencerAgrees t := by
  rcases hd with ⟨hauto, hin, m, rfl, htype⟩ | ⟨hauto, rfl, hpc⟩
  · have ht := step_message hst
    have hin' : s.control.isLoggedIn = true := hin
    rw [Received.event_order htype, Control.next, if_pos hin', Control.order_eq] at ht
    have hbase : base t.systemState = engageAuto :=
      (congrArg Control.base ht).trans hauto
    have hstate : t.autoEngage.state = .notActive := congrArg Control.state ht
    exact fun hagrees => hagrees.mp hbase hstate
  · have ht := step_statement hst
    rw [Control.statement_setComplete hpc] at ht
    have hbase : base t.systemState = base s.systemState := congrArg Control.base ht
    have hstate : t.autoEngage.state = .engagementComplete :=
      congrArg Control.state ht
    refine fun hagrees => hauto (hbase.symm.trans (hagrees.mpr ?_))
    rw [hstate]
    decide

theorem step_agrees_iff {s t : Server} {a : Act} (hs : s.control.Sound)
    (hagrees : SequencerAgrees s) (hst : Step P s a t) :
    SequencerAgrees t ↔ ¬ Diverges s a := by
  refine ⟨fun ht hd => step_diverges hst hd ht, fun hno => ?_⟩
  obtain ⟨e, hshows, hm⟩ := step_move hst
  rcases hm.agrees hs hagrees with
    ht | ⟨firingOrder, rfl, hin, hauto⟩ | ⟨rfl, hpc, hauto⟩
  · exact ht
  · obtain ⟨m, ha, htype, -⟩ := hshows.origin
    exact absurd (Or.inl ⟨hauto, hin, m, ha, htype⟩) hno
  · exact absurd (Or.inr ⟨hauto, hshows.statement hpc (by decide), hpc⟩) hno

/-- **Sequencer and base state agree** in exactly the runs in which no firing
    order is handled in `ENGAGE_AUTO` and no engagement ends outside it. -/
theorem sequencer_agrees_iff (hr : ServerRun P c h s) :
    EveryState SequencerAgrees h s
      ↔ EveryStep (fun _ s a _ => ¬ Diverges s a) h s := by
  have hstart : (start c).control.Agrees :=
    Control.agrees_rest base_safe (by decide) rfl
  refine Run.everyState_iff (fun s => s.control.Sound ∧ SequencerAgrees s)
    ⟨sound_start c, hstart⟩ hstart ?_ ?_ hr
  · intro s a t hs hst ht
    exact ⟨sound_step hs.1 hst, ht⟩
  · intro s a t hs hst
    exact step_agrees_iff hs.1 hs.2 hst

theorem sequencer_agrees_iff_engage :
    ∃ h s, ServerRun Session.platform Session.config h s
      ∧ base s.systemState = engageAuto
      ∧ (EveryState SequencerAgrees h s
        ↔ EveryStep (fun _ s a _ => ¬ Diverges s a) h s) := by
  obtain ⟨h, s, hr, hs⟩ := Session.reaches Session.engage
    (fun s => base s.systemState = engageAuto) (by decide +kernel)
  exact ⟨h, s, hr, of_decide_eq_true hs, sequencer_agrees_iff hr⟩

/-- A second order in `ENGAGE_AUTO` stops the sequencer, and nothing ends
    `ENGAGE_AUTO`. -/
theorem order_stops_sequencer :
    ∃ h s, ServerRun Session.platform Session.config h s
      ∧ ¬ EveryState SequencerAgrees h s := by
  obtain ⟨h, s, hr, hs⟩ := Session.reaches
    [.message Session.login, .message Session.prearm, .message Session.order,
      .message (Session.request engageAuto), .message Session.order]
    (fun s => base s.systemState = engageAuto && s.autoEngage.state = .notActive)
    (by decide +kernel)
  obtain ⟨hauto, hstate⟩ := Bool.and_eq_true_iff.mp hs
  refine ⟨h, s, hr, fun hall => ?_⟩
  exact hall.last.mp (of_decide_eq_true hauto) (of_decide_eq_true hstate)

end Agreement

namespace Control

/-! ## The thread and the state of the sequencer -/

theorem fire_state (value : Bool) (c : Control) :
    (c.fire value).state = c.state ∧ (c.fire value).engagement = c.engagement := by
  rw [fire]
  split <;> exact ⟨rfl, rfl⟩

theorem command_state (cmd : UInt8) (c : Control) :
    (c.command cmd).state = c.state
      ∧ (c.command cmd).engagement = c.engagement := by
  rw [command]
  split
  · exact fire_state true c
  · split
    · exact fire_state false c
    · exact ⟨rfl, rfl⟩

theorem prearm_state (code : Bytes) (c : Control) :
    (c.prearm code).state = c.state
      ∧ (c.prearm code).engagement = c.engagement := by
  rw [prearm]
  split <;> exact ⟨rfl, rfl⟩

/-- A request writes the state of the sequencer in three cases. -/
def RequestCancels (state : SystemState) (c : Control) : Prop :=
  state.base = SystemState.safe
    ∨ (state.base = SystemState.prearmed ∧ c.base = SystemState.engageAuto)
    ∨ (state.base = SystemState.engageAuto ∧ c.base = SystemState.prearmed
      ∧ c.haveFiringOrder = true)

theorem request_engagement (state : SystemState) (c : Control) :
    (c.request state).engagement = c.engagement := by
  change (c.change state).engagement = c.engagement
  rw [change]
  repeat' split
  all_goals rfl

theorem request_state_of_cancels {state : SystemState} {c : Control}
    (h : RequestCancels state c) :
    (c.request state).state = .notActive ∨ (c.request state).state = .activate := by
  change (c.change state).state = _ ∨ (c.change state).state = _
  rcases h with hsafe | ⟨hpre, hauto⟩ | ⟨hauto, horder⟩
  · rw [change, if_pos hsafe]
    exact Or.inl rfl
  · rw [change, if_neg (by rw [hpre]; decide), if_pos hpre, if_pos hauto]
    exact Or.inl rfl
  · rw [change, if_neg (by rw [hauto]; decide), if_neg (by rw [hauto]; decide),
      if_pos hauto, if_pos horder]
    exact Or.inr rfl

theorem request_state_of_not_cancels {state : SystemState} {c : Control}
    (h : ¬ RequestCancels state c) : (c.request state).state = c.state := by
  change (c.change state).state = c.state
  rw [change, if_neg (fun hsafe => h (Or.inl hsafe))]
  by_cases hpre : state.base = SystemState.prearmed
  · rw [if_pos hpre, if_neg (fun hauto => h (Or.inr (Or.inl ⟨hpre, hauto⟩)))]
    split <;> rfl
  · rw [if_neg hpre]
    by_cases hauto : state.base = SystemState.engageAuto
    · rw [if_pos hauto, if_neg (fun horder => h (Or.inr (Or.inr ⟨hauto, horder⟩)))]
    · rw [if_neg hauto]
      repeat' split
      all_goals rfl

/-- The event takes the sequencer off its engagement. -/
def Event.Cancels (c : Control) : Event → Prop
  | .order _ => c.isLoggedIn = true
  | .request state => c.isLoggedIn = true ∧ RequestCancels state c
  | _ => False

/-- An engagement in progress stays in progress until it is cancelled. -/
theorem next_inProgress_iff {c : Control} {e : Event}
    (hstate : c.state = .engagementInProgress) (hpc : c.engagement ≠ .setComplete) :
    (c.next e).state = .engagementInProgress ↔ ¬ e.Cancels c := by
  have hkeeps : ∀ {d : Control}, d.state = c.state → d.state = .engagementInProgress :=
    fun h => h.trans hstate
  cases e with
  | login accepted => exact iff_of_true hstate id
  | other => exact iff_of_true hstate id
  | request state =>
      by_cases hin : c.isLoggedIn = true
      · rw [next, if_pos hin]
        by_cases hcancels : RequestCancels state c
        · refine iff_of_false ?_ (not_not_intro ⟨hin, hcancels⟩)
          rcases request_state_of_cancels hcancels with h | h <;> rw [h] <;> decide
        · exact iff_of_true (hkeeps (request_state_of_not_cancels hcancels))
            fun h => hcancels h.2
      · rw [next, if_neg hin]
        exact iff_of_true hstate fun h => hin h.1
  | order firingOrder =>
      by_cases hin : c.isLoggedIn = true
      · rw [next, if_pos hin, order_eq]
        exact iff_of_false (by rintro ⟨⟩) (not_not_intro hin)
      · rw [next, if_neg hin]
        exact iff_of_true hstate hin
  | command cmd =>
      refine iff_of_true ?_ id
      rw [next]
      split
      · exact hkeeps (command_state cmd c).1
      · exact hstate
  | prearm code =>
      refine iff_of_true ?_ id
      rw [next]
      split
      · exact hkeeps (prearm_state code c).1
      · exact hstate
  | frame result =>
      refine iff_of_true ?_ id
      rw [next, frame, hstate]
      exact hstate
  | statement =>
      refine iff_of_true ?_ id
      change c.effect.state = _
      rw [effect]
      cases h : c.engagement with
      | fireTrue => exact hkeeps (fire_state true c).1
      | setComplete => exact absurd h hpc
      | _ => exact hstate

/-- Only a frame or the thread itself moves the thread on. -/
theorem next_engagement_kept (c : Control) {e : Event} (hne : e ≠ .statement)
    (hframe : ∀ result, e ≠ .frame result) : (c.next e).engagement = c.engagement := by
  cases e with
  | login accepted => rfl
  | other => rfl
  | request state =>
      rw [next]
      split
      · exact request_engagement state c
      · rfl
  | order firingOrder =>
      rw [next, order_eq]
      split <;> rfl
  | command cmd =>
      rw [next]
      split
      · exact (command_state cmd c).2
      · rfl
  | prearm code =>
      rw [next]
      split
      · exact (prearm_state code c).2
      · rfl
  | frame result => exact absurd rfl (hframe result)
  | statement => exact absurd rfl hne

/-- Only the thread itself moves the thread on, except for the signal. -/
theorem next_engagement (c : Control) {e : Event} (he : e.Sound)
    (hne : e ≠ .statement) :
    (c.next e).engagement = c.engagement
      ∨ (c.engagement = .waiting ∧ (c.next e).state = .engagementInProgress) := by
  cases e with
  | frame result =>
      have htrack : ∀ {newState : Bool} {d : Control}, d.engagement = c.engagement →
          d.state ≠ .notActive ∧ d.state ≠ .engagementInProgress →
          (d.track newState result).engagement = c.engagement
            ∨ (c.engagement = .waiting
              ∧ (d.track newState result).state = .engagementInProgress) := by
        intro newState d hd hactive
        rcases (tracks_track he hactive).engagement with h | ⟨hw, -, hs⟩
        · exact Or.inl (h.trans hd)
        · exact Or.inr ⟨hd.symm.trans hw, hs⟩
      rw [next, frame]
      cases hstate : c.state with
      | notActive | engagementInProgress | trackingStable => exact Or.inl rfl
      | activate => exact htrack rfl ⟨by rintro ⟨⟩, by rintro ⟨⟩⟩
      | newTarget | lookingForTarget | tracking =>
          exact htrack rfl (by rw [hstate]; decide)
      | engagementComplete =>
          refine Or.inl ?_
          change c.nextTarget.engagement = c.engagement
          rw [nextTarget]
          split <;> rfl
  | _ => exact Or.inl (next_engagement_kept c hne (by rintro _ ⟨⟩))

end Control

section Cancellation

variable {P : Platform} {c : Config} {h : List (Server × Act)} {s : Server}

/-- The message of this step cancels an engagement: a firing order, or a request
    that writes `AutoEngage.State`. -/
def Cancels (s : Server) (a : Act) : Prop :=
  s.isLoggedIn = true ∧ ∃ m, a = .message m
    ∧ (m.buffer.type = mtTargetSequence
      ∨ (m.buffer.type = mtStateChangeReq
        ∧ Control.RequestCancels (ntohl (m.mem 0)) s.control))

theorem Act.Shows.cancels_iff {a : Act} {e : Control.Event} (h : a.Shows P s e) :
    e.Cancels s.control ↔ Cancels s a := by
  constructor
  · intro hcancels
    cases e with
    | order firingOrder =>
        obtain ⟨m, ha, htype, -⟩ := h.origin
        exact ⟨hcancels, m, ha, Or.inl htype⟩
    | request state =>
        obtain ⟨m, ha, htype, rfl⟩ := h.origin
        exact ⟨hcancels.1, m, ha, Or.inr ⟨htype, hcancels.2⟩⟩
    | _ => exact hcancels.elim
  · rintro ⟨hin, m, rfl, htype | ⟨htype, hrequest⟩⟩
    · rw [show e = m.event _ from h, Received.event_order htype]
      exact hin
    · rw [show e = m.event _ from h, Received.event_request htype]
      exact ⟨hin, hrequest⟩

/-- The part of a history since the thread was last woken. -/
def sinceWake (h : List (Server × Act)) : List (Server × Act) :=
  h.takeWhile fun q => q.1.engagement ≠ .waiting

/-- The thread was last woken by a signal of `ProcessTargetEngagements`. -/
def WokenBySignal (h : List (Server × Act)) : Prop :=
  ∃ p f, h.find? (fun q => q.1.engagement = .waiting) = some (p, .frame f)

/-- When `fire(true)` of the thread raises GPIO 17, the base is `ENGAGE_AUTO`
    and the engagement it was woken for has been in progress ever since. -/
def FiresLiveEngagement (h : List (Server × Act)) (s : Server) (a : Act)
    (t : Server) : Prop :=
  a = .statement → s.engagement = .fireTrue →
    s.gpio17 = false → t.gpio17 = true →
    base s.systemState = engageAuto
      ∧ s.autoEngage.state = .engagementInProgress
      ∧ WokenBySignal h
      ∧ ∀ q ∈ sinceWake h, q.1.autoEngage.state = .engagementInProgress

/-- `fire(true)` of the thread, with the cannon off, is not executed in
    `ARMED_MANUAL`, and in `ENGAGE_AUTO` only after a signal and without a
    cancelling message since. -/
def ReachesFireUncancelled (h : List (Server × Act)) (s : Server) (a : Act) :
    Prop :=
  a = .statement → s.engagement = .fireTrue → s.gpio17 = false →
    base s.systemState ≠ armedManual
      ∧ (base s.systemState = engageAuto →
        WokenBySignal h ∧ ∀ q ∈ sinceWake h, ¬ Cancels q.1 q.2)

/-- The statements from the wake-up to `fire(true)`. -/
def Early (pc : EngagementPc) : Prop :=
  pc = .laserTrue ∨ pc = .sendLaser ∨ pc = .fireTrue

/-- Since a signal, the engagement has been in progress exactly if no message
    cancelled it. -/
def Tracked (h : List (Server × Act)) (s : Server) : Prop :=
  Early s.engagement → WokenBySignal h →
    ((s.autoEngage.state = .engagementInProgress
        ∧ ∀ q ∈ sinceWake h, q.1.autoEngage.state = .engagementInProgress)
      ↔ ∀ q ∈ sinceWake h, ¬ Cancels q.1 q.2)

theorem early_of_succ {pc : EngagementPc} (h : Early pc.succ)
    (hwaiting : pc ≠ .waiting) : Early pc := by
  cases pc with
  | waiting => exact absurd rfl hwaiting
  | laserTrue => exact Or.inl rfl
  | sendLaser => exact Or.inr (Or.inl rfl)
  | _ => rcases h with h | h | h <;> cases h

theorem tracked_step {s t : Server} {a : Act} (hs : Tracked h s)
    (hst : Step P s a t) : Tracked ((s, a) :: h) t := by
  obtain ⟨e, hshows, ht⟩ := step_control hst
  have hstate : t.autoEngage.state = (s.control.next e).state :=
    congrArg Control.state ht
  have hpc : t.engagement = (s.control.next e).engagement :=
    congrArg Control.engagement ht
  intro hearly hwoken
  by_cases hwaiting : s.engagement = .waiting
  · -- the wake-up itself: nothing has happened since
    have hsince : sinceWake ((s, a) :: h) = [] :=
      List.takeWhile_cons_of_neg (by simpa using hwaiting)
    obtain ⟨p, f, hfind⟩ := hwoken
    rw [List.find?_cons_of_pos (by simpa using hwaiting)] at hfind
    obtain ⟨rfl, rfl⟩ := Prod.mk.inj (Option.some.inj hfind)
    obtain ⟨result, hresult, rfl⟩ := hshows
    have hin : t.autoEngage.state = .engagementInProgress := by
      have hsound : (Control.Event.frame result).Sound := hresult
      have hframe : Control.Event.frame result ≠ .statement := by rintro ⟨⟩
      rcases Control.next_engagement s.control hsound hframe with hsame | ⟨-, hin⟩
      · rw [hpc, hsame, show s.control.engagement = _ from hwaiting] at hearly
        rcases hearly with h | h | h <;> cases h
      · exact hstate.trans hin
    rw [hsince]
    exact iff_of_true ⟨hin, List.forall_mem_nil _⟩ (List.forall_mem_nil _)
  · have hsince : sinceWake ((s, a) :: h) = (s, a) :: sinceWake h :=
      List.takeWhile_cons_of_pos (by simpa using hwaiting)
    have hwoken' : WokenBySignal h := by
      obtain ⟨p, f, hfind⟩ := hwoken
      rw [List.find?_cons_of_neg (by simpa using hwaiting)] at hfind
      exact ⟨p, f, hfind⟩
    have hearly' : Early s.engagement := by
      rw [hpc] at hearly
      by_cases he : e = .statement
      · rw [he] at hearly
        exact early_of_succ hearly hwaiting
      · rcases Control.next_engagement s.control hshows.sound he with hsame | ⟨hw, -⟩
        · rw [hsame] at hearly
          exact hearly
        · exact absurd hw hwaiting
    have hnot : s.control.engagement ≠ .setComplete := by
      rcases hearly' with hp | hp | hp <;> rw [show s.control.engagement = _ from hp] <;>
        decide
    have ih := hs hearly' hwoken'
    have hstep : s.autoEngage.state = .engagementInProgress →
        (t.autoEngage.state = .engagementInProgress ↔ ¬ Cancels s a) := by
      intro hin
      rw [hstate, Control.next_inProgress_iff hin hnot, hshows.cancels_iff]
    rw [hsince, List.forall_mem_cons, List.forall_mem_cons]
    constructor
    · rintro ⟨hin, hbefore, hall⟩
      exact ⟨(hstep hbefore).mp hin, ih.mp ⟨hbefore, hall⟩⟩
    · rintro ⟨hno, hall⟩
      obtain ⟨hbefore, hrest⟩ := ih.mpr hall
      exact ⟨(hstep hbefore).mpr hno, hbefore, hrest⟩

theorem step_fires_iff {s t : Server} {a : Act} (hs : s.control.Sound)
    (htracked : Tracked h s) (hst : Step P s a t) :
    FiresLiveEngagement h s a t ↔ ReachesFireUncancelled h s a := by
  by_cases htrigger : a = .statement ∧ s.engagement = .fireTrue ∧ s.gpio17 = false
  · obtain ⟨rfl, hpc, hoff⟩ := htrigger
    have ht := step_statement hst
    rw [Control.statement_fireTrue hpc] at ht
    by_cases hdenied : firingDenied s.control.systemState
    · -- the attempt is denied, and nothing is raised
      have hbase := hs.base.firingDenied_iff.mp hdenied
      rw [Control.fire_true_denied hdenied] at ht
      have h17 : t.gpio17 = false := (congrArg Control.gpio17 ht).trans hoff
      constructor
      · intro _ _ _ _
        constructor
        · intro hmanual
          have hmanual' : s.control.base = armedManual := hmanual
          exact Control.not_disarmed (Or.inr hmanual') hbase
        · intro hauto
          have hauto' : s.control.base = engageAuto := hauto
          exact absurd hbase (Control.not_disarmed (Or.inl hauto'))
      · intro _ _ _ _ hon
        cases h17.symm.trans hon
    · rw [Control.fire_true_permitted hdenied] at ht
      have h17 : t.gpio17 = true := congrArg Control.gpio17 ht
      have htracked := htracked (Or.inr (Or.inr hpc))
      constructor
      · intro hlive
        obtain ⟨hauto, hin, hwoken, hall⟩ := hlive rfl hpc hoff h17
        intro _ _ _
        refine ⟨?_, fun _ => ⟨hwoken, (htracked hwoken).mp ⟨hin, hall⟩⟩⟩
        rw [hauto]
        decide
      · intro hreaches _ _ _ _
        obtain ⟨hmanual, hengaged⟩ := hreaches rfl hpc hoff
        have hauto : base s.systemState = engageAuto := by
          rcases hs.base with hb | hb | hb | hb
          · exact absurd (hs.base.firingDenied_iff.mpr (Or.inl hb)) hdenied
          · exact absurd (hs.base.firingDenied_iff.mpr (Or.inr hb)) hdenied
          · exact hb
          · exact absurd hb hmanual
        obtain ⟨hwoken, hall⟩ := hengaged hauto
        obtain ⟨hin, hall'⟩ := (htracked hwoken).mpr hall
        exact ⟨hauto, hin, hwoken, hall'⟩
  · exact iff_of_true (fun h₁ h₂ h₃ => absurd ⟨h₁, h₂, h₃⟩ htrigger)
      fun h₁ h₂ h₃ => absurd ⟨h₁, h₂, h₃⟩ htrigger

/-- **A cancelled engagement never fires**, in exactly the runs in which the
    thread does not reach `fire(true)` in `ARMED_MANUAL`, nor in `ENGAGE_AUTO`
    after a message that cancelled its engagement. -/
theorem cancelled_never_fires_iff (hr : ServerRun P c h s) :
    EveryStep FiresLiveEngagement h s
      ↔ EveryStep (fun h s a _ => ReachesFireUncancelled h s a) h s := by
  refine Run.everyStep_iff (fun h s => s.control.Sound ∧ Tracked h s) ?_ ?_ ?_ hr
  · refine ⟨sound_start c, fun hearly => ?_⟩
    rcases hearly with hp | hp | hp <;> cases hp
  · intro h s a t hs hst _
    exact ⟨sound_step hs.1 hst, tracked_step hs.2 hst⟩
  · intro h s a t hs hst
    exact step_fires_iff hs.1 hs.2 hst

theorem cancelled_never_fires_iff_engage :
    ∃ h s, ServerRun Session.platform Session.config h s
      ∧ s.engagement = .sendFire ∧ s.gpio17 = true
      ∧ (EveryStep FiresLiveEngagement h s
        ↔ EveryStep (fun h s a _ => ReachesFireUncancelled h s a) h s) := by
  obtain ⟨h, s, hr, hs⟩ := Session.reaches
    (Session.engage ++ [.statement, .statement, .statement])
    (fun s => s.engagement = .sendFire && s.gpio17) (by decide +kernel)
  obtain ⟨hpc, hon⟩ := Bool.and_eq_true_iff.mp hs
  exact ⟨h, s, hr, of_decide_eq_true hpc, hon, cancelled_never_fires_iff hr⟩

/-- An engagement is signalled, the operator goes to `PREARMED` and to
    `ARMED_MANUAL`, and the thread fires the cannon there. -/
theorem cancelled_engagement_fires :
    ∃ h s, ServerRun Session.platform Session.config h s
      ∧ ¬ EveryStep FiresLiveEngagement h s := by
  obtain ⟨h, s, t, hr, hst, hq⟩ := Session.reaches_step
    (Session.engage ++ [.message (Session.request prearmed),
      .message (Session.request armedManual), .statement, .statement]) .statement
    (fun s t => (s.engagement = .fireTrue && base s.systemState = armedManual)
      && (!s.gpio17 && t.gpio17)) (by decide +kernel)
  simp only [Bool.and_eq_true, decide_eq_true_eq, Bool.not_eq_true'] at hq
  obtain ⟨⟨hpc, hmanual⟩, hoff, hon⟩ := hq
  refine ⟨_, t, hr.snoc hst, fun hall => ?_⟩
  have hauto := (hall.1 rfl hpc hoff hon).1
  exact absurd (hmanual.symm.trans hauto) (by decide)

end Cancellation

end DemoCannon
