import DemoCannon.Refinement

/-! # What an event can do

    `Move c e d` lists, once and for all invariants, how the control part of
    the state can change: almost every event is `Quiet`, which keeps base and
    sequencer and switches nothing on, and the others are written out one by
    one.  `move_next` proves the list complete. -/

namespace DemoCannon

open Interaction Interaction.Program SystemState

namespace Control

/-- Base and sequencer stay, and no output and no laser flag is switched on. -/
structure Quiet (c d : Control) : Prop where
  base : d.base = c.base
  state : d.state = c.state
  haveFiringOrder : d.haveFiringOrder = c.haveFiringOrder
  numberOfTartgets : d.numberOfTartgets = c.numberOfTartgets
  gpio17 : d.gpio17 = true → c.gpio17 = true
  gpio18 : d.gpio18 = true → c.gpio18 = true
  laser : has d.systemState laserOn = true → has c.systemState laserOn = true

theorem Quiet.refl (c : Control) : Quiet c c :=
  ⟨rfl, rfl, rfl, rfl, id, id, id⟩

/-- The sequencer is looking for a target, before and after. -/
structure Tracks (c d : Control) : Prop where
  base : d.base = c.base
  active : c.state ≠ .notActive ∧ c.state ≠ .engagementInProgress
  state : d.state ≠ .notActive
  haveFiringOrder : d.haveFiringOrder = c.haveFiringOrder
  numberOfTartgets : d.numberOfTartgets = c.numberOfTartgets
  gpio17 : d.gpio17 = c.gpio17
  gpio18 : d.gpio18 = c.gpio18
  laser : has d.systemState laserOn = true → has c.systemState laserOn = true
  /-- The thread is woken for an engagement, or left where it is. -/
  engagement : d.engagement = c.engagement
    ∨ (c.engagement = .waiting ∧ d.engagement = .laserTrue
      ∧ d.state = .engagementInProgress)

/-- The ways an event can change the control part.  What a message does, it
    does after a login. -/
inductive Move (c : Control) : Event → Control → Prop where
  | quiet {e : Event} {d : Control} (h : Quiet c d) : Move c e d
  /-- A request that is refused still writes the laser. -/
  | refused {state : SystemState} : Move c (.request state) c.showLaser
  | safe {state : SystemState} (hstate : state.base = safe)
      (hin : c.isLoggedIn = true) :
      Move c (.request state) (c.standDown safe).clearOrder
  | prearmedFromAuto {state : SystemState} (hstate : state.base = prearmed)
      (hbase : c.base = engageAuto) (hin : c.isLoggedIn = true) :
      Move c (.request state) (c.standDown prearmed).clearOrder
  | prearmedFromManual {state : SystemState} (hstate : state.base = prearmed)
      (hbase : c.base = armedManual) (hin : c.isLoggedIn = true) :
      Move c (.request state) (c.standDown prearmed)
  | engageAuto {state : SystemState} (hstate : state.base = engageAuto)
      (hbase : c.base = prearmed) (horder : c.haveFiringOrder = true)
      (hin : c.isLoggedIn = true) :
      Move c (.request state) { c.standDown engageAuto with state := .activate }
  | armedManual {state : SystemState} (hstate : state.base = armedManual)
      (hbase : c.base = prearmed) (hin : c.isLoggedIn = true) :
      Move c (.request state) (c.standDown armedManual)
  /-- In `ARMED_MANUAL` the client sets the flags. -/
  | flags {state : SystemState} (hstate : state.base = armedManual)
      (hbase : c.base = armedManual) (hin : c.isLoggedIn = true) :
      Move c (.request state) ({ c with systemState := state }.showLaser)
  | order {firingOrder : Bytes} (hin : c.isLoggedIn = true) :
      Move c (.order firingOrder) (c.order firingOrder)
  | fireStart (hbase : c.base = armedManual) (hin : c.isLoggedIn = true) :
      Move c (.command fireStart) (c.fire true)
  | prearm {code : Bytes} (hcode : code.take 9 = prearmCode)
      (hsafe : c.systemState = safe) (hin : c.isLoggedIn = true) :
      Move c (.prearm code) { c with systemState := prearmed }
  | tracks {result : TEngagementState} {d : Control} (h : Tracks c d) :
      Move c (.frame result) d
  | listCompleted {result : TEngagementState} (hstate : c.state = .engagementComplete)
      (hlast : c.numberOfTartgets ≤ c.currentIndex + 1) :
      Move c (.frame result) c.nextTarget
  | newTarget {result : TEngagementState} (hstate : c.state = .engagementComplete)
      (hlast : ¬ c.numberOfTartgets ≤ c.currentIndex + 1) :
      Move c (.frame result) c.nextTarget
  | laserTrue (hpc : c.engagement = .laserTrue) : Move c .statement c.statement
  | fireTrue (hpc : c.engagement = .fireTrue) : Move c .statement c.statement
  | setComplete (hpc : c.engagement = .setComplete) :
      Move c .statement c.statement

/-! ## Requests -/

theorem showLaser_standDown {b : SystemState}
    (hb : b = safe ∨ b = prearmed ∨ b = engageAuto ∨ b = armedManual)
    (c : Control) : (c.standDown b).showLaser = c.standDown b := by
  obtain ⟨hs, hp, hauto, hm⟩ := has_base_state .laserOn
  rcases hb with rfl | rfl | rfl | rfl
  · exact congrArg (fun x => { c.standDown safe with gpio18 := x }) hs
  · exact congrArg (fun x => { c.standDown prearmed with gpio18 := x }) hp
  · exact congrArg (fun x => { c.standDown SystemState.engageAuto with gpio18 := x })
      hauto
  · exact congrArg (fun x => { c.standDown SystemState.armedManual with gpio18 := x })
      hm

theorem move_request (state : SystemState) {c : Control}
    (hin : c.isLoggedIn = true) :
    Move c (.request state) (c.request state) := by
  rw [request, change]
  -- in a state entered anew the laser is off already, so writing it does nothing
  by_cases hsafe : state.base = SystemState.safe
  · have hlaser : (c.standDown SystemState.safe).clearOrder.showLaser
        = (c.standDown SystemState.safe).clearOrder :=
      congrArg clearOrder (showLaser_standDown (Or.inl rfl) c)
    rw [if_pos hsafe, hlaser]
    exact .safe hsafe hin
  rw [if_neg hsafe]
  by_cases hpre : state.base = SystemState.prearmed
  · have hlaser := showLaser_standDown (Or.inr (Or.inl rfl)) c
    rw [if_pos hpre]
    by_cases hauto : c.base = SystemState.engageAuto
    · have hclear : (c.standDown SystemState.prearmed).clearOrder.showLaser
          = (c.standDown SystemState.prearmed).clearOrder :=
        congrArg clearOrder hlaser
      rw [if_pos hauto, hclear]
      exact .prearmedFromAuto hpre hauto hin
    rw [if_neg hauto]
    by_cases hmanual : c.base = SystemState.armedManual
    · rw [if_pos hmanual, hlaser]
      exact .prearmedFromManual hpre hmanual hin
    · rw [if_neg hmanual]
      exact .refused
  rw [if_neg hpre]
  by_cases hauto : state.base = SystemState.engageAuto
  · rw [if_pos hauto]
    by_cases horder : c.base = SystemState.prearmed ∧ c.haveFiringOrder = true
    · have hlaser : Control.showLaser
            { c.standDown SystemState.engageAuto with state := .activate }
          = { c.standDown SystemState.engageAuto with state := .activate } :=
        congrArg (fun d : Control => { d with state := .activate })
          (showLaser_standDown (Or.inr (Or.inr (Or.inl rfl))) c)
      rw [if_pos horder, hlaser]
      exact .engageAuto hauto horder.1 horder.2 hin
    · rw [if_neg horder]
      exact .refused
  rw [if_neg hauto]
  by_cases hmanual : state.base = SystemState.armedManual
  · rw [if_pos hmanual]
    by_cases hpre : c.base = SystemState.prearmed
    · rw [if_pos hpre, showLaser_standDown (Or.inr (Or.inr (Or.inr rfl))) c]
      exact .armedManual hmanual hpre hin
    rw [if_neg hpre]
    by_cases hthere : c.base = SystemState.armedManual
    · rw [if_pos hthere]
      exact .flags hmanual hthere hin
    · rw [if_neg hthere]
      exact .refused
  · rw [if_neg hmanual]
    exact .refused

/-! ## Commands -/

/-- Clearing a flag sets no flag. -/
theorem quiet_flag {f : SystemState} (hf : IsFlag f) (value : Bool)
    (hvalue : value = false ∨ f = SystemState.armed) (c : Control) :
    Quiet c (c.flag f value) := by
  refine ⟨base_flag hf value c, rfl, rfl, rfl, id, id, ?_⟩
  intro h
  rcases hvalue with rfl | rfl
  · rw [flag, if_neg (by decide), has_clear _ _ .laserOn] at h
    exact (Bool.and_eq_true_iff.mp h).1
  · cases value with
    | true =>
        rw [flag, if_pos rfl, has_or _ _ .laserOn] at h
        rcases Bool.or_eq_true_iff.mp h with h | h
        · exact h
        · exact absurd h (by decide)
    | false =>
        rw [flag, if_neg (by decide), has_clear _ _ .laserOn] at h
        exact (Bool.and_eq_true_iff.mp h).1

theorem quiet_fire_false (c : Control) : Quiet c (c.fire false) :=
  have h := quiet_flag .firing false (Or.inl rfl) c
  ⟨h.base, rfl, rfl, rfl, by rintro ⟨⟩, id, h.laser⟩

theorem quiet_laser_false (c : Control) : Quiet c (c.laser false) :=
  have h := quiet_flag .laserOn false (Or.inl rfl) c
  ⟨h.base, rfl, rfl, rfl, id, by rintro ⟨⟩, h.laser⟩

theorem move_command (cmd : UInt8) {c : Control} (hin : c.isLoggedIn = true) :
    Move c (.command cmd) (c.command cmd) := by
  by_cases hstart : cmd = DemoCannon.fireStart ∧ c.base = SystemState.armedManual
  · obtain ⟨rfl, hbase⟩ := hstart
    rw [command_start hbase]
    exact .fireStart hbase hin
  by_cases hstop : cmd = fireStop ∧ c.base = SystemState.armedManual
  · obtain ⟨rfl, hbase⟩ := hstop
    rw [command_stop hbase]
    exact .quiet (quiet_fire_false c)
  · rw [command_other]
    · exact .quiet (.refl c)
    · rintro ⟨rfl | rfl, hbase⟩
      · exact hstart ⟨rfl, hbase⟩
      · exact hstop ⟨rfl, hbase⟩

/-! ## Frames -/

theorem tracks_track {newState : Bool} {result : TEngagementState} {c : Control}
    (hresult : IsMatchResult result)
    (hactive : c.state ≠ .notActive ∧ c.state ≠ .engagementInProgress) :
    Tracks c (c.track newState result) := by
  have hstate : result ≠ .notActive := by
    rcases hresult with rfl | rfl | rfl | rfl <;> decide
  rw [track]
  by_cases hnew : (newState || decide (c.state ≠ result)) = true
  · rw [if_pos hnew]
    rcases hresult with rfl | rfl | rfl | rfl
    · have hq := quiet_flag .armed false (Or.inl rfl) { c with state := .lookingForTarget }
      exact ⟨hq.base, hactive, hstate, rfl, rfl, rfl, rfl, hq.laser, Or.inl rfl⟩
    · have hq := quiet_flag .armed true (Or.inr rfl) { c with state := .tracking }
      exact ⟨hq.base, hactive, hstate, rfl, rfl, rfl, rfl, hq.laser, Or.inl rfl⟩
    · -- the signal wakes the thread only if it is blocked
      by_cases hwaiting : c.engagement = .waiting
      · rw [enter, signal, if_pos hwaiting]
        exact ⟨rfl, hactive, by rintro ⟨⟩, rfl, rfl, rfl, rfl, id,
          Or.inr ⟨hwaiting, rfl, rfl⟩⟩
      · rw [enter, signal, if_neg hwaiting]
        exact ⟨rfl, hactive, by rintro ⟨⟩, rfl, rfl, rfl, rfl, id, Or.inl rfl⟩
    · exact ⟨rfl, hactive, hstate, rfl, rfl, rfl, rfl, id, Or.inl rfl⟩
  · rw [if_neg hnew]
    exact ⟨rfl, hactive, hstate, rfl, rfl, rfl, rfl, id, Or.inl rfl⟩

theorem move_frame {result : TEngagementState} (hresult : IsMatchResult result)
    (c : Control) : Move c (.frame result) (c.frame result) := by
  rw [frame]
  cases hstate : c.state with
  | notActive | engagementInProgress | trackingStable => exact .quiet (.refl c)
  | activate =>
      have h : Tracks { c with currentIndex := 0, state := .newTarget }
          (track true result { c with currentIndex := 0, state := .newTarget }) :=
        tracks_track hresult ⟨by rintro ⟨⟩, by rintro ⟨⟩⟩
      exact .tracks ⟨h.base, by rw [hstate]; decide, h.state, h.haveFiringOrder,
        h.numberOfTartgets, h.gpio17, h.gpio18, h.laser, h.engagement⟩
  | newTarget | lookingForTarget | tracking =>
      exact .tracks (tracks_track hresult (by rw [hstate]; decide))
  | engagementComplete =>
      by_cases hlast : c.numberOfTartgets ≤ c.currentIndex + 1
      · exact .listCompleted hstate hlast
      · exact .newTarget hstate hlast

/-! ## Statements -/

/-- Going on to another statement changes nothing else. -/
theorem Quiet.statement {c : Control} (h : Quiet c c.effect) :
    Quiet c c.statement :=
  ⟨h.base, h.state, h.haveFiringOrder, h.numberOfTartgets, h.gpio17, h.gpio18,
    h.laser⟩

theorem move_statement (c : Control) : Move c .statement c.statement := by
  have hquiet : Quiet c c.effect → Move c .statement c.statement :=
    fun h => .quiet h.statement
  cases hpc : c.engagement with
  | laserTrue => exact .laserTrue hpc
  | fireTrue => exact .fireTrue hpc
  | setComplete => exact .setComplete hpc
  | fireFalse =>
      exact hquiet (by rw [effect, hpc]; exact quiet_fire_false c)
  | laserFalse =>
      exact hquiet (by rw [effect, hpc]; exact quiet_laser_false c)
  | armedFalse =>
      exact hquiet (by rw [effect, hpc]; exact quiet_flag .armed false (Or.inl rfl) c)
  | wait | waiting | sendLaser | sendFire | sendEngaged | printfEngaged | unlock =>
      exact hquiet (by rw [effect, hpc]; exact .refl c)

/-! ## All events -/

/-- The frames of the machine come with a result of `TryToMatch`. -/
def Event.Sound : Event → Prop
  | .frame result => IsMatchResult result
  | _ => True

/-- **The list of moves is complete.** -/
theorem move_next {e : Event} (he : e.Sound) (c : Control) :
    Move c e (c.next e) := by
  -- a message without a login is dropped
  have hmessage : ∀ d : Control, (c.isLoggedIn = true → Move c e d) →
      Move c e (if c.isLoggedIn then d else c) := by
    intro d hd
    cases hin : c.isLoggedIn with
    | true => exact hd hin
    | false => exact .quiet (.refl c)
  cases e with
  | login accepted => exact .quiet ⟨rfl, rfl, rfl, rfl, id, id, id⟩
  | request state => exact hmessage _ (move_request state)
  | order firingOrder => exact hmessage _ .order
  | command cmd => exact hmessage _ (move_command cmd)
  | prearm code =>
      refine hmessage _ fun hin => ?_
      rw [prearm]
      by_cases h : c.systemState = SystemState.safe ∧ code.take 9 = prearmCode
      · rw [if_pos h]
        exact .prearm h.2 h.1 hin
      · rw [if_neg h]
        exact .quiet (.refl c)
  | other => exact .quiet (.refl c)
  | frame result => exact move_frame he c
  | statement => exact move_statement c

end Control

/-! ## All steps of the server -/

theorem Act.Shows.sound {P : Platform} {s : Server} {a : Act} {e : Control.Event}
    (h : a.Shows P s e) : e.Sound := by
  cases a with
  | message m =>
      rw [show e = m.event _ from h, Received.event]
      repeat' split
      all_goals trivial
  | frame f =>
      obtain ⟨result, hresult, rfl⟩ := h
      exact hresult
  | statement =>
      rw [show e = .statement from h]
      trivial
  | spuriousWakeup =>
      rw [h.1]
      trivial

/-- Every step of the server is a move of the machine. -/
theorem step_move {P : Platform} {s t : Server} {a : Act} (h : Step P s a t) :
    ∃ e, a.Shows P s e ∧ Control.Move s.control e t.control := by
  obtain ⟨e, hshows, ht⟩ := step_control h
  exact ⟨e, hshows, ht ▸ Control.move_next hshows.sound s.control⟩

/-! ## What was received when an event is seen -/

namespace Received

variable {m : Received} {P : Platform} {s : Server} {a : Act}

theorem event_login (h : m.buffer.type = mtLoginReq) (accepted : Bool) :
    m.event accepted = .login accepted := by
  rw [event, h]; rfl

theorem event_cam (h : m.buffer.type = mtCamStateChangeReq) (accepted : Bool) :
    m.event accepted = .other := by
  rw [event, h]; rfl

theorem event_command (h : m.buffer.type = mtCommands) (accepted : Bool) :
    m.event accepted = .command ((m.mem 0).headD 0) := by
  rw [event, h]; rfl

theorem event_calib (h : m.buffer.type = mtCalibCommands) (accepted : Bool) :
    m.event accepted = .other := by
  rw [event, h]; rfl

theorem event_order (h : m.buffer.type = mtTargetSequence) (accepted : Bool) :
    m.event accepted = .order (m.mem 0) := by
  rw [event, h]; rfl

theorem event_prearm (h : m.buffer.type = mtPrearm) (accepted : Bool) :
    m.event accepted = .prearm (m.mem 0) := by
  rw [event, h]; rfl

theorem event_request (h : m.buffer.type = mtStateChangeReq) (accepted : Bool) :
    m.event accepted = .request (ntohl (m.mem 0)) := by
  rw [event, h]; rfl

/-- The event of a message is that of its type. -/
theorem event_cases (m : Received) (accepted : Bool) :
    (m.buffer.type = mtLoginReq ∧ m.event accepted = .login accepted)
      ∨ (m.buffer.type = mtCommands
        ∧ m.event accepted = .command ((m.mem 0).headD 0))
      ∨ (m.buffer.type = mtTargetSequence
        ∧ m.event accepted = .order (m.mem 0))
      ∨ (m.buffer.type = mtPrearm ∧ m.event accepted = .prearm (m.mem 0))
      ∨ (m.buffer.type = mtStateChangeReq
        ∧ m.event accepted = .request (ntohl (m.mem 0)))
      ∨ m.event accepted = .other := by
  -- in the order of the dispatch
  by_cases hlogin : m.buffer.type = mtLoginReq
  · exact Or.inl ⟨hlogin, event_login hlogin _⟩
  by_cases hcam : m.buffer.type = mtCamStateChangeReq
  · simp [event_cam hcam]
  by_cases hcommand : m.buffer.type = mtCommands
  · exact Or.inr (Or.inl ⟨hcommand, event_command hcommand _⟩)
  by_cases hcalib : m.buffer.type = mtCalibCommands
  · simp [event_calib hcalib]
  by_cases horder : m.buffer.type = mtTargetSequence
  · exact Or.inr (Or.inr (Or.inl ⟨horder, event_order horder _⟩))
  by_cases hprearm : m.buffer.type = mtPrearm
  · simp [event_prearm hprearm, hprearm]
  by_cases hrequest : m.buffer.type = mtStateChangeReq
  · simp [event_request hrequest, hrequest]
  · simp [event, hlogin, hcam, hcommand, hcalib, horder, hprearm, hrequest]

/-- A message is neither a frame nor a statement. -/
theorem event_ne (m : Received) (accepted : Bool) :
    m.event accepted ≠ .statement ∧ ∀ result, m.event accepted ≠ .frame result := by
  rcases m.event_cases accepted with
    ⟨-, h⟩ | ⟨-, h⟩ | ⟨-, h⟩ | ⟨-, h⟩ | ⟨-, h⟩ | h <;>
    rw [h] <;> exact ⟨by rintro ⟨⟩, by rintro _ ⟨⟩⟩

end Received

/-- What a step was that shows the event. -/
def Control.Event.Origin (s : Server) (a : Act) : Event → Prop
  | .request state => ∃ m, a = .message m ∧ m.buffer.type = mtStateChangeReq
      ∧ state = ntohl (m.mem 0)
  | .order firingOrder => ∃ m, a = .message m ∧ m.buffer.type = mtTargetSequence
      ∧ firingOrder = m.mem 0
  | .prearm code => ∃ m, a = .message m ∧ m.buffer.type = mtPrearm ∧ code = m.mem 0
  | .frame _ => ∃ f, a = .frame f
  | .statement => s.engagement ≠ .waiting → a = .statement
  | _ => True

theorem Act.Shows.origin {P : Platform} {s : Server} {a : Act} {e : Control.Event}
    (h : a.Shows P s e) : e.Origin s a := by
  cases a with
  | message m =>
      have he : e = m.event (decide (m.LogsIn P s.user)) := h
      rcases m.event_cases (decide (m.LogsIn P s.user)) with
        ⟨ht, hm⟩ | ⟨ht, hm⟩ | ⟨ht, hm⟩ | ⟨ht, hm⟩ | ⟨ht, hm⟩ | hm
      · rw [he, hm]; trivial
      · rw [he, hm]; trivial
      · rw [he, hm]; exact ⟨m, rfl, ht, rfl⟩
      · rw [he, hm]; exact ⟨m, rfl, ht, rfl⟩
      · rw [he, hm]; exact ⟨m, rfl, ht, rfl⟩
      · rw [he, hm]; trivial
  | frame f =>
      obtain ⟨result, -, rfl⟩ := h
      exact ⟨f, rfl⟩
  | statement =>
      rw [show e = .statement from h]
      exact fun _ => rfl
  | spuriousWakeup =>
      obtain ⟨rfl, hwaiting⟩ := h
      intro hpc
      exact absurd hwaiting hpc

/-- Where the thread is at a statement, the step was that statement. -/
theorem Act.Shows.statement {P : Platform} {s : Server} {a : Act} {pc : EngagementPc}
    (h : a.Shows P s .statement) (hpc : s.control.engagement = pc)
    (hne : pc ≠ .waiting) : a = .statement := by
  refine h.origin ?_
  rw [show s.engagement = pc from hpc]
  exact hne

/-- A statement of `EngagementThread` is a statement of the machine. -/
theorem step_statement {P : Platform} {s t : Server} (h : Step P s .statement t) :
    t.control = s.control.statement := post_engagementStatement s () t h

/-- `pthread_cond_wait` is no statement that ends by itself. -/
theorem not_waiting_of_step {P : Platform} {s t : Server}
    (hst : Step P s .statement t) : s.engagement ≠ .waiting := by
  have hpost : Post engagementStatement s fun _ _ => s.engagement ≠ .waiting := by
    refine (post_bind _ _ s _).mpr ((post_fetch s _).mpr ?_)
    by_cases hpc : s.engagement = .waiting
    · rw [hpc]
      exact post_never s _
    · exact fun _ _ _ => hpc
  exact hpost () t hst

/-- A frame is one of the machine, with some result. -/
theorem step_frame {P : Platform} {s t : Server} {f : Frame}
    (h : Step P s (.frame f) t) :
    ∃ result, IsMatchResult result ∧ t.control = s.control.frame result :=
  post_processTargetEngagements f s () t h

/-- A message is handled as its event. -/
theorem step_message {P : Platform} {s t : Server} {m : Received}
    (h : Step P s (.message m) t) :
    t.control = s.control.next (m.event (decide (m.LogsIn P s.user))) :=
  post_dispatch P m s () t h

end DemoCannon
