import DemoCannon.Accesses

/-! # Who has still to tell the operator

    A thread that changes `SystemState` tells the operator with a `SendSystemState` of
    its own, later on.  A monitor counts the threads that have still to do so
    (`duesWatch`).  `NetworkInputThread` is such a thread only inside a handler, `main`
    only inside `ProcessTargetEngagements`, and `EngagementThread` only between two
    statements of its sequence, in every run of the process (`Process.Paying.step`). -/

namespace DemoCannon

open Interaction Interaction.Program SystemState

/-! ## The monitor -/

/-- The state that a frame of type `MT_STATE` carries. -/
def stateOf (f : Bytes) : Option SystemState :=
  if f.length = sizeofHeader + 4 ∧ f.take sizeofHeader = header 4 mtState then
    some (ntohl (f.drop sizeofHeader))
  else none

@[simp] theorem stateOf_wordMessage (state : SystemState) :
    stateOf (wordMessage mtState state) = some state := by
  have hpayload : (wordMessage mtState state).drop sizeofHeader = htonl state ++ [] :=
    (List.append_nil _).symm
  rw [stateOf, if_pos ⟨rfl, rfl⟩, hpayload, ntohl_htonl]

/-- What a thread owes the operator. -/
structure Dues where
  /-- It has changed `SystemState`, and not sent it since. -/
  owes : Bool := false
  /-- It has written nothing since it locked `TCP_Mutex`. -/
  fresh : Bool := false
  /-- It is `main` before the other threads are created. -/
  early : Bool := false
  /-- Where `EngagementThread` was at the last access. -/
  seen : EngagementPc := .wait

namespace Dues

def atom (w : Dues) (s t : Server) : Dues :=
  { w with owes := w.owes || decide (t.systemState ≠ s.systemState), seen := t.engagement }

def call (w : Dues) : Call → Dues
  | .lock .tcp => { w with fresh := true }
  | .unlock .tcp => { w with fresh := false }
  | .sslWrite data =>
      { w with owes := w.owes && !(w.fresh && (stateOf data).isSome), fresh := false }
  | _ => w

theorem call_owes {w : Dues} (hw : w.owes = false) (c : Call) : (w.call c).owes = false := by
  cases c with
  | lock m | unlock m => cases m <;> exact hw
  | sslWrite data => simp [call, hw]
  | sslRead | auditLine | condSignal | pthreadCreate | fopenIni | fopenLog | never => exact hw

@[simp] theorem call_early (w : Dues) (c : Call) : (w.call c).early = w.early := by
  cases c with
  | lock m | unlock m => cases m <;> rfl
  | sslWrite | sslRead | auditLine | condSignal | pthreadCreate | fopenIni | fopenLog | never =>
      rfl

@[simp] theorem call_seen (w : Dues) (c : Call) : (w.call c).seen = w.seen := by
  cases c with
  | lock m | unlock m => cases m <;> rfl
  | sslWrite | sslRead | auditLine | condSignal | pthreadCreate | fopenIni | fopenLog | never =>
      rfl

theorem atom_owes {w : Dues} {s t : Server} (hw : w.owes = false)
    (h : t.systemState = s.systemState) : (w.atom s t).owes = false := by
  simp [atom, hw, h]

end Dues

/-- `EngagementThread` is where it was, or has been signalled. -/
def Signalled (pc pc' : EngagementPc) : Prop :=
  pc' = pc ∨ pc = .waiting ∧ pc' = .laserTrue

theorem Signalled.eq {pc pc' : EngagementPc} (h : Signalled pc pc') (hne : pc ≠ .waiting) :
    pc' = pc := h.resolve_right fun h => hne h.1

theorem signalled_signal (s : Server) : Signalled s.engagement s.signal.engagement := by
  rw [Server.signal]
  by_cases h : s.engagement = .waiting
  · rw [if_pos h]
    exact Or.inr ⟨h, rfl⟩
  · rw [if_neg h]
    exact Or.inl rfl

/-- The monitor of what a thread owes: only `EngagementThread` itself goes on to another
    of its statements, and where it is does not change behind its back. -/
def duesWatch (i : Tid) : Watch Dues where
  atom := Dues.atom
  call w c _ := some (w.call c)
  relies w s := (w.early = true → s.systemState = safe)
    ∧ (i = .engagement → Signalled w.seen s.engagement)
  allows _ _ f _ := i = .engagement ∨ ∀ s, Signalled s.engagement (f s).engagement

/-! ### Rules -/

/-- An access that leaves `EngagementThread` where it is. -/
def LeavesPlace (s t : Server) : Prop := Signalled s.engagement t.engagement

/-- An access that leaves the state word alone as well. -/
def LeavesWord (s t : Server) : Prop :=
  t.systemState = s.systemState ∧ Signalled s.engagement t.engagement

theorem blocks_leavesWord : Blocks fun _ p => Accesses LeavesWord p :=
  blocks_accesses fun _ _ h => ⟨h.1, Or.inl h.2.2⟩

theorem settingBlocks_leavesWord : SettingBlocks fun _ p => Accesses LeavesWord p :=
  settingBlocks_accesses fun _ _ h => ⟨h.1, Or.inl h.2⟩

theorem roundBlocks_leavesPlace : RoundBlocks fun _ p => Accesses LeavesPlace p :=
  roundBlocks_accesses (fun _ _ h => Or.inl h) signalled_signal

section Rules

variable {i : Tid} {α β : Type} {w : Dues}

/-- A thread that owes nothing does not come to by leaving the word alone. -/
theorem throughout_of_leavesWord {p : Prog α} {R : Server → Server → Prop}
    (hR : ∀ s t, R s t → t.systemState = s.systemState)
    (hplace : i = .engagement ∨ ∀ s t, R s t → Signalled s.engagement t.engagement)
    (hp : Accesses R p) (hw : w.owes = false) :
    (duesWatch i).Throughout (fun w _ => w.owes = false) (fun _ w => w.owes = false) w p := by
  refine Monitor.Throughout.of_accesses ?_ ?_ ?_ hp hw
  · intro _ f _ _ hf
    rcases hplace with hi | hplace
    · exact Or.inl hi
    · exact Or.inr fun s => hplace s _ (hf s)
  · intro w s t hw _ hst
    exact Dues.atom_owes hw (hR s t hst)
  · intro w c _ hw
    exact ⟨_, rfl, Dues.call_owes hw c⟩

/-- A thread that owes nothing before `p` owes nothing after it. -/
abbrev Settled (i : Tid) (p : Prog α) : Prop :=
  ∀ w : Dues, w.owes = false → (duesWatch i).Follows w p fun _ w' => w'.owes = false

/-- Whatever a thread owes before `p`, it owes nothing after it. -/
abbrev Settles (i : Tid) (p : Prog α) : Prop :=
  ∀ w : Dues, (duesWatch i).Follows w p fun _ w' => w'.owes = false

theorem Settled.of_leavesWord {p : Prog α} (hp : Accesses LeavesWord p) : Settled i p :=
  fun _ hw => (throughout_of_leavesWord (fun _ _ h => h.1) (Or.inr fun _ _ h => h.2) hp hw).follows

theorem Settled.bind {p : Prog α} {q : α → Prog β} (hp : Settled i p)
    (hq : ∀ a, Settled i (q a)) : Settled i (p >>= q) :=
  fun w hw => (hp w hw).seq fun a w' => hq a w'

theorem Settled.ite {c : Prop} [Decidable c] {p q : Prog α} (hp : Settled i p)
    (hq : Settled i q) : Settled i (if c then p else q) :=
  fun w hw => (hp w hw).ite (hq w hw)

theorem Settled.read {k : Server → Prog α} (h : ∀ s, Settled i (k s)) :
    Settled i (fetch >>= k) := Settled.bind (.of_leavesWord blocks_leavesWord.fetch) h

theorem Settles.settled {p : Prog α} (hp : Settles i p) : Settled i p := fun w _ => hp w

/-- What comes before a send may change the word. -/
theorem Settles.after {p : Prog α} {q : α → Prog β} (hp : Accesses LeavesPlace p)
    (hq : ∀ a, Settles i (q a)) : Settles i (p >>= q) := by
  intro w
  have hfollows : (duesWatch i).Throughout (fun _ _ => True) (fun _ _ => True) w p := by
    refine Monitor.Throughout.of_accesses ?_ (fun _ _ _ => trivial) ?_ hp trivial
    · intro _ f _ _ hf
      exact Or.inr hf
    · intro w c _ _
      exact ⟨_, rfl, trivial⟩
  exact hfollows.follows.seq fun a w' _ => hq a w'

/-- What comes after a send may not. -/
theorem Settles.then {p : Prog α} {q : α → Prog β} (hp : Settles i p)
    (hq : ∀ a, Settled i (q a)) : Settles i (p >>= q) :=
  fun w => (hp w).seq fun a w' => hq a w'

theorem Settles.ite {c : Prop} [Decidable c] {p q : Prog α} (hp : Settles i p)
    (hq : Settles i q) : Settles i (if c then p else q) := fun w => (hp w).ite (hq w)

theorem Settles.read {k : Server → Prog α} (h : ∀ s, Settles i (k s)) :
    Settles i (fetch >>= k) := Settles.after roundBlocks_leavesPlace.fetch h

/-- **A send of the state settles what is owed.** -/
theorem settles_sendCurrentState : Settles i sendCurrentState := by
  have hwrite : ∀ (state : SystemState) (w : Dues), w.fresh = true →
      (duesWatch i).Follows w (do
        let retval ← Thread.writeDataTcp (wordMessage mtState state)
        unlock .tcp
        pure retval) fun _ w' => w'.owes = false := by
    intro state w hfresh (script : List SslRet) _
    refine ⟨_, rfl, ?_⟩
    have hpaid : (w.call (.sslWrite (wordMessage mtState state))).owes = false := by
      simp [Dues.call, hfresh]
    have hrest : Settled i ((DemoCannon.writeDataTcp
        (wordMessage mtState state).length script 0).leave >>= fun retval => do
          unlock .tcp
          pure retval) := by
      refine .of_leavesWord ?_
      cases DemoCannon.writeDataTcp (wordMessage mtState state).length script 0 with
      | returned retval => exact (accesses_call _).bind fun _ => .pure _
      | exited => exact .exit _
      | waiting => exact accesses_never.bind fun _ => (accesses_call _).bind fun _ => .pure _
    exact hrest _ hpaid
  have holed : ∀ w : Dues, w.fresh = true →
      (duesWatch i).Follows w oledUpdateStatus fun _ w' => w'.fresh = true := by
    intro w hw
    refine Monitor.Follows.read (Or.inr fun _ => Or.inl rfl) fun s _ => ?_
    refine Monitor.Follows.ite ?_ hw
    refine Monitor.Follows.ask (fun _ => rfl) fun _ _ => ?_
    refine Monitor.Follows.write (Or.inr fun _ => Or.inl rfl) fun _ _ => ?_
    intro _ _
    exact ⟨_, rfl, hw⟩
  refine Settles.read fun s => ?_
  have hsend : Settles i (sendSystemState s.systemState) := by
    intro w
    refine Monitor.Follows.ask (fun _ => rfl) fun _ _ => ?_
    exact (holed _ rfl).seq fun _ w' hw' => hwrite s.systemState w' hw'
  exact hsend.then fun _ => .of_leavesWord (.pure _)

end Rules

/-! ## The handlers and the sequencer settle what they owe -/

/-- The functions that the dispatch of `NetworkInputThread` comes to. -/
inductive Handler (P : Platform) : Prog Unit → Prop where
  | processLogin (m : Received) : Handler P (processLogin P m)
  | processCamStateChangeRequest (state : BitVec 32) :
      Handler P (processCamStateChangeRequest state)
  | processCommands (cmd : UInt8) : Handler P (processCommands cmd)
  | processCalibCommands (cmd : UInt8) : Handler P (processCalibCommands cmd)
  | processFiringOrder (firingOrder : Bytes) : Handler P (processFiringOrder firingOrder)
  | processPreArm (code : Bytes) : Handler P (processPreArm code)
  | processStateChangeRequest (state : SystemState) :
      Handler P (processStateChangeRequest state)

section Functions

variable {i : Tid}

theorem settled_processPreArm (code : Bytes) : Settled i (processPreArm code) := by
  have hΦ := blocks_leavesWord
  refine .read fun _ => .ite (.ite (.ite ?_ ?_) ?_) ?_
  · refine Settles.settled (.after ?_ fun _ => settles_sendCurrentState)
    exact roundBlocks_leavesPlace.updateState _ fun _ => ⟨rfl, rfl⟩
  · exact .of_leavesWord (hΦ.pure ())
  · exact .of_leavesWord (hΦ.say _)
  · exact .of_leavesWord (hΦ.pure ())

theorem settles_applyFlags : Settles i applyFlags := by
  have hΦ := roundBlocks_leavesPlace
  refine .read fun s => .after (hΦ.laser _) fun _ => .read fun s => .ite ?_ ?_
  · refine .after (hΦ.calibrate true) fun _ => .after ?_ fun _ => settles_sendCurrentState
    exact hΦ.updateSettings _ fun _ => ⟨rfl, rfl⟩
  · refine .after (hΦ.calibrate false) fun _ => .read fun s =>
      .ite (.after ?_ fun _ => .after hΦ.writeOffsets fun _ => settles_sendCurrentState)
        settles_sendCurrentState
    exact hΦ.updateSettings _ fun _ => ⟨rfl, rfl⟩

theorem settles_processStateChangeRequest (state : SystemState) :
    Settles i (processStateChangeRequest state) :=
  roundBlocks_leavesPlace.request (Settles i)
    (fun _ hp => .after hp fun _ => settles_applyFlags) settles_applyFlags state

theorem settled_processCommands (cmd : UInt8) : Settled i (processCommands cmd) := by
  have hΦ := blocks_leavesWord
  have hrun : ∀ on off, Settled i (runCmd on off) := fun on off =>
    .of_leavesWord (hΦ.runCmd on off)
  have hmove : ∀ on off num delta, Settled i (do
      runCmd on off
      step num delta) := fun on off num delta =>
    .of_leavesWord (hΦ.next (hΦ.runCmd on off) (hΦ.step num delta))
  have hfire : ∀ on off value, Settled i (do
      runCmd on off
      fire value
      sendCurrentState) := fun on off value =>
    (hrun on off).bind fun _ => (Settles.after (roundBlocks_leavesPlace.fire value) fun _ =>
      settles_sendCurrentState).settled
  have hnone : Settled i (pure () : Prog Unit) := .of_leavesWord (hΦ.pure ())
  refine .read fun _ => .ite hnone (.ite hnone ?_)
  exact .ite (hmove _ _ _ _) (.ite (hmove _ _ _ _) (.ite (hmove _ _ _ _)
    (.ite (hmove _ _ _ _) (.ite (hfire _ _ _) (.ite (hrun _ _) (.ite (hrun _ _)
      (.ite (hrun _ _) (.ite (hrun _ _) (.ite (hfire _ _ _) hnone)))))))))

/-- **Each handler sends the state that it changes.** -/
theorem Handler.settled {P : Platform} {p : Prog Unit} (h : Handler P p) : Settled i p := by
  have hΦ := settingBlocks_leavesWord
  cases h with
  | processLogin m => exact .of_leavesWord (hΦ.processLogin P m)
  | processCamStateChangeRequest state =>
      exact .of_leavesWord (hΦ.processCamStateChangeRequest state)
  | processCommands cmd => exact settled_processCommands cmd
  | processCalibCommands cmd => exact .of_leavesWord (hΦ.processCalibCommands cmd)
  | processFiringOrder firingOrder => exact .of_leavesWord (hΦ.processFiringOrder firingOrder)
  | processPreArm code => exact settled_processPreArm code
  | processStateChangeRequest state => exact (settles_processStateChangeRequest state).settled

theorem settled_enterState (state : TEngagementState) : Settled i (enterState state) := by
  have hΦ := blocks_leavesWord
  have hsend : ∀ (value : Bool) (text : String), Settled i (do
      armed value
      sendCurrentState
      say text) := by
    intro value text
    refine (Settles.after (roundBlocks_leavesPlace.armed value) fun _ => ?_).settled
    exact settles_sendCurrentState.then fun _ => .of_leavesWord (hΦ.say text)
  refine .read fun s => ?_
  cases state with
  | lookingForTarget | tracking => exact hsend _ _
  | trackingStable =>
      refine .of_leavesWord (hΦ.next (hΦ.say _) (hΦ.write (fun _ => ⟨rfl, rfl, rfl⟩) ?_))
      refine hΦ.bind (hΦ.call .condSignal trivial) fun (_ : Int) => hΦ.ite (hΦ.exit _) ?_
      refine .update fun s => ⟨?_, signalled_signal s⟩
      rw [Server.signal]
      split <;> rfl
  | engagementComplete => exact .of_leavesWord (hΦ.next (hΦ.say _) (hΦ.auditlog _))
  | notActive | activate | newTarget | engagementInProgress =>
      exact .of_leavesWord (hΦ.pure ())

theorem settled_track (f : Frame) (newState : Bool) : Settled i (track f newState) := by
  have hΦ := blocks_leavesWord
  refine .bind (.of_leavesWord (hΦ.tryToMatch f)) fun state => .read fun s => ?_
  have henter : Settled i (if newState || decide (s.autoEngage.state ≠ state) then
      enterState state else pure ()) :=
    .ite (settled_enterState state) (.of_leavesWord (hΦ.pure ()))
  refine .ite (.bind (.of_leavesWord ?_) fun _ => henter) henter
  exact hΦ.update _ fun _ => ⟨rfl, rfl, rfl⟩

theorem settled_nextTarget : Settled i nextTarget := by
  have hΦ := blocks_leavesWord
  refine .bind (.of_leavesWord (hΦ.update _ fun _ => ⟨rfl, rfl, rfl⟩)) fun _ =>
    .read fun s => .ite ?_ ?_
  · refine .bind (.of_leavesWord (hΦ.update _ fun _ => ⟨rfl, rfl, rfl⟩)) fun _ => ?_
    refine Settles.settled (.after ?_ fun _ => settles_sendCurrentState.then fun _ => ?_)
    · exact roundBlocks_leavesPlace.updateState _ fun _ => ⟨rfl, rfl⟩
    · exact .of_leavesWord (hΦ.say _)
  · exact .of_leavesWord (hΦ.update _ fun _ => ⟨rfl, rfl, rfl⟩)

/-- **So does `ProcessTargetEngagements`.** -/
theorem settled_processTargetEngagements (f : Frame) :
    Settled i (processTargetEngagements f) := by
  have hΦ := settingBlocks_leavesWord
  have hselect : Settled i (do selectTarget; track f true) :=
    .bind (.of_leavesWord hΦ.selectTarget) fun _ => settled_track f true
  refine .read fun s => ?_
  cases s.autoEngage.state with
  | notActive | engagementInProgress | trackingStable => exact .of_leavesWord (hΦ.pure ())
  | activate =>
      exact .bind (.of_leavesWord (hΦ.update _ fun _ => ⟨rfl, rfl, rfl⟩)) fun _ => hselect
  | newTarget => exact hselect
  | lookingForTarget | tracking => exact settled_track f false
  | engagementComplete => exact settled_nextTarget

end Functions

/-! ## The rounds of the threads -/

/-- `NetworkInputThread` is inside a handler. -/
def InHandler (P : Platform) (rest : Prog Bool) : Prop :=
  ∃ handler, Handler P handler ∧ handler.Within (fun _ => pure true) rest

/-- What is left of a round of `main` after `ProcessTargetEngagements`. -/
def afterEngagements (sendbuff : Option Bytes) : Prog Bool := do
  let sendImage : Prog Unit := do
    let s ← fetch
    if s.isConnected = true ∧ s.isCameraOn = true then
      lock .tcp
      let _ ← tcpSendImageAsJpeg sendbuff
      unlock .tcp
    else pure ()
  sendImage
  let s ← fetch
  pure s.isConnected

/-- `main` is inside `ProcessTargetEngagements`. -/
def InEngagements (rest : Prog Bool) : Prop :=
  ∃ f sendbuff,
    (processTargetEngagements f).Within (fun _ => afterEngagements sendbuff) rest

/-- The statements of `EngagementThread` from the first change of the state to the last
    send. -/
def EngagementPc.MayOwe : EngagementPc → Prop
  | .wait | .waiting | .printfEngaged | .setComplete | .unlock => False
  | _ => True

/-- Where a thread may be that owes the operator a state. -/
def Dutiful (P : Platform) : Tid → Dues → Prog Bool → Prop
  | .network, w, rest => w.owes = true → InHandler P rest
  | .main, w, rest => w.owes = true → InEngagements rest
  | .engagement, w, _ => w.owes = true → w.seen.MayOwe
  | .heartBeat, w, _ => w.owes = false

/-- A thread is nowhere else while it owes one. -/
abbrev DoesDuty (P : Platform) (i : Tid) (w : Dues) (rest : Prog Bool) : Prop :=
  (duesWatch i).Throughout (Dutiful P i) (fun again w' => Dutiful P i w' (.ret again)) w rest

section Rounds

variable {P : Platform} {i : Tid} {α : Type} {w : Dues}

theorem dutiful_of_owes {rest : Prog Bool} (hw : w.owes = false) : Dutiful P i w rest := by
  cases i with
  | network | main | engagement =>
      intro h
      cases hw.symm.trans h
  | heartBeat => exact hw

theorem doesDuty_pure (again : Bool) (hw : w.owes = false) :
    DoesDuty P i w (pure again) := dutiful_of_owes hw

theorem DoesDuty.now {rest : Prog Bool} (h : DoesDuty P i w rest) : Dutiful P i w rest :=
  Monitor.Throughout.now h fun _ _ => id

/-- What a thread does before it changes the word. -/
theorem doesDuty_bind {p : Prog α} {f : α → Prog Bool} (hp : Accesses LeavesWord p)
    (hw : w.owes = false) (hf : ∀ a (w' : Dues), w'.owes = false → DoesDuty P i w' (f a)) :
    DoesDuty P i w (p >>= f) := by
  have h := throughout_of_leavesWord (i := i) (fun _ _ h => h.1)
    (Or.inr fun _ _ h => h.2) hp hw
  refine .bind (h.mono ?_ fun a w' hw' => hf a w' hw')
  intro w _ hw _
  exact dutiful_of_owes hw

/-- What never changes it. -/
theorem doesDuty_of_leavesWord {p : Prog Bool} (hp : Accesses LeavesWord p)
    (hw : w.owes = false) : DoesDuty P i w p := by
  have h := throughout_of_leavesWord (i := i) (fun _ _ h => h.1)
    (Or.inr fun _ _ h => h.2) hp hw
  exact h.mono (fun _ _ => dutiful_of_owes) fun _ _ => dutiful_of_owes

/-! ### The network thread -/

theorem doesDuty_handler {p : Prog Unit} (hp : Handler P p) (hw : w.owes = false) :
    DoesDuty P .network w (p >>= fun _ => pure true) := by
  refine Monitor.Follows.within ?_ fun _ _ h _ => ⟨p, hp, h⟩
  exact (hp.settled w hw).mono fun _ _ => doesDuty_pure true

theorem doesDuty_dispatch (m : Received) (hw : w.owes = false) :
    DoesDuty P .network w (dispatch P m >>= fun _ => pure true) := by
  have hΦ := blocks_leavesWord
  have hlog : ∀ (msg : String) {p : Prog Unit} {w : Dues}, Handler P p → w.owes = false →
      DoesDuty P .network w ((do auditlog msg; p) >>= fun _ => pure true) := by
    intro msg p w hp hw
    rw [Program.bind_assoc]
    exact doesDuty_bind (hΦ.auditlog msg) hw fun _ _ => doesDuty_handler hp
  have hite : ∀ {c : Prop} [Decidable c] {p q : Prog Unit} {w : Dues},
      DoesDuty P .network w (p >>= fun _ => pure true) →
      DoesDuty P .network w (q >>= fun _ => pure true) →
      DoesDuty P .network w ((if c then p else q) >>= fun _ => pure true) := by
    intro c _ p q w hp hq
    by_cases h : c
    · rw [if_pos h]; exact hp
    · rw [if_neg h]; exact hq
  have hswitch : ∀ {w : Dues}, w.owes = false →
      DoesDuty P .network w (switchType m >>= fun _ => pure true) := by
    intro w hw
    refine hite (hlog _ (.processCamStateChangeRequest _) hw) ?_
    refine hite (hlog _ (.processCommands _) hw) ?_
    refine hite (hlog _ (.processCalibCommands _) hw) ?_
    refine hite (hlog _ (.processFiringOrder _) hw) ?_
    refine hite (hlog _ (.processPreArm _) hw) ?_
    refine hite (hlog _ (.processStateChangeRequest _) hw) ?_
    exact doesDuty_bind (hΦ.auditlog _) hw fun _ _ => doesDuty_pure true
  refine hite (hlog _ (.processLogin _) hw) ?_
  rw [Program.bind_assoc]
  refine doesDuty_bind hΦ.fetch hw fun s w hw => hite ?_ (hswitch hw)
  exact doesDuty_pure true hw

/-- **The network thread owes nothing outside the handlers.** -/
theorem doesDuty_networkRound (input : Input) (hw : w.owes = false) :
    DoesDuty P .network w (networkRound P input) := by
  have hΦ := blocks_leavesWord
  refine doesDuty_bind (hΦ.call .sslRead trivial) hw fun (answer : List SslRet × Bytes) w hw => ?_
  refine doesDuty_bind (hΦ.receive ?_ _ _) hw fun received w hw => ?_
  · exact (accesses_call _).bind fun _ => accesses_call _
  cases received with
  | dispatch buffer script stream => exact doesDuty_dispatch _ hw
  | oversized script stream => exact doesDuty_pure true hw
  | stopped headerRead why stream => exact doesDuty_of_leavesWord hΦ.leaveLoop hw

/-! ### `main` -/

/-- **`main` owes nothing outside `ProcessTargetEngagements`.** -/
theorem doesDuty_mainRound (input : Input) (hw : w.owes = false) :
    DoesDuty P .main w (mainRound input) := by
  have hΦ := blocks_leavesWord
  have hagain : Accesses LeavesWord (do let s ← fetch; pure s.isConnected) :=
    hΦ.read fun _ => hΦ.pure _
  have hframe : ∀ (f : Frame) {w : Dues}, w.owes = false → DoesDuty P .main w
      (mainFrame f input.sendbuff >>= fun _ => do let s ← fetch; pure s.isConnected) := by
    intro f w hw
    have hafter : Accesses LeavesWord (afterEngagements input.sendbuff) := by
      refine Accesses.bind (hΦ.read fun _ => hΦ.ite ?_ (hΦ.pure ())) fun _ => hagain
      exact accesses_imageSection _
    change DoesDuty P .main w ((processTargetEngagements f >>= fun _ => _) >>= _)
    rw [Program.bind_assoc]
    refine Monitor.Follows.within ?_ fun _ _ h _ => ⟨f, input.sendbuff, h⟩
    exact (settled_processTargetEngagements f w hw).mono fun _ w' hw' =>
      doesDuty_of_leavesWord hafter hw'
  rw [mainRound, mainBody, Program.bind_assoc]
  refine doesDuty_bind hΦ.fetch hw fun s w hw => ?_
  cases s.isLoggedIn with
  | false => exact doesDuty_of_leavesWord hagain hw
  | true =>
      cases input.frame with
      | none => exact doesDuty_of_leavesWord hagain hw
      | some f => exact hframe f hw

/-- An access that leaves `SAFE` as it is. -/
def LeavesSafe (s t : Server) : Prop :=
  (s.systemState = safe → t.systemState = safe) ∧ t.engagement = s.engagement

theorem accesses_mainStart : Accesses LeavesSafe mainStart := by
  have hΦ : Blocks fun _ p => Accesses LeavesSafe p :=
    blocks_accesses fun s t h => ⟨fun hs => h.1.trans hs, h.2.2⟩
  have hwrite : ∀ {f : Server → Server} {q : Prog Unit}, (∀ s, LeavesSafe s (f s)) →
      Accesses LeavesSafe q → Accesses LeavesSafe (do update f; q) := fun hf hq =>
    (Accesses.update hf).bind fun _ => hq
  have hmask : ∀ {mask : BitVec 32}, safe &&& mask = safe → ∀ s : Server,
      LeavesSafe s { s with systemState := s.systemState &&& mask } := by
    intro mask hmask s
    refine ⟨fun hs => ?_, rfl⟩
    change s.systemState &&& mask = safe
    rw [hs, hmask]
  have hlaser : Accesses LeavesSafe (laser false) := by
    refine (accesses_call _).bind fun _ => ?_
    rw [if_neg Bool.false_ne_true]
    exact hwrite (hmask (by decide)) (hwrite (fun _ => ⟨id, rfl⟩) (accesses_call _))
  have hfire : Accesses LeavesSafe (fire false) := by
    refine hΦ.read fun s => ?_
    rw [if_neg (by rintro ⟨⟨⟩, -⟩)]
    refine (accesses_call _).bind fun _ => ?_
    rw [if_neg Bool.false_ne_true]
    exact hwrite (hmask (by decide)) (hwrite (fun _ => ⟨id, rfl⟩) (accesses_call _))
  have hcalibrate : Accesses LeavesSafe (calibrate false) := by
    refine (accesses_call _).bind fun _ => ?_
    rw [if_neg Bool.false_ne_true]
    exact hwrite (hmask (by decide)) (accesses_call _)
  exact hΦ.next hlaser (hΦ.next hfire (hΦ.next hcalibrate
    (hΦ.next (hΦ.servoAngle _) (hΦ.next (hΦ.servoAngle _) (hΦ.pure _)))))

/-- Before the threads are created the state is `SAFE`, and switching everything off
    changes nothing. -/
theorem throughout_mainStart (hearly : w.early = true) (hw : w.owes = false) :
    (duesWatch .main).Throughout (fun w _ => w.owes = false) (fun _ w => w.owes = false) w
      mainStart := by
  have h : (duesWatch .main).Throughout (fun w _ => w.early = true ∧ w.owes = false)
      (fun _ w => w.early = true ∧ w.owes = false) w mainStart := by
    refine Monitor.Throughout.of_accesses ?_ ?_ ?_ accesses_mainStart ⟨hearly, hw⟩
    · intro _ f _ _ hf
      exact Or.inr fun s => Or.inl (hf s).2
    · rintro w s t ⟨hearly, hw⟩ hrelies ⟨hsafe, -⟩
      have hs : s.systemState = safe := hrelies.1 hearly
      exact ⟨hearly, Dues.atom_owes hw ((hsafe hs).trans hs.symm)⟩
    · rintro w c _ ⟨hearly, hw⟩
      exact ⟨_, rfl, (Dues.call_early w c).trans hearly, Dues.call_owes hw c⟩
  exact h.mono (fun _ _ h => h.2) fun _ _ h => h.2

/-! ### `EngagementThread` -/

/-- A statement that leaves the word alone, of a thread that owes nothing. -/
theorem doesDuty_statement {p : Prog Unit} {pc : EngagementPc}
    (hp : Accesses (fun s t => t.systemState = s.systemState) p) (hw : w.owes = false) :
    DoesDuty P .engagement w ((do p; goto pc) >>= fun _ => pure true) := by
  have hgoto : Accesses (fun s t : Server => t.systemState = s.systemState)
      (goto pc >>= fun _ => pure true) := .bind (.update fun _ => rfl) fun _ => .pure true
  rw [Program.bind_assoc]
  have h := throughout_of_leavesWord (i := .engagement) (fun _ _ h => h) (Or.inl rfl)
    (hp.bind fun _ => hgoto) hw
  exact h.mono (fun _ _ => dutiful_of_owes) fun _ _ => dutiful_of_owes

/-- Inside a statement `EngagementThread` stays where it is. -/
theorem throughout_seen {p : Prog Unit} {pc : EngagementPc} (hp : Accesses LeavesPlace p)
    (hpc : pc ≠ .waiting) (hw : w.seen = pc) :
    (duesWatch .engagement).Throughout (fun w _ => w.seen = pc) (fun _ w => w.seen = pc)
      w p := by
  refine Monitor.Throughout.of_accesses (fun _ _ => Or.inl rfl) ?_ ?_ hp hw
  · intro w s t hw hrelies hst
    have hs : s.engagement = pc :=
      hw ▸ Signalled.eq (hrelies.2 rfl) (by rw [hw]; exact hpc)
    exact (Signalled.eq hst (by rw [hs]; exact hpc)).trans hs
  · intro w c _ hw
    exact ⟨_, rfl, (Dues.call_seen w c).trans hw⟩

/-- A statement within the sequence. -/
theorem doesDuty_sequence {p : Prog Unit} (pc pc' : EngagementPc) (hmay : pc.MayOwe)
    (hmay' : pc'.MayOwe) (hp : Accesses LeavesPlace p) (hw : w.seen = pc) :
    DoesDuty P .engagement w ((do p; goto pc') >>= fun _ => pure true) := by
  have hpc : pc ≠ .waiting := by
    rintro rfl
    exact hmay
  rw [Program.bind_assoc]
  refine .bind ((throughout_seen hp hpc hw).mono ?_ ?_)
  · intro w _ hw _ _
    rw [hw]
    exact hmay
  · intro _ w hw
    refine ⟨fun _ => hw ▸ hmay, Or.inl rfl, fun s _ => ?_⟩
    exact fun _ => hmay'

/-- The last send of the sequence. -/
theorem doesDuty_sendEngaged (hw : w.seen = .sendEngaged) :
    DoesDuty P .engagement w
      ((do sendCurrentState; goto .printfEngaged) >>= fun _ => pure true) := by
  have hsend := throughout_seen roundBlocks_leavesPlace.sendCurrentState (by decide) hw
  rw [Program.bind_assoc]
  refine .bind ((hsend.and_follows (settles_sendCurrentState w)).mono ?_ ?_)
  · intro w _ hw _ _
    rw [hw]
    trivial
  · rintro _ w ⟨-, hpaid⟩
    exact doesDuty_statement (p := pure ()) (.pure ()) hpaid

/-- **`EngagementThread` owes nothing before and after its sequence.** -/
theorem doesDuty_engagementRound (hw : w.owes = true → w.seen.MayOwe) :
    DoesDuty P .engagement w engagementRound := by
  have hΦ := roundBlocks_leavesPlace
  rw [engagementRound, engagementStatement, Program.bind_assoc]
  refine .read hw (Or.inl rfl) fun s hrelies => ?_
  have hpaid : ¬ s.engagement.MayOwe → (w.atom s s).owes = false := by
    intro hnot
    refine Bool.eq_false_iff.mpr fun howes => hnot ?_
    have hmay : w.seen.MayOwe := hw (by simpa [Dues.atom] using howes)
    rcases hrelies.2 rfl with hs | ⟨hs, -⟩
    · rw [hs]
      exact hmay
    · rw [hs] at hmay
      exact hmay.elim
  have hseen : (w.atom s s).seen = s.engagement := rfl
  change DoesDuty P .engagement (w.atom s s) _
  generalize w.atom s s = w at hpaid hseen
  cases hpc : s.engagement with
  | wait =>
      rw [hpc] at hpaid
      exact doesDuty_statement (accesses_call _) (hpaid id)
  | waiting =>
      rw [hpc] at hpaid
      exact doesDuty_of_leavesWord (accesses_never.bind fun _ => .pure true) (hpaid id)
  | laserTrue =>
      exact doesDuty_sequence .laserTrue .sendLaser trivial trivial (hΦ.laser true)
        (hseen.trans hpc)
  | sendLaser =>
      exact doesDuty_sequence .sendLaser .fireTrue trivial trivial hΦ.sendCurrentState
        (hseen.trans hpc)
  | fireTrue =>
      exact doesDuty_sequence .fireTrue .sendFire trivial trivial (hΦ.fire true)
        (hseen.trans hpc)
  | sendFire =>
      exact doesDuty_sequence .sendFire .fireFalse trivial trivial hΦ.sendCurrentState
        (hseen.trans hpc)
  | fireFalse =>
      exact doesDuty_sequence .fireFalse .laserFalse trivial trivial (hΦ.fire false)
        (hseen.trans hpc)
  | laserFalse =>
      exact doesDuty_sequence .laserFalse .armedFalse trivial trivial (hΦ.laser false)
        (hseen.trans hpc)
  | armedFalse =>
      exact doesDuty_sequence .armedFalse .sendEngaged trivial trivial (hΦ.armed false)
        (hseen.trans hpc)
  | sendEngaged => exact doesDuty_sendEngaged (hseen.trans hpc)
  | printfEngaged =>
      rw [hpc] at hpaid
      exact doesDuty_statement (accesses_say _) (hpaid id)
  | setComplete =>
      rw [hpc] at hpaid
      exact doesDuty_statement (.update fun _ => rfl) (hpaid id)
  | unlock =>
      rw [hpc] at hpaid
      exact doesDuty_statement (accesses_call _) (hpaid id)

/-! ### `HeartBeatThread` -/

theorem doesDuty_heartBeatRound (hw : w.owes = false) :
    DoesDuty P .heartBeat w heartBeatRound :=
  doesDuty_of_leavesWord (accesses_heartBeatRound fun _ _ h => ⟨h.1, Or.inl h.2.2⟩) hw

end Rounds

/-! ## The threads of the process -/

theorem Signalled.trans {pc pc' pc'' : EngagementPc} (h : Signalled pc pc')
    (h' : Signalled pc' pc'') : Signalled pc pc'' := by
  rcases h with rfl | ⟨rfl, rfl⟩
  · exact h'
  · exact Or.inr ⟨rfl, h'.eq (by decide)⟩

namespace Process

/-- Every thread that owes the operator a state is where it may be.  Until `main` has
    started nothing but `SAFE` is there to be told. -/
structure Paying (P : Platform) (p : Process) (d : Tid → Dues) : Prop where
  duty (i : Tid) (rest : Prog Bool) : p.pool.threads i = .running rest → DoesDuty P i (d i) rest
  idle (i : Tid) : (∀ rest, p.pool.threads i ≠ .running rest) → (d i).owes = false
  place : Signalled (d .engagement).seen p.server.engagement
  early (i : Tid) : (d i).early = true →
    i = .main ∧ p.phase = .starting ∧ p.server.systemState = safe
  starts (rest : Prog Bool) : (d .main).early = true → p.pool.threads .main = .running rest →
    (duesWatch .main).Throughout (fun w _ => w.owes = false) (fun _ w => w.owes = false)
      (d .main) rest

/-- Where a step of the process takes the monitors. -/
def dues (p : Process) (d : Tid → Dues) : Tick → Tid → Dues
  | .step l => p.pool.advance (duesWatch .main) d l
  | .goOn .main => Function.update d .main { d .main with early := false }
  | _ => d

section Steps

variable {P : Platform} {p q : Process} {d : Tid → Dues} {a : Tick}

theorem paying_accepted (P : Platform) (c : Config) :
    (accepted c).Paying P fun i => { early := decide (i = .main) } where
  duty i rest hi := by
    cases i with
    | main =>
        obtain rfl := Thread.running.inj hi
        exact (throughout_mainStart rfl rfl).mono (fun _ _ => dutiful_of_owes)
          fun _ _ => dutiful_of_owes
    | network | engagement | heartBeat => cases hi
  idle _ _ := rfl
  place := Or.inl rfl
  early i hi := ⟨of_decide_eq_true hi, rfl, rfl⟩
  starts rest _ hi := by
    obtain rfl := Thread.running.inj hi
    exact throughout_mainStart rfl rfl

/-- Between its rounds only `EngagementThread` may owe a state. -/
theorem Paying.owes_of_over (hp : p.Paying P d) {i : Tid} {again : Bool}
    (hi : p.pool.threads i = .running (.ret again)) (hne : i ≠ .engagement) :
    (d i).owes = false := by
  have h := (hp.duty i _ hi).now
  refine Bool.eq_false_iff.mpr fun howes => ?_
  cases i with
  | network =>
      obtain ⟨_, _, hwithin⟩ := h howes
      exact not_within_ret hwithin
  | main =>
      obtain ⟨_, _, hwithin⟩ := h howes
      exact not_within_ret hwithin
  | engagement => exact hne rfl
  | heartBeat => cases howes.symm.trans h

theorem dues_atom {i : Tid} {f : Server → Server} {k : Server → Prog Bool}
    (hi : p.pool.threads i = .running (.atom f k)) :
    p.dues d (.step (.atom i)) = Function.update d i ((d i).atom p.server (f p.server)) :=
  Pool.advance_atom (M := duesWatch .main) hi

theorem dues_call {i : Tid} {c : Call} {r : c.Answer} :
    p.dues d (.step (.call i c r)) = Function.update d i ((d i).call c) := rfl

theorem dues_of_ne {l : Pool.Label Tid Call Call.Answer} {i : Tid} (hi : i ≠ l.thread) :
    p.dues d (.step l) i = d i := Pool.advance_of_ne hi

theorem early_dues {l : Pool.Label Tid Call Call.Answer} {pool : Threads}
    (hst : Pool.Step Locks.grant p.pool l pool) (i : Tid) :
    (p.dues d (.step l) i).early = (d i).early := by
  by_cases hil : i = l.thread
  · cases hst with
    | @atom j f k hj =>
        obtain rfl : i = j := hil
        rw [dues_atom hj, Function.update_self]
        rfl
    | @call j c k locks r hj hlocks =>
        obtain rfl : i = j := hil
        rw [dues_call, Function.update_self, Dues.call_early]
  · rw [dues_of_ne hil]

/-- A step of a thread that may be relied on takes it on along its way. -/
theorem Paying.along (hp : p.Paying P d) {l : Pool.Label Tid Call Call.Answer}
    {pool : Threads} (hst : Pool.Step Locks.grant p.pool l pool) (i : Tid)
    {I : Dues → Prog Bool → Prop} {Q : Bool → Dues → Prop}
    (hi : ∀ rest, p.pool.threads i = .running rest →
      (duesWatch i).Throughout I Q (d i) rest) (rest : Prog Bool)
    (hrest : pool.threads i = .running rest) :
    (duesWatch i).Throughout I Q (p.dues d (.step l) i) rest := by
  by_cases hil : i = l.thread
  · subst hil
    refine hst.throughout (M := duesWatch l.thread) ?_ ⟨?_, ?_⟩ hi rest hrest
    · cases l <;> trivial
    · exact fun h => (hp.early _ h).2.2
    · intro h
      rw [h]
      exact hp.place
  · rw [dues_of_ne hil]
    exact hi rest ((hst.others hil).symm.trans hrest)

/-- Until `main` has started nobody changes the word. -/
theorem Paying.unchanged (hp : p.Paying P d) {l : Pool.Label Tid Call Call.Answer}
    {pool : Threads} (hst : Pool.Step Locks.grant p.pool l pool)
    (hnot : p.pool.threads .network = .notCreated ∧ p.pool.threads .engagement = .notCreated)
    (hearly : (d .main).early = true) :
    pool.shared.systemState = p.server.systemState := by
  cases hst with
  | call r hi hlocks => rfl
  | @atom i f k hi =>
      change (f p.server).systemState = p.server.systemState
      -- the step would leave the thread owing a state
      have hpaid : ((d i).atom p.server (f p.server)).owes = false := by
        cases i with
        | network => cases hnot.1.symm.trans hi
        | engagement => cases hnot.2.symm.trans hi
        | main =>
            obtain ⟨-, -, hk⟩ := hp.starts _ hearly hi
            exact (hk p.server ⟨fun h => (hp.early _ h).2.2, by rintro ⟨⟩⟩).now fun _ _ => id
        | heartBeat =>
            obtain ⟨-, -, hk⟩ := hp.duty _ _ hi
            have h := hk p.server ⟨fun h => (hp.early _ h).2.2, by rintro ⟨⟩⟩
            exact DoesDuty.now h
      by_contra hne
      simp [Dues.atom, hne] at hpaid

/-- A thread takes a step of its program. -/
theorem Paying.stepped (hp : p.Paying P d) {l : Pool.Label Tid Call Call.Answer}
    {pool : Threads} (hst : Pool.Step Locks.grant p.pool l pool)
    (hstarting : p.phase = .starting →
      p.pool.threads .network = .notCreated ∧ p.pool.threads .engagement = .notCreated) :
    Paying P { p with pool := pool } (p.dues d (.step l)) := by
  have hduty : ∀ i rest, pool.threads i = .running rest →
      DoesDuty P i (p.dues d (.step l) i) rest := fun i => hp.along hst i (hp.duty i)
  have hstarts : ∀ rest, (d .main).early = true → pool.threads .main = .running rest →
      (duesWatch .main).Throughout (fun w _ => w.owes = false) (fun _ w => w.owes = false)
        (p.dues d (.step l) .main) rest := fun rest h =>
    hp.along hst .main (fun rest => hp.starts rest h) rest
  refine ⟨hduty, ?_, ?_, ?_, ?_⟩
  · intro i hi
    have hne : i ≠ l.thread := by
      rintro rfl
      obtain ⟨_, rest, -, hrest, -⟩ := hst.program
      exact hi rest hrest
    rw [dues_of_ne hne]
    refine hp.idle i fun rest hrest => hi rest ?_
    exact (hst.others hne).trans hrest
  · cases hst with
    | @call i c k locks r hi hlocks =>
        rw [dues_call]
        change Signalled (Function.update d i _ .engagement).seen p.server.engagement
        by_cases hie : .engagement = i
        · subst hie
          rw [Function.update_self, Dues.call_seen]
          exact hp.place
        · rw [Function.update_of_ne hie]
          exact hp.place
    | @atom i f k hi =>
        rw [dues_atom hi]
        change Signalled (Function.update d i _ .engagement).seen (f p.server).engagement
        by_cases hie : .engagement = i
        · subst hie
          rw [Function.update_self]
          exact Or.inl rfl
        · rw [Function.update_of_ne hie]
          obtain ⟨-, hallows, -⟩ := hp.duty i _ hi
          rcases hallows with rfl | hsignalled
          · exact absurd rfl hie
          · exact hp.place.trans (hsignalled p.server)
  · intro i hearly
    rw [early_dues hst] at hearly
    obtain ⟨rfl, hphase, hsafe⟩ := hp.early i hearly
    exact ⟨rfl, hphase, (hp.unchanged hst (hstarting hphase) hearly).trans hsafe⟩
  · intro rest h
    rw [early_dues hst] at h
    exact hstarts rest h

/-- Threads come to something new.  What `main` starts from is forgotten once the phase
    changes. -/
theorem Paying.enter (hp : p.Paying P d) {d' : Tid → Dues}
    (hthreads : ∀ i rest, q.pool.threads i = .running rest →
      p.pool.threads i = .running rest ∧ d' i = d i ∨ DoesDuty P i (d' i) rest)
    (hidle : ∀ i, (∀ rest, q.pool.threads i ≠ .running rest) →
      (∀ rest, p.pool.threads i ≠ .running rest) ∧ d' i = d i ∨ (d' i).owes = false)
    (hseen : (d' .engagement).seen = (d .engagement).seen)
    (hplace : Signalled p.server.engagement q.server.engagement)
    (hearly : ∀ i, (d' i).early = true → (d i).early = true ∧ q.phase = p.phase
      ∧ q.server.systemState = p.server.systemState
      ∧ d' .main = d .main ∧ q.pool.threads .main = p.pool.threads .main) :
    q.Paying P d' where
  duty i rest hi := by
    rcases hthreads i rest hi with ⟨hbefore, hd⟩ | h
    · rw [hd]
      exact hp.duty i rest hbefore
    · exact h
  idle i hi := by
    rcases hidle i hi with ⟨hbefore, hd⟩ | h
    · rw [hd]
      exact hp.idle i hbefore
    · exact h
  place := by
    rw [hseen]
    exact hp.place.trans hplace
  early i hi := by
    obtain ⟨hbefore, hphase, hword, -⟩ := hearly i hi
    rw [hphase, hword]
    exact hp.early i hbefore
  starts rest hi hrest := by
    obtain ⟨hbefore, -, -, hd, hmain⟩ := hearly .main hi
    rw [hd]
    exact hp.starts rest hbefore (hmain.symm.trans hrest)

/-- A thread other than `main` comes to its next round, or stops. -/
theorem Paying.next (hp : p.Paying P d) {i : Tid} {t : Thread Server Call Call.Answer Halt Bool}
    (hi : i ≠ .main) (hrunning : ∀ rest, t = .running rest → DoesDuty P i (d i) rest)
    (hstopped : (∀ rest, t ≠ .running rest) → (d i).owes = false) :
    Paying P { p with pool := p.pool.set i t } d := by
  refine hp.enter ?_ ?_ rfl (Or.inl rfl) ?_
  · intro j rest hj
    by_cases hji : j = i
    · subst hji
      exact Or.inr (hrunning rest ((Pool.set_threads_self ..).symm.trans hj))
    · exact Or.inl ⟨(Pool.set_threads_of_ne hji).symm.trans hj, rfl⟩
  · intro j hj
    by_cases hji : j = i
    · subst hji
      exact Or.inr (hstopped fun rest h => hj rest ((Pool.set_threads_self ..).trans h))
    · exact Or.inl ⟨fun rest h => hj rest ((Pool.set_threads_of_ne hji).trans h), rfl⟩
  · intro j hj
    exact ⟨hj, rfl, rfl, rfl, Pool.set_threads_of_ne hi.symm⟩

theorem early_started (hp : p.Paying P d) (i : Tid) :
    (Function.update d .main { d .main with early := false } i).early = false := by
  by_cases hi : i = .main
  · subst hi
    rw [Function.update_self]
  · rw [Function.update_of_ne hi]
    exact Bool.eq_false_iff.mpr fun h => hi (hp.early i h).1

/-- `main` comes to another phase, and to what it does there. -/
theorem Paying.main (hp : p.Paying P d) {prog : Prog Bool} (phase : Phase)
    (hprog : ∀ {w : Dues}, w.owes = (d .main).owes → DoesDuty P .main w prog) :
    Paying P { p.run .main prog with phase := phase }
      (Function.update d .main { d .main with early := false }) := by
  refine hp.enter ?_ ?_ ?_ (Or.inl rfl) ?_
  · intro i rest hi
    by_cases hne : i = .main
    · subst hne
      obtain rfl := Thread.running.inj ((Pool.set_threads_self ..).symm.trans hi)
      rw [Function.update_self]
      exact Or.inr (hprog rfl)
    · exact Or.inl ⟨(Pool.set_threads_of_ne hne).symm.trans hi, Function.update_of_ne hne _ _⟩
  · intro i hi
    by_cases hne : i = .main
    · subst hne
      exact absurd (Pool.set_threads_self ..) (hi prog)
    · refine Or.inl ⟨fun rest h => hi rest ?_, Function.update_of_ne hne _ _⟩
      exact (Pool.set_threads_of_ne hne).trans h
  · rw [Function.update_of_ne (by decide)]
  · intro i hi
    exact absurd hi (Bool.eq_false_iff.mp (early_started hp i))

/-- `main` goes on to its next round or phase. -/
theorem Paying.goOn_main (hp : p.Paying P d) {input : Input} {again : Bool}
    (hnetwork : p.phase = .creatingNetwork → p.pool.threads .network = .notCreated)
    (hengagement : p.phase = .creatingEngagement → p.pool.threads .engagement = .notCreated)
    (hi : p.pool.threads .main = .running (.ret again)) (hclosing : ¬ p.phase.Closing)
    (hq : p.goOn P input .main again = some q) :
    q.Paying P (Function.update d .main { d .main with early := false }) := by
  have hpaid : (d .main).owes = false := hp.owes_of_over hi (by decide)
  have hcreate : ∀ {w : Dues}, w.owes = (d .main).owes → DoesDuty P .main w createThread :=
    fun hw => doesDuty_of_leavesWord blocks_leavesWord.createThread (hw.trans hpaid)
  have hround : ∀ {w : Dues}, w.owes = (d .main).owes → DoesDuty P .main w (mainRound input) :=
    fun hw => doesDuty_mainRound input (hw.trans hpaid)
  have hcreated : ∀ {i : Tid} {prog : Prog Bool}, i ≠ .main →
      p.pool.threads i = .notCreated →
      (∀ {w : Dues}, w.owes = false → DoesDuty P i w prog) → (p.run i prog).Paying P d := by
    intro i prog hne hnot hprog
    have hw : (d i).owes = false := hp.idle i fun rest h => by cases hnot.symm.trans h
    refine hp.next hne ?_ fun h => absurd rfl (h prog)
    intro rest hrest
    obtain rfl := Thread.running.inj hrest
    exact hprog hw
  rw [Process.goOn] at hq
  cases hphase : p.phase with
  | starting =>
      rw [hphase] at hq
      cases hq
      exact hp.main .creatingNetwork hcreate
  | creatingNetwork =>
      rw [hphase] at hq
      cases hq
      have hnew := hcreated (by decide) (hnetwork hphase)
        (doesDuty_of_leavesWord blocks_leavesWord.createAudit)
      exact hnew.main .creatingEngagement hcreate
  | creatingEngagement =>
      rw [hphase] at hq
      cases hq
      have hnew := hcreated (by decide) (hengagement hphase) fun hw =>
        doesDuty_engagementRound fun howes => by cases hw.symm.trans howes
      exact hnew.main .looping hround
  | looping =>
      simp only [hphase] at hq
      cases again with
      | true =>
          cases hq
          have h := hp.main p.phase hround
          exact h
      | false =>
          cases hq
          refine hp.enter ?_ ?_ ?_ (Or.inl rfl) ?_
          · intro i rest hrest
            by_cases hne : i = .main
            · subst hne
              obtain rfl := Thread.running.inj (hi.symm.trans hrest)
              rw [Function.update_self]
              exact Or.inr (doesDuty_pure false hpaid)
            · exact Or.inl ⟨hrest, Function.update_of_ne hne _ _⟩
          · intro i hrest
            by_cases hne : i = .main
            · subst hne
              exact absurd hi (hrest _)
            · exact Or.inl ⟨hrest, Function.update_of_ne hne _ _⟩
          · rw [Function.update_of_ne (by decide)]
          · intro i h
            exact absurd h (Bool.eq_false_iff.mp (early_started hp i))
  | joining cause j | switchingOff cause =>
      rw [hphase] at hclosing
      exact absurd trivial hclosing

/-- **Every thread that owes the operator a state is where it may be.** -/
theorem Paying.step {κ : Type} {M : Watch κ} {first : κ} {idle : Tid → Bool → κ → Prop}
    {w : Tid → κ} (hp : p.Paying P d) (hw : p.Watched M first idle w)
    (hst : Step P p a q) (ha : a ≠ .controlC) (hclosing : ¬ p.phase.Closing) :
    q.Paying P (p.dues d a) := by
  cases hst with
  | step hrun hst =>
      refine hp.stepped hst fun hstarting => ⟨hw.network (Or.inl hstarting), ?_⟩
      exact hw.engagement (Or.inl hstarting)
  | halt hrun hi => exact ⟨hp.duty, hp.idle, hp.place, hp.early, hp.starts⟩
  | heartBeat hrun hcreated hi =>
      have hpaid : (d .heartBeat).owes = false := hp.idle _ fun rest h => by
        cases hi.symm.trans h
      refine hp.next (by decide) ?_ fun h => absurd rfl (h _)
      intro rest hrest
      obtain rfl := Thread.running.inj hrest
      exact doesDuty_heartBeatRound hpaid
  | spuriousWakeup hrun hi hwaiting =>
      refine hp.enter (fun i rest h => Or.inl ⟨h, rfl⟩) (fun i h => Or.inl ⟨h, rfl⟩) rfl ?_ ?_
      · exact Or.inr ⟨hwaiting, rfl⟩
      · intro i h
        exact ⟨h, rfl, rfl, rfl, rfl⟩
  | controlC hrun hjoining hoff => exact absurd rfl ha
  | cancelled hrun hphase | joined hrun hphase hi =>
      rw [hphase] at hclosing
      exact absurd trivial hclosing
  | @goOn i again _ input hrun hi hq =>
      cases i with
      | main =>
          exact hp.goOn_main (fun h => hw.network (Or.inr h))
            (fun h => hw.engagement (Or.inr (Or.inr h))) hi hclosing hq
      | network =>
          have hpaid : (d .network).owes = false := hp.owes_of_over hi (by decide)
          cases again with
          | true =>
              cases hq
              refine hp.next (by decide) ?_ fun h => absurd rfl (h _)
              intro rest hrest
              obtain rfl := Thread.running.inj hrest
              exact doesDuty_networkRound input hpaid
          | false =>
              cases hq
              refine hp.next (by decide) ?_ fun _ => hpaid
              rintro rest ⟨⟩
      | engagement =>
          rw [Process.goOn] at hq
          split at hq
          · cases hq
          · cases hq
            refine hp.next (by decide) ?_ fun h => absurd rfl (h _)
            intro rest hrest
            obtain rfl := Thread.running.inj hrest
            exact doesDuty_engagementRound (hp.duty _ _ hi).now
      | heartBeat =>
          cases hq
          have hpaid : (d .heartBeat).owes = false := hp.owes_of_over hi (by decide)
          refine hp.next (by decide) ?_ fun h => absurd rfl (h _)
          intro rest hrest
          obtain rfl := Thread.running.inj hrest
          exact doesDuty_heartBeatRound hpaid

end Steps

end Process

end DemoCannon
