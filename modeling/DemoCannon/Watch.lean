import DemoCannon.Blocks
import DemoCannon.Lib.Monitor
import DemoCannon.Process

/-! # A monitor on every thread of the process

    Facts about all interleavings of the threads are proved with a monitor:
    each thread follows it in its rounds (`Rounds`), so in every run each
    follows it from wherever it is in its round (`Process.Watched`,
    `Watched.step`).  Where the monitor is back at its start after each block,
    the rounds follow it because the blocks do (`RoundBlocks.rounds`). -/

namespace DemoCannon

open Interaction Interaction.Program

/-! ## The rounds, taken apart -/

namespace Blocks

variable {Φ : (α : Type) → Prog α → Prop}

/-- What `NetworkInputThread` reads, where it may lock `TCP_Mutex` for it. -/
theorem readDataTcp (hΦ : Blocks Φ) (hread : Φ Unit (do lock .tcp; unlock .tcp))
    (length : Nat) (script : List SslRet) (data stream : Bytes) :
    Φ ReadEnd (Thread.readDataTcp length script data stream) := by
  induction script generalizing data stream with
  | nil => exact hΦ.ite hΦ.never (hΦ.pure _)
  | cons r script ih =>
      have hsection : ∀ {p : Prog ReadEnd}, Φ ReadEnd p →
          Φ ReadEnd (do lock .tcp; unlock .tcp; p) := by
        intro p hp
        have hgrouped : Φ ReadEnd ((do lock .tcp; unlock .tcp) >>= fun _ => p) :=
          hΦ.next hread hp
        exact hgrouped
      rw [Thread.readDataTcp.eq_def]
      refine hΦ.ite (hsection ?_) (hΦ.pure _)
      cases r with
      | bytes n => exact ih _ _
      | wantRead | wantWrite => exact ih _ _
      | syscall => exact hΦ.exit _
      | error => exact hΦ.pure _

theorem receive (hΦ : Blocks Φ) (hread : Φ Unit (do lock .tcp; unlock .tcp))
    (script : List SslRet) (stream : Bytes) : Φ Receive (Thread.receive script stream) := by
  refine hΦ.bind (hΦ.readDataTcp hread _ _ _ _) fun header => ?_
  cases header with
  | failed stream | exited stream | waiting stream => exact hΦ.pure _
  | returned hdr script stream =>
      refine hΦ.ite (hΦ.pure _) (hΦ.bind (hΦ.readDataTcp hread _ _ _ _) fun payload => ?_)
      cases payload with
      | returned payload script stream => exact hΦ.pure _
      | failed stream | exited stream | waiting stream => exact hΦ.pure _

/-- `NetworkInputThread` leaves its loop. -/
theorem leaveLoop (hΦ : Blocks Φ) : Φ Bool (do
    Program.update fun s => { s with isConnected := false }
    Program.update fun s => { s with isCameraOn := false }
    Program.update fun s => { s with isLoggedIn := false }
    detroyAuditObj
    Pure.pure false) := by
  have hdetroy : Φ Unit detroyAuditObj :=
    hΦ.read fun _ => hΦ.ite (hΦ.exit _) (hΦ.update _ fun _ => ⟨rfl, rfl, rfl⟩)
  refine hΦ.write (fun _ => ⟨rfl, rfl, rfl⟩) (hΦ.write (fun _ => ⟨rfl, rfl, rfl⟩) ?_)
  exact hΦ.write (fun _ => ⟨rfl, rfl, rfl⟩) (hΦ.next hdetroy (hΦ.pure _))

theorem createAudit (hΦ : Blocks Φ) : Φ Bool (do createAuditObj; Pure.pure true) := by
  have hopen : Φ Unit createAuditObj :=
    hΦ.bind (hΦ.call .fopenLog trivial) fun (_ : Bool) =>
      hΦ.update _ fun _ => ⟨rfl, rfl, rfl⟩
  exact hΦ.next hopen (hΦ.pure _)

theorem createThread (hΦ : Blocks Φ) : Φ Bool createThread :=
  hΦ.bind (hΦ.call .pthreadCreate trivial) fun (_ : Int) =>
    hΦ.ite (hΦ.exit _) (hΦ.pure _)

end Blocks

/-- A property of programs that holds of all blocks, and of what the rounds of
    the threads do with `TCP_Mutex` besides. -/
structure RoundBlocks (Φ : (α : Type) → Prog α → Prop) : Prop
    extends StateBlocks Φ, SettingBlocks Φ where
  /-- Around an `SSL_read`. -/
  readSection : Φ Unit (do lock .tcp; unlock .tcp)
  imageSection (sendbuff : Option Bytes) : Φ Unit (do
    lock .tcp
    let _ ← tcpSendImageAsJpeg sendbuff
    unlock .tcp)
  heartBeatRound : Φ Bool heartBeatRound

namespace RoundBlocks

variable {Φ : (α : Type) → Prog α → Prop}

theorem applyFlags (hΦ : RoundBlocks Φ) : Φ Unit applyFlags :=
  hΦ.toStateBlocks.applyFlags (fun _ => hΦ.updateSettings _ fun _ => ⟨rfl, rfl⟩)
    hΦ.toSettingBlocks.writeOffsets

theorem switchType (hΦ : RoundBlocks Φ) (m : Received) : Φ Unit (switchType m) := by
  have hlog : ∀ (msg : String) {p : Prog Unit}, Φ Unit p →
      Φ Unit (do DemoCannon.auditlog msg; p) := by
    intro msg p hp
    exact hΦ.next (hΦ.auditlog msg) hp
  refine hΦ.ite (hlog _ (hΦ.processCamStateChangeRequest _)) ?_
  refine hΦ.ite (hlog _ (hΦ.processCommands _)) ?_
  refine hΦ.ite (hlog _ (hΦ.processCalibCommands _)) ?_
  refine hΦ.ite (hlog _ (hΦ.processFiringOrder _)) ?_
  refine hΦ.ite (hlog _ (hΦ.processPreArm _)) ?_
  refine hΦ.ite (hlog _ (hΦ.processStateChangeRequest hΦ.applyFlags _)) ?_
  exact hΦ.auditlog _

theorem dispatch (hΦ : RoundBlocks Φ) (P : Platform) (m : Received) :
    Φ Unit (dispatch P m) := by
  refine hΦ.ite (hΦ.next (hΦ.auditlog _) (hΦ.processLogin P _)) ?_
  refine hΦ.read fun s => ?_
  exact hΦ.ite (hΦ.pure ()) (hΦ.switchType m)

theorem processTargetEngagements (hΦ : RoundBlocks Φ) (f : Frame) :
    Φ Unit (processTargetEngagements f) := by
  have hselect : Φ Unit (do DemoCannon.selectTarget; DemoCannon.track f true) :=
    hΦ.next hΦ.selectTarget (hΦ.track f true)
  refine hΦ.read fun s => ?_
  cases s.autoEngage.state with
  | notActive | engagementInProgress | trackingStable => exact hΦ.pure ()
  | activate => exact hΦ.next (hΦ.updateState _ fun _ => ⟨rfl, rfl⟩) hselect
  | newTarget => exact hselect
  | lookingForTarget | tracking => exact hΦ.track f false
  | engagementComplete => exact hΦ.nextTarget

/-! ### The rounds of the network thread -/

theorem networkRound (hΦ : RoundBlocks Φ) (P : Platform) (input : Input) :
    Φ Bool (networkRound P input) := by
  refine hΦ.bind (hΦ.call .sslRead trivial) fun (answer : List SslRet × Bytes) => ?_
  refine hΦ.bind (hΦ.receive hΦ.readSection _ _) fun received => ?_
  cases received with
  | dispatch buffer script stream => exact hΦ.next (hΦ.dispatch P _) (hΦ.pure _)
  | oversized script stream => exact hΦ.pure _
  | stopped headerRead why stream => exact hΦ.leaveLoop

/-! ### The rounds of the other threads -/

theorem engagementRound (hΦ : RoundBlocks Φ) (hgoto : ∀ pc, Φ Unit (goto pc)) :
    Φ Bool engagementRound :=
  hΦ.next (hΦ.engagementStatement hgoto) (hΦ.pure _)

theorem mainStart (hΦ : RoundBlocks Φ) : Φ Bool mainStart :=
  hΦ.next (hΦ.laser false) (hΦ.next (hΦ.fire false) (hΦ.next (hΦ.calibrate false)
    (hΦ.next (hΦ.servoAngle _) (hΦ.next (hΦ.servoAngle _) (hΦ.pure _)))))

theorem mainFrame (hΦ : RoundBlocks Φ) (f : Frame) (sendbuff : Option Bytes) :
    Φ Unit (mainFrame f sendbuff) :=
  hΦ.next (hΦ.processTargetEngagements f) (hΦ.read fun _ =>
    hΦ.ite (hΦ.imageSection sendbuff) (hΦ.pure _))

theorem mainRound (hΦ : RoundBlocks Φ) (input : Input) : Φ Bool (mainRound input) := by
  have hbody : Φ Unit (mainBody input) := by
    refine hΦ.read fun s => ?_
    cases s.isLoggedIn with
    | false => exact hΦ.pure _
    | true =>
        cases input.frame with
        | none => exact hΦ.pure _
        | some f => exact hΦ.mainFrame f _
  exact hΦ.next hbody (hΦ.read fun _ => hΦ.pure _)

theorem switchOff (hΦ : RoundBlocks Φ) : Φ Bool switchOff :=
  hΦ.next (hΦ.laser false) (hΦ.next (hΦ.fire false)
    (hΦ.next (hΦ.calibrate false) (hΦ.pure _)))

end RoundBlocks

/-! ## The threads and their monitors -/

/-- A monitor of a thread of the server. -/
abbrev Watch (κ : Type) := Monitor Server Call Call.Answer Halt κ

variable {κ : Type}

/-- Each round follows the monitor.  A thread starts in `first`; `idle` is where
    a round may leave it, for the next to go on from; `off` is where `main`
    starts to switch off. -/
structure Rounds (P : Platform) (M : Watch κ) (first off : κ)
    (idle : Tid → Bool → κ → Prop) : Prop where
  mainStart : M.Follows first mainStart (idle .main)
  createThread {again : Bool} {w : κ} :
    idle .main again w → M.Follows w createThread (idle .main)
  mainRound (input : Input) {again : Bool} {w : κ} :
    idle .main again w → M.Follows w (mainRound input) (idle .main)
  networkStart : M.Follows first (do createAuditObj; pure true) (idle .network)
  networkRound (input : Input) {again : Bool} {w : κ} :
    idle .network again w → M.Follows w (networkRound P input) (idle .network)
  engagementStart : M.Follows first engagementRound (idle .engagement)
  engagementRound {again : Bool} {w : κ} :
    idle .engagement again w → M.Follows w engagementRound (idle .engagement)
  heartBeatStart : M.Follows first heartBeatRound (idle .heartBeat)
  heartBeatRound {again : Bool} {w : κ} :
    idle .heartBeat again w → M.Follows w heartBeatRound (idle .heartBeat)
  switchOff : M.Follows off switchOff fun _ _ => True

/-- A monitor that every block brings back to where it was. -/
theorem RoundBlocks.rounds {M : Watch κ} {first off : κ} (P : Platform)
    (hΦ : RoundBlocks fun _ p => M.Follows first p fun _ w => w = first)
    (hgoto : ∀ pc, M.Follows first (goto pc) fun _ w => w = first)
    (hoff : M.Follows off DemoCannon.switchOff fun _ _ => True) :
    Rounds P M first off fun _ _ w => w = first where
  mainStart := hΦ.mainStart
  createThread := by
    rintro _ _ rfl
    exact hΦ.createThread
  mainRound input := by
    rintro _ _ rfl
    exact hΦ.mainRound input
  networkStart := hΦ.createAudit
  networkRound input := by
    rintro _ _ rfl
    exact hΦ.networkRound P input
  engagementStart := hΦ.engagementRound hgoto
  engagementRound := by
    rintro _ _ rfl
    exact hΦ.engagementRound hgoto
  heartBeatStart := hΦ.heartBeatRound
  heartBeatRound := by
    rintro _ _ rfl
    exact hΦ.heartBeatRound
  switchOff := hoff

/-- `CleanUp` is joining the threads. -/
def Phase.Joining (phase : Phase) : Prop := ∃ cause i, phase = .joining cause i

/-- `CleanUp` has begun. -/
def Phase.Closing : Phase → Prop
  | .joining _ _ | .switchingOff _ => True
  | _ => False

instance : DecidablePred Phase.Closing
  | .joining _ _ | .switchingOff _ => isTrue trivial
  | .starting | .creatingNetwork | .creatingEngagement | .looping => isFalse id

theorem Phase.Joining.closing {phase : Phase} (h : phase.Joining) : phase.Closing := by
  obtain ⟨cause, i, rfl⟩ := h
  trivial

/-- Where the round a thread is in may leave its monitor. -/
def Phase.ends (idle : Tid → Bool → κ → Prop) (phase : Phase) (i : Tid) :
    Bool → κ → Prop :=
  match phase, i with
  | .switchingOff _, .main => fun _ _ => True
  | _, i => idle i

namespace Process

/-- Every thread follows the monitor, from where it is in `w`.  While threads are
    joined `main` has nothing to do. -/
structure Watched (M : Watch κ) (first : κ) (idle : Tid → Bool → κ → Prop)
    (p : Process) (w : Tid → κ) : Prop where
  follows (i : Tid) (rest : Prog Bool) : p.pool.threads i = .running rest →
    (i = .main → ¬ p.phase.Joining) → M.Follows (w i) rest (p.phase.ends idle i)
  first (i : Tid) : p.pool.threads i = .notCreated → w i = first
  network : p.phase = .starting ∨ p.phase = .creatingNetwork →
    p.pool.threads .network = .notCreated
  engagement : p.phase = .starting ∨ p.phase = .creatingNetwork
      ∨ p.phase = .creatingEngagement → p.pool.threads .engagement = .notCreated
  joining (rest : Prog Bool) : p.phase.Joining → p.pool.threads .main = .running rest →
    ∃ again, rest = .ret again

/-- Where a step of the process takes the monitors. -/
def advance (M : Watch κ) (off : κ) (p : Process) (w : Tid → κ) : Tick → Tid → κ
  | .step a => p.pool.advance M w a
  | .joined .heartBeat | .joined .main => Function.update w .main off
  | _ => w

/-- The answers of a step are among those counted on. -/
def Assumed (M : Watch κ) (w : Tid → κ) : Tick → Prop
  | .step a => Pool.Assumed M w a
  | _ => True

variable {P : Platform} {M : Watch κ} {first off : κ} {idle : Tid → Bool → κ → Prop}
  {p q : Process} {w : Tid → κ} {a : Tick}

theorem watched_accepted (R : Rounds P M first off idle) (c : Config) :
    (accepted c).Watched M first idle (fun _ => first) where
  follows i rest hi _ := by
    cases i with
    | main =>
        obtain rfl := Thread.running.inj hi
        exact R.mainStart
    | network | engagement | heartBeat => cases hi
  first _ _ := rfl
  network _ := rfl
  engagement _ := rfl
  joining _ := by
    rintro ⟨_, _, h⟩
    cases h

/-- A thread in the middle of its round follows the monitor. -/
theorem Watched.of_running (hw : p.Watched M first idle w) {i : Tid} {rest : Prog Bool}
    (hi : p.pool.threads i = .running rest) (hrest : ∀ again, rest ≠ .ret again) :
    M.Follows (w i) rest (p.phase.ends idle i) := by
  refine hw.follows i rest hi ?_
  rintro rfl hjoining
  obtain ⟨again, h⟩ := hw.joining rest hjoining hi
  exact hrest again h

@[simp] theorem ends_of_ne {phase : Phase} {i : Tid} (hi : i ≠ .main) :
    phase.ends idle i = idle i := by
  cases phase with
  | switchingOff cause =>
      cases i with
      | main => exact absurd rfl hi
      | network | engagement | heartBeat => rfl
  | starting | creatingNetwork | creatingEngagement | looping => rfl
  | joining cause j => rfl

/-- What happens to one thread, which nobody creates. -/
theorem Watched.move (hw : p.Watched M first idle w) {w' : Tid → κ} (i : Tid)
    (hphase : q.phase = p.phase)
    (hothers : ∀ j, j ≠ i → q.pool.threads j = p.pool.threads j ∧ w' j = w j)
    (hlive : p.pool.threads i = .notCreated → i = .heartBeat ∨ p.phase.Joining)
    (hlive' : q.pool.threads i ≠ .notCreated)
    (hjoining : i = .main → p.phase.Joining → ∀ rest, q.pool.threads i ≠ .running rest)
    (hfollows : ∀ rest, q.pool.threads i = .running rest →
      M.Follows (w' i) rest (p.phase.ends idle i)) : q.Watched M first idle w' where
  follows j rest hj hmain := by
    rw [hphase]
    by_cases hji : j = i
    · rw [hji] at hj ⊢
      exact hfollows rest hj
    · obtain ⟨hthread, hw'⟩ := hothers j hji
      rw [hw']
      rw [hthread] at hj
      rw [hphase] at hmain
      exact hw.follows j rest hj hmain
  first j hj := by
    by_cases hji : j = i
    · rw [hji] at hj
      exact absurd hj hlive'
    · obtain ⟨hthread, hw'⟩ := hothers j hji
      rw [hw', hw.first j (hthread.symm.trans hj)]
  network h := by
    rw [hphase] at h
    have hnot := hw.network h
    by_cases hji : .network = i
    · subst hji
      rcases hlive hnot with hne | ⟨_, _, hjoin⟩
      · cases hne
      · rcases h with h | h <;> cases hjoin.symm.trans h
    · rw [(hothers _ hji).1]
      exact hnot
  engagement h := by
    rw [hphase] at h
    have hnot := hw.engagement h
    by_cases hji : .engagement = i
    · subst hji
      rcases hlive hnot with hne | ⟨_, _, hjoin⟩
      · cases hne
      · rcases h with h | h | h <;> cases hjoin.symm.trans h
    · rw [(hothers _ hji).1]
      exact hnot
  joining rest h hrest := by
    rw [hphase] at h
    by_cases hji : .main = i
    · subst hji
      exact absurd hrest (hjoining rfl h rest)
    · rw [(hothers _ hji).1] at hrest
      exact hw.joining rest h hrest

/-- A thread takes a step of its program. -/
theorem Watched.stepped (hw : p.Watched M first idle w)
    {l : Pool.Label Tid Call Call.Answer} {pool : Threads}
    (hst : Pool.Step Locks.grant p.pool l pool) (hassumed : Pool.Assumed M w l)
    (hrelies : M.relies (w l.thread) p.server) :
    Watched M first idle { p with pool := pool } (p.pool.advance M w l) := by
  obtain ⟨rest, rest', hbefore, hafter, hprog⟩ := hst.program
  have hrest : ∀ again, rest ≠ .ret again := by
    rintro again rfl
    cases hprog
  have hfollows := hw.of_running hbefore hrest
  refine hw.move l.thread rfl ?_ ?_ ?_ ?_ ?_
  · intro j hj
    exact ⟨hst.others hj, Pool.advance_of_ne hj⟩
  · intro h
    cases hbefore.symm.trans h
  · intro h
    cases hafter.symm.trans h
  · intro hmain hjoining _ _
    rw [hmain] at hbefore
    obtain ⟨again, h⟩ := hw.joining rest hjoining hbefore
    exact hrest again h
  · refine hst.follows hassumed hrelies ?_
    intro rest₀ h₀
    obtain rfl := Thread.running.inj (hbefore.symm.trans h₀)
    exact hfollows

/-- A thread is put to its next round. -/
theorem Watched.again (hw : p.Watched M first idle w) {i : Tid} {again : Bool}
    {prog : Prog Bool} (hi : p.pool.threads i = .running (.ret again))
    (hphase : i = .main → p.phase = .looping)
    (hprog : idle i again (w i) → M.Follows (w i) prog (idle i)) :
    (p.run i prog).Watched M first idle w := by
  have hends : p.phase.ends idle i = idle i := by
    by_cases hmain : i = .main
    · rw [hphase hmain]
      rfl
    · exact ends_of_ne hmain
  have hnot : i = .main → ¬ p.phase.Joining := by
    rintro hmain ⟨_, _, h⟩
    cases (hphase hmain).symm.trans h
  have hidle : idle i again (w i) := by
    have h := hw.follows i _ hi hnot
    rw [hends] at h
    exact h
  refine hw.move i rfl ?_ ?_ ?_ ?_ ?_
  · intro j hj
    exact ⟨Pool.set_threads_of_ne hj, rfl⟩
  · intro h
    cases hi.symm.trans h
  · intro h
    cases (Pool.set_threads_self ..).symm.trans h
  · intro hmain hjoining
    exact absurd hjoining (hnot hmain)
  · intro rest hrest
    obtain rfl := Thread.running.inj ((Pool.set_threads_self ..).symm.trans hrest)
    rw [hends]
    exact hprog hidle

/-- A thread stops. -/
theorem Watched.stopped (hw : p.Watched M first idle w) {i : Tid}
    (hlive : p.pool.threads i = .notCreated → i = .heartBeat ∨ p.phase.Joining) :
    Watched M first idle { p with pool := p.pool.set i .stopped } w := by
  have hset : (p.pool.set i .stopped).threads i = .stopped := Pool.set_threads_self ..
  refine hw.move i rfl ?_ hlive ?_ ?_ ?_
  · intro j hj
    exact ⟨Pool.set_threads_of_ne hj, rfl⟩
  · intro h
    cases hset.symm.trans h
  · intro _ _ rest h
    cases hset.symm.trans h
  · intro rest h
    cases hset.symm.trans h

/-- `main` comes to another phase, and does something new there. -/
theorem Watched.enter (hw : p.Watched M first idle w) {w' : Tid → κ}
    (hfollows : ∀ i rest, q.pool.threads i = .running rest →
      (i ≠ .main ∧ p.pool.threads i = .running rest ∧ w' i = w i)
        ∨ ((i = .main → ¬ q.phase.Joining) →
          M.Follows (w' i) rest (q.phase.ends idle i)))
    (hfirst : ∀ i, q.pool.threads i = .notCreated →
      p.pool.threads i = .notCreated ∧ w' i = w i)
    (hnetwork : q.phase = .starting ∨ q.phase = .creatingNetwork →
      q.pool.threads .network = .notCreated)
    (hengagement : q.phase = .starting ∨ q.phase = .creatingNetwork
        ∨ q.phase = .creatingEngagement → q.pool.threads .engagement = .notCreated)
    (hjoining : ∀ rest, q.phase.Joining → q.pool.threads .main = .running rest →
      ∃ again, rest = .ret again) : q.Watched M first idle w' where
  follows i rest hi hmain := by
    rcases hfollows i rest hi with ⟨hne, hbefore, hw'⟩ | h
    · have hold := hw.follows i rest hbefore fun h => absurd h hne
      rw [ends_of_ne hne] at hold ⊢
      rw [hw']
      exact hold
    · exact h hmain
  first i hi := by
    obtain ⟨hnot, hw'⟩ := hfirst i hi
    rw [hw', hw.first i hnot]
  network := hnetwork
  engagement := hengagement
  joining := hjoining

/-- `main`, back from a phase before its end, is where its round may leave it. -/
theorem Watched.idle_main (hw : p.Watched M first idle w) {again : Bool}
    (hi : p.pool.threads .main = .running (.ret again)) (hclosing : ¬ p.phase.Closing) :
    idle .main again (w .main) := by
  have h : p.phase.ends idle .main again (w .main) :=
    hw.follows .main _ hi fun _ hjoining => hclosing hjoining.closing
  cases hphase : p.phase with
  | switchingOff cause | joining cause i =>
      rw [hphase] at hclosing
      exact absurd trivial hclosing
  | starting | creatingNetwork | creatingEngagement | looping =>
      rw [hphase] at h
      exact h

/-- `main` creates a thread and comes to a phase in which it runs `prog`. -/
theorem Watched.create (hw : p.Watched M first idle w) {prog : Prog Bool} {phase : Phase}
    {created : Tid} {prog' : Prog Bool} (hcreated : created ≠ .main)
    (hnot : p.pool.threads created = .notCreated)
    (hprog : M.Follows (w .main) prog (phase.ends idle .main))
    (hprog' : M.Follows first prog' (idle created))
    (hjoining : ¬ phase.Joining) (hstarting : phase ≠ .starting)
    (hnetwork : phase = .creatingNetwork → False)
    (hengagement : phase = .creatingEngagement → created ≠ .engagement
      ∧ p.pool.threads .engagement = .notCreated) :
    Watched M first idle
      { (p.run created prog').run .main prog with phase := phase } w := by
  have hthread : ∀ i, i ≠ .main → i ≠ created →
      ((p.pool.set created (.running prog')).set .main (.running prog)).threads i
        = p.pool.threads i := by
    intro i hmain hne
    rw [Pool.set_threads_of_ne hmain, Pool.set_threads_of_ne hne]
  have hnew : ((p.pool.set created (.running prog')).set .main (.running prog)).threads
      created = .running prog' := by
    rw [Pool.set_threads_of_ne hcreated, Pool.set_threads_self]
  refine hw.enter ?_ ?_ ?_ ?_ ?_
  · intro i rest hi
    by_cases hmain : i = .main
    · subst hmain
      obtain rfl := Thread.running.inj ((Pool.set_threads_self ..).symm.trans hi)
      exact Or.inr fun _ => hprog
    by_cases hne : i = created
    · subst hne
      obtain rfl := Thread.running.inj (hnew.symm.trans hi)
      rw [ends_of_ne hmain, hw.first i hnot]
      exact Or.inr fun _ => hprog'
    · exact Or.inl ⟨hmain, (hthread i hmain hne).symm.trans hi, rfl⟩
  · intro i hi
    by_cases hmain : i = .main
    · subst hmain
      cases (Pool.set_threads_self ..).symm.trans hi
    by_cases hne : i = created
    · subst hne
      cases hnew.symm.trans hi
    · exact ⟨(hthread i hmain hne).symm.trans hi, rfl⟩
  · rintro (h | h)
    · exact absurd h hstarting
    · exact (hnetwork h).elim
  · rintro (h | h | h)
    · exact absurd h hstarting
    · exact (hnetwork h).elim
    · obtain ⟨hne, hbefore⟩ := hengagement h
      rw [← hbefore]
      exact hthread .engagement (by decide) hne.symm
  · intro rest h
    exact absurd h hjoining

/-- The threads are left as they are while `CleanUp` begins or goes on. -/
theorem Watched.join (hw : p.Watched M first idle w) {t : Bool}
    (hothers : ∀ i, i ≠ .main → q.pool.threads i = p.pool.threads i)
    (hmain : q.pool.threads .main = .running (.ret t)
      ∨ p.phase.Joining ∧ q.pool.threads .main = p.pool.threads .main)
    (hphase : q.phase.Joining) : q.Watched M first idle w := by
  have hnot : ∀ rest, q.pool.threads .main = .running rest → ∃ again, rest = .ret again := by
    intro rest hrest
    rcases hmain with h | ⟨hjoining, h⟩
    · exact ⟨t, (Thread.running.inj (h.symm.trans hrest)).symm⟩
    · exact hw.joining rest hjoining (h.symm.trans hrest)
  obtain ⟨cause, j, hj⟩ := hphase
  refine hw.enter ?_ ?_ ?_ ?_ ?_
  · intro i rest hi
    by_cases hne : i = .main
    · exact Or.inr fun h => absurd ⟨cause, j, hj⟩ (h hne)
    · exact Or.inl ⟨hne, (hothers i hne).symm.trans hi, rfl⟩
  · intro i hi
    by_cases hne : i = .main
    · subst hne
      rcases hmain with h | ⟨-, h⟩
      · cases h.symm.trans hi
      · exact ⟨h.symm.trans hi, rfl⟩
    · exact ⟨(hothers i hne).symm.trans hi, rfl⟩
  · rintro (h | h) <;> cases hj.symm.trans h
  · rintro (h | h | h) <;> cases hj.symm.trans h
  · intro rest _ hrest
    exact hnot rest hrest

/-- `main` goes on to its next round or phase. -/
theorem Watched.goOn_main (R : Rounds P M first off idle) (hw : p.Watched M first idle w)
    {input : Input} {again : Bool}
    (hi : p.pool.threads .main = .running (.ret again))
    (hq : p.goOn P input .main again = some q) : q.Watched M first idle w := by
  have hidle : ¬ p.phase.Closing → idle .main again (w .main) := hw.idle_main hi
  rw [Process.goOn] at hq
  cases hphase : p.phase with
  | starting =>
      rw [hphase] at hq hidle
      cases hq
      have h := hidle (by rintro ⟨⟩)
      have hothers : ∀ i, i ≠ .main →
          (p.pool.set .main (.running createThread)).threads i = p.pool.threads i :=
        fun i hne => Pool.set_threads_of_ne hne
      refine hw.enter ?_ ?_ ?_ ?_ ?_
      · intro i rest hrest
        by_cases hne : i = .main
        · subst hne
          obtain rfl := Thread.running.inj ((Pool.set_threads_self ..).symm.trans hrest)
          exact Or.inr fun _ => R.createThread h
        · exact Or.inl ⟨hne, (hothers i hne).symm.trans hrest, rfl⟩
      · intro i hrest
        by_cases hne : i = .main
        · subst hne
          cases (Pool.set_threads_self ..).symm.trans hrest
        · exact ⟨(hothers i hne).symm.trans hrest, rfl⟩
      · intro _
        exact (hothers .network (by decide)).trans (hw.network (Or.inl hphase))
      · intro _
        exact (hothers .engagement (by decide)).trans (hw.engagement (Or.inl hphase))
      · rintro rest ⟨_, _, h⟩
        cases h
  | creatingNetwork =>
      rw [hphase] at hq hidle
      cases hq
      have h := hidle (by rintro ⟨⟩)
      refine hw.create (by decide) (hw.network (Or.inr hphase)) (R.createThread h)
        R.networkStart ?_ (by decide) (by rintro ⟨⟩) ?_
      · rintro ⟨_, _, h⟩
        cases h
      · intro _
        exact ⟨by decide, hw.engagement (Or.inr (Or.inl hphase))⟩
  | creatingEngagement =>
      rw [hphase] at hq hidle
      cases hq
      have h := hidle (by rintro ⟨⟩)
      refine hw.create (by decide) (hw.engagement (Or.inr (Or.inr hphase)))
        (R.mainRound input h) R.engagementStart ?_ (by decide) (by rintro ⟨⟩) (by rintro ⟨⟩)
      rintro ⟨_, _, h⟩
      cases h
  | looping =>
      simp only [hphase] at hq
      cases again with
      | true =>
          cases hq
          exact hw.again hi (fun _ => hphase) (R.mainRound input)
      | false =>
          cases hq
          exact hw.join (fun _ _ => rfl) (Or.inl hi) ⟨_, _, rfl⟩
  | joining cause j =>
      rw [hphase] at hq
      cases hq
  | switchingOff cause =>
      simp only [hphase] at hq
      cases hq
      rw [← hphase]
      exact ⟨hw.follows, hw.first, hw.network, hw.engagement, hw.joining⟩

/-- `CleanUp` does not go back. -/
theorem Step.closing (hst : Step P p a q) (hp : p.phase.Closing) : q.phase.Closing := by
  cases hst with
  | step hrun hst | halt hrun hi | heartBeat hrun hcreated hi
  | spuriousWakeup hrun hi hwaiting | cancelled hrun hphase => exact hp
  | controlC hrun hjoining hoff => trivial
  | @joined cause i hrun hphase hi =>
      cases i with
      | network | engagement => trivial
      | heartBeat | main => trivial
  | @goOn i again _ input hrun hi hq =>
      cases i with
      | main =>
          rw [Process.goOn] at hq
          cases hphase : p.phase with
          | starting | creatingNetwork | creatingEngagement | looping =>
              rw [hphase] at hp
              exact hp.elim
          | joining cause j =>
              rw [hphase] at hq
              cases hq
          | switchingOff cause =>
              simp only [hphase] at hq
              cases hq
              trivial
      | network =>
          rw [Process.goOn] at hq
          cases again with
          | true | false => cases hq; exact hp
      | engagement =>
          rw [Process.goOn] at hq
          split at hq
          · cases hq
          · cases hq
            exact hp
      | heartBeat =>
          cases hq
          exact hp

/-- Going on touches neither the shared state nor the mutexes. -/
theorem goOn_frame {input : Input} {i : Tid} {again : Bool}
    (hq : p.goOn P input i again = some q) :
    q.server = p.server ∧ q.pool.locks = p.pool.locks
      ∧ ∀ j, q.pool.threads j = .notCreated → p.pool.threads j = .notCreated := by
  have hrun : ∀ {p : Process} {i j : Tid} {prog : Prog Bool},
      (p.pool.set i (.running prog)).threads j = .notCreated →
        p.pool.threads j = .notCreated :=
    fun h => Pool.notCreated_of_set (by rintro ⟨⟩) h
  cases i with
  | main =>
      rw [Process.goOn] at hq
      split at hq
      · cases hq; exact ⟨rfl, rfl, fun _ => hrun⟩
      · cases hq
        exact ⟨rfl, rfl, fun _ h => hrun (hrun (p := p.run .network _) h)⟩
      · cases hq
        exact ⟨rfl, rfl, fun _ h => hrun (hrun (p := p.run .engagement _) h)⟩
      · split at hq
        · cases hq; exact ⟨rfl, rfl, fun _ => hrun⟩
        · cases hq; exact ⟨rfl, rfl, fun _ h => h⟩
      · cases hq
      · cases hq; exact ⟨rfl, rfl, fun _ h => h⟩
  | network =>
      rw [Process.goOn] at hq
      split at hq
      · cases hq; exact ⟨rfl, rfl, fun _ => hrun⟩
      · cases hq
        exact ⟨rfl, rfl, fun _ h => Pool.notCreated_of_set (by rintro ⟨⟩) h⟩
  | engagement =>
      rw [Process.goOn] at hq
      split at hq
      · cases hq
      · cases hq; exact ⟨rfl, rfl, fun _ => hrun⟩
  | heartBeat => cases hq; exact ⟨rfl, rfl, fun _ => hrun⟩

/-- What is not a step of a program touches no mutex. -/
theorem Step.frame (hst : Step P p a q) (ha : ∀ l, a ≠ .step l) :
    q.pool.locks = p.pool.locks
      ∧ ∀ j, q.pool.threads j = .notCreated → p.pool.threads j = .notCreated := by
  cases hst with
  | step hrun hst => exact absurd rfl (ha _)
  | halt hrun hi | spuriousWakeup hrun hi hwaiting => exact ⟨rfl, fun _ h => h⟩
  | goOn input hrun hi hq => exact (goOn_frame hq).2
  | heartBeat hrun hcreated hi | controlC hrun hjoining hoff | cancelled hrun hphase =>
      exact ⟨rfl, fun _ h => Pool.notCreated_of_set (by rintro ⟨⟩) h⟩
  | @joined cause i hrun hphase hi =>
      cases i with
      | network | engagement => exact ⟨rfl, fun _ h => h⟩
      | heartBeat | main =>
          exact ⟨rfl, fun _ h => Pool.notCreated_of_set (by rintro ⟨⟩) h⟩

theorem Watched.goOn (R : Rounds P M first off idle) (hw : p.Watched M first idle w)
    {input : Input} {i : Tid} {again : Bool}
    (hi : p.pool.threads i = .running (.ret again))
    (hq : p.goOn P input i again = some q) : q.Watched M first idle w := by
  cases i with
  | main => exact hw.goOn_main R hi hq
  | network =>
      rw [Process.goOn] at hq
      cases again with
      | true =>
          cases hq
          exact hw.again hi (by rintro ⟨⟩) (R.networkRound input)
      | false =>
          cases hq
          refine hw.stopped ?_
          intro h
          cases hi.symm.trans h
  | engagement =>
      rw [Process.goOn] at hq
      by_cases hwaiting : p.server.engagement = .waiting
      · rw [if_pos hwaiting] at hq
        cases hq
      · rw [if_neg hwaiting] at hq
        cases hq
        exact hw.again hi (by rintro ⟨⟩) R.engagementRound
  | heartBeat =>
      cases hq
      exact hw.again hi (by rintro ⟨⟩) R.heartBeatRound

/-- **The step lemma.**  The threads follow the monitor through every step whose
    answers are counted on. -/
theorem Watched.step (R : Rounds P M first off idle) (hw : p.Watched M first idle w)
    (hst : Step P p a q) (hassumed : Assumed M w a)
    (hrelies : ∀ i, M.relies (w i) p.server) :
    q.Watched M first idle (p.advance M off w a) := by
  cases hst with
  | step hrun hst => exact hw.stepped hst hassumed (hrelies _)
  | halt hrun hi => exact ⟨hw.follows, hw.first, hw.network, hw.engagement, hw.joining⟩
  | goOn input hrun hi hq => exact hw.goOn R hi hq
  | heartBeat hrun hcreated hi =>
      have hset : (p.pool.set .heartBeat (.running heartBeatRound)).threads .heartBeat
          = .running heartBeatRound := Pool.set_threads_self ..
      refine hw.move .heartBeat rfl ?_ ?_ ?_ ?_ ?_
      · intro j hj
        exact ⟨Pool.set_threads_of_ne hj, rfl⟩
      · intro _
        exact Or.inl rfl
      · intro h
        cases hset.symm.trans h
      · rintro ⟨⟩
      · intro rest hrest
        obtain rfl := Thread.running.inj (hset.symm.trans hrest)
        rw [ends_of_ne (by decide), show p.advance M off w .heartBeat = w from rfl,
          hw.first _ hi]
        exact R.heartBeatStart
  | spuriousWakeup hrun hi hwaiting =>
      exact ⟨hw.follows, hw.first, hw.network, hw.engagement, hw.joining⟩
  | controlC hrun hjoining hoff =>
      exact hw.join (fun i hne => Pool.set_threads_of_ne hne)
        (Or.inl (Pool.set_threads_self ..)) ⟨_, _, rfl⟩
  | @cancelled cause i hrun hphase =>
      refine hw.stopped ?_
      intro _
      exact Or.inr ⟨cause, i, hphase⟩
  | @joined cause i hrun hphase hi =>
      have hoff : ∀ {i : Tid}, p.joined cause i
            = { p.run .main switchOff with phase := .switchingOff cause } →
          (p.joined cause i).Watched M first idle (Function.update w .main off) := by
        intro i hjoined
        rw [hjoined]
        refine hw.enter ?_ ?_ ?_ ?_ ?_
        · intro j rest hj
          by_cases hne : j = .main
          · subst hne
            obtain rfl := Thread.running.inj ((Pool.set_threads_self ..).symm.trans hj)
            rw [Function.update_self]
            exact Or.inr fun _ => R.switchOff
          · exact Or.inl ⟨hne, (Pool.set_threads_of_ne hne).symm.trans hj,
              Function.update_of_ne hne ..⟩
        · intro j hj
          by_cases hne : j = .main
          · subst hne
            cases (Pool.set_threads_self ..).symm.trans hj
          · exact ⟨(Pool.set_threads_of_ne hne).symm.trans hj, Function.update_of_ne hne ..⟩
        · rintro (h | h) <;> cases h
        · rintro (h | h | h) <;> cases h
        · rintro rest ⟨_, _, h⟩
          cases h
      cases i with
      | network | engagement =>
          exact hw.join (t := true) (fun _ _ => rfl) (Or.inr ⟨⟨_, _, hphase⟩, rfl⟩) ⟨_, _, rfl⟩
      | heartBeat | main => exact hoff rfl

/-- What a thread runs after a step that is not one of its program: what it ran
    before, nothing, or a round from its beginning. -/
inductive Began (first off : κ) (idle : Tid → Bool → κ → Prop) (p q : Process)
    (w : Tid → κ) (i : Tid) (w' : κ) (rest : Prog Bool) : Prop where
  | same : p.pool.threads i = .running rest → w' = w i → Began first off idle p q w i w' rest
  | done (again : Bool) : i = .main → q.phase.Closing → rest = .ret again →
      Began first off idle p q w i w' rest
  | first : p.pool.threads i = .notCreated → w' = first → Began first off idle p q w i w' rest
  | off : i = .main → q.phase.Closing → w' = off → Began first off idle p q w i w' rest
  | idle (again : Bool) : p.pool.threads i = .running (.ret again) → idle i again w' →
      Began first off idle p q w i w' rest

/-- What a thread runs after one has been set to run: that, or what it ran. -/
theorem running_of_set {i j : Tid} {prog rest : Prog Bool}
    (h : (p.pool.set j (.running prog)).threads i = .running rest) :
    i = j ∨ p.pool.threads i = .running rest := by
  by_cases hij : i = j
  · exact Or.inl hij
  · exact Or.inr ((Pool.set_threads_of_ne hij).symm.trans h)

/-- What a thread runs after one has been stopped is what it ran. -/
theorem running_of_set_stopped {i j : Tid} {rest : Prog Bool}
    (h : (p.pool.set j .stopped).threads i = .running rest) :
    p.pool.threads i = .running rest := by
  by_cases hij : i = j
  · subst hij
    cases (Pool.set_threads_self ..).symm.trans h
  · exact (Pool.set_threads_of_ne hij).symm.trans h

/-- A thread whose round is over is idle. -/
theorem Watched.idle_of_over (hw : p.Watched M first idle w) {i : Tid} {again : Bool}
    (hi : p.pool.threads i = .running (.ret again)) (hmain : i = .main → ¬ p.phase.Closing) :
    idle i again (w i) := by
  by_cases hne : i = .main
  · subst hne
    exact hw.idle_main hi (hmain rfl)
  · have h : p.phase.ends idle i again (w i) := hw.follows i _ hi fun h => absurd h hne
    rw [ends_of_ne hne] at h
    exact h

/-- Main goes on to its next phase, or to its next round. -/
theorem Watched.began_main (hw : p.Watched M first idle w) {again : Bool} {input : Input}
    (hmain : p.pool.threads .main = .running (.ret again))
    (hq : Process.goOn P input p .main again = some q) {i : Tid} {rest : Prog Bool}
    (hi : q.pool.threads i = .running rest) :
    Began first off idle p q w i (w i) rest := by
  have hidle : ¬ p.phase.Closing → idle .main again (w .main) :=
    fun h => hw.idle_of_over hmain fun _ => h
  rw [Process.goOn] at hq
  cases hphase : p.phase with
  | starting =>
      rw [hphase] at hq hidle
      cases hq
      rcases running_of_set hi with rfl | h
      · exact .idle again hmain (hidle (by rintro ⟨⟩))
      · exact .same h rfl
  | creatingNetwork =>
      rw [hphase] at hq hidle
      cases hq
      rcases running_of_set hi with rfl | h
      · exact .idle again hmain (hidle (by rintro ⟨⟩))
      rcases running_of_set h with rfl | h
      · have hnot := hw.network (Or.inr hphase)
        exact .first hnot (hw.first _ hnot)
      · exact .same h rfl
  | creatingEngagement =>
      rw [hphase] at hq hidle
      cases hq
      rcases running_of_set hi with rfl | h
      · exact .idle again hmain (hidle (by rintro ⟨⟩))
      rcases running_of_set h with rfl | h
      · have hnot := hw.engagement (Or.inr (Or.inr hphase))
        exact .first hnot (hw.first _ hnot)
      · exact .same h rfl
  | looping =>
      rw [hphase] at hidle
      simp only [hphase] at hq
      cases again with
      | true =>
          cases hq
          rcases running_of_set hi with rfl | h
          · exact .idle true hmain (hidle (by rintro ⟨⟩))
          · exact .same h rfl
      | false =>
          cases hq
          exact .same hi rfl
  | joining cause k =>
      rw [hphase] at hq
      cases hq
  | switchingOff cause =>
      simp only [hphase] at hq
      cases hq
      exact .same hi rfl

/-- Another thread goes on to its next round, or ends. -/
theorem Watched.began_other (hw : p.Watched M first idle w) {j : Tid} (hne : j ≠ .main)
    {again : Bool} {input : Input} (hj : p.pool.threads j = .running (.ret again))
    (hq : Process.goOn P input p j again = some q) {i : Tid} {rest : Prog Bool}
    (hi : q.pool.threads i = .running rest) :
    Began first off idle p q w i (w i) rest := by
  have hidle := hw.idle_of_over hj fun h => absurd h hne
  have hset : ∀ {prog}, (p.pool.set j (.running prog)).threads i = .running rest →
      Began first off idle p q w i (w i) rest := by
    intro prog h
    rcases running_of_set h with rfl | h
    · exact .idle again hj hidle
    · exact .same h rfl
  cases j with
  | main => exact absurd rfl hne
  | network =>
      rw [Process.goOn] at hq
      cases again with
      | true =>
          cases hq
          exact hset hi
      | false =>
          cases hq
          exact .same (running_of_set_stopped hi) rfl
  | engagement =>
      rw [Process.goOn] at hq
      by_cases hwaiting : p.server.engagement = .waiting
      · rw [if_pos hwaiting] at hq
        cases hq
      · rw [if_neg hwaiting] at hq
        cases hq
        exact hset hi
  | heartBeat =>
      cases hq
      exact hset hi

theorem Watched.began (hw : p.Watched M first idle w) (hst : Step P p a q)
    (ha : ∀ l, a ≠ .step l) {i : Tid} {rest : Prog Bool}
    (hi : q.pool.threads i = .running rest) :
    Began first off idle p q w i (p.advance M off w a i) rest := by
  cases hst with
  | step hrun hst => exact absurd rfl (ha _)
  | halt hrun _ => exact .same hi rfl
  | spuriousWakeup hrun _ _ => exact .same hi rfl
  | heartBeat hrun hcreated hnot =>
      rcases running_of_set hi with rfl | h
      · exact .first hnot (hw.first _ hnot)
      · exact .same h rfl
  | controlC hrun _ _ =>
      rcases running_of_set hi with rfl | h
      · refine .done true rfl trivial ?_
        exact (Thread.running.inj ((Pool.set_threads_self ..).symm.trans hi)).symm
      · exact .same h rfl
  | @cancelled cause j hrun hphase => exact .same (running_of_set_stopped hi) rfl
  | @joined cause j hrun hphase hj =>
      cases j with
      | network | engagement => exact .same hi rfl
      | heartBeat | main =>
          change Began first off idle p _ w i (Function.update w .main off i) rest
          by_cases hmain : i = .main
          · subst hmain
            exact .off rfl trivial (Function.update_self ..)
          · exact .same ((Pool.set_threads_of_ne hmain).symm.trans hi)
              (Function.update_of_ne hmain ..)
  | @goOn j again _ input hrun hj hq =>
      by_cases hmain : j = .main
      · subst hmain
        exact hw.began_main hj hq hi
      · exact hw.began_other hmain hj hq hi

end Process

end DemoCannon
