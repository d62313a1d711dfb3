import DemoCannon.Process
import DemoCannon.Refinement

/-! # The end of the process and the outputs

    However `CleanUp` is entered, it joins every thread before it switches the
    outputs off, so the process then ends with both off.  A thread that calls
    `exit` in the middle of its work leaves them as they are.  Together: the
    process never ends with an output on in exactly the runs in which no thread
    exits while one is on (`ended_off_iff`). -/

namespace DemoCannon

open Interaction Interaction.Program SystemState

/-- The cannon and the laser are off. -/
def Server.OutputsOff (s : Server) : Prop := s.gpio17 = false ∧ s.gpio18 = false

instance (s : Server) : Decidable s.OutputsOff := inferInstanceAs (Decidable (_ ∧ _))

theorem post_switchOff (s : Server) : Post switchOff s (fun _ t => t.OutputsOff) := by
  have hacts : Acts Server.control
      (fun c => ((c.laser false).fire false).flag calibOn false) switchOff :=
    (acts_laser false).bind fun _ => (acts_fire false).bind fun _ =>
      (acts_calibrate false).bind_keeps fun _ => Acts.pure true
  refine (hacts s).mono fun _ t ht => ?_
  exact ⟨congrArg Control.gpio17 ht, congrArg Control.gpio18 ht⟩

/-! ## `CleanUp` -/

/-- The threads that `CleanUp` has joined. -/
def Phase.joined : Phase → List Tid
  | .joining _ .engagement => [.network]
  | .joining _ .heartBeat => [.network, .engagement]
  | .joining _ .main => [.network, .engagement, .heartBeat]
  | .switchingOff _ => [.network, .engagement, .heartBeat]
  | _ => []

namespace Process

/-- Joined threads have stopped, and what `main` has still to do when all have
    switches the outputs off. -/
structure Sound (p : Process) : Prop where
  stopped : ∀ i ∈ p.phase.joined, p.pool.threads i = .stopped
  main : ∀ cause, p.phase = .switchingOff cause →
    ∃ rest, p.pool.threads .main = .running rest
      ∧ Post rest p.server (fun _ t => t.OutputsOff)

variable {P : Platform} {p q : Process} {a : Tick}

/-- While the outputs are switched off, `main` is the only thread. -/
theorem Sound.eq_main (hp : p.Sound) {i : Tid} (hi : p.pool.threads i ≠ .stopped)
    {cause : Cause} (hphase : p.phase = .switchingOff cause) : i = .main := by
  cases i with
  | main => rfl
  | network => exact absurd (hp.stopped .network (by simp [hphase, Phase.joined])) hi
  | engagement => exact absurd (hp.stopped .engagement (by simp [hphase, Phase.joined])) hi
  | heartBeat => exact absurd (hp.stopped .heartBeat (by simp [hphase, Phase.joined])) hi

/-- What a thread that has not stopped does by itself. -/
theorem Sound.move (hp : p.Sound) (i : Tid) (hi : p.pool.threads i ≠ .stopped)
    (hphase : q.phase = p.phase)
    (hothers : ∀ j, j ≠ i → q.pool.threads j = p.pool.threads j)
    (hmain : ∀ cause, p.phase = .switchingOff cause → i = .main →
      ∃ rest, q.pool.threads .main = .running rest
        ∧ Post rest q.server (fun _ t => t.OutputsOff)) : q.Sound where
  stopped j hj := by
    rw [hphase] at hj
    have hstopped := hp.stopped j hj
    rw [hothers j fun hji => hi (hji ▸ hstopped)]
    exact hstopped
  main cause hcause := by
    rw [hphase] at hcause
    exact hmain cause hcause (hp.eq_main hi hcause)

/-- What a thread other than `main` does by itself. -/
theorem Sound.other (hp : p.Sound) {i : Tid} (hne : i ≠ .main)
    (hi : p.pool.threads i ≠ .stopped) (hphase : q.phase = p.phase)
    (hothers : ∀ j, j ≠ i → q.pool.threads j = p.pool.threads j) : q.Sound := by
  refine hp.move i hi hphase hothers ?_
  intro _ _ hmain
  exact absurd hmain hne

/-- Before a join there is nothing to show. -/
theorem sound_of_joined_nil (h : p.phase.joined = []) : p.Sound where
  stopped i hi := by
    rw [h] at hi
    cases hi
  main cause hcause := by
    rw [hcause] at h
    cases h

theorem Sound.goOn (hp : p.Sound) {input : Input} {i : Tid} {again : Bool}
    (hi : p.pool.threads i = .running (.ret again))
    (hq : p.goOn P input i again = some q) : q.Sound := by
  have hlive : p.pool.threads i ≠ .stopped := by
    rw [hi]
    rintro ⟨⟩
  cases i with
  | main =>
      rw [Process.goOn] at hq
      cases hphase : p.phase with
      | starting | creatingNetwork | creatingEngagement =>
          rw [hphase] at hq
          cases hq
          exact sound_of_joined_nil rfl
      | looping =>
          simp only [hphase] at hq
          cases again with
          | true =>
              cases hq
              exact sound_of_joined_nil (congrArg Phase.joined hphase)
          | false =>
              cases hq
              exact sound_of_joined_nil rfl
      | joining cause j =>
          rw [hphase] at hq
          cases hq
      | switchingOff cause =>
          simp only [hphase] at hq
          cases hq
          rw [← hphase]
          exact ⟨hp.stopped, hp.main⟩
  | network =>
      rw [Process.goOn] at hq
      cases again with
      | true | false =>
          cases hq
          exact hp.other (by decide) hlive rfl fun j hj => Pool.set_threads_of_ne hj
  | engagement =>
      rw [Process.goOn] at hq
      by_cases hwaiting : p.server.engagement = .waiting
      · rw [if_pos hwaiting] at hq
        cases hq
      · rw [if_neg hwaiting] at hq
        cases hq
        exact hp.other (by decide) hlive rfl fun j hj => Pool.set_threads_of_ne hj
  | heartBeat =>
      cases hq
      exact hp.other (by decide) hlive rfl fun j hj => Pool.set_threads_of_ne hj

/-- The last part of `CleanUp` starts when all other threads have stopped. -/
theorem sound_switchingOff {cause : Cause}
    (hall : ∀ j ∈ [Tid.network, .engagement, .heartBeat],
      p.pool.threads j = .stopped) :
    Sound { p.run .main switchOff with phase := .switchingOff cause } := by
  refine ⟨fun j hj => ?_, fun _ _ => ⟨_, Pool.set_threads_self .., post_switchOff _⟩⟩
  have hne : j ≠ .main := by
    rintro rfl
    simp [Phase.joined] at hj
  exact (Pool.set_threads_of_ne hne).trans (hall j hj)

/-- With one more thread joined, all threads joined before have stopped. -/
theorem Sound.joined (hp : p.Sound) {cause : Cause} {i : Tid}
    (hphase : p.phase = .joining cause i) (hi : p.pool.threads i = .stopped) :
    (p.joined cause i).Sound := by
  have hbefore := hp.stopped
  rw [hphase] at hbefore
  -- in the order in which `CleanUp` joins them
  cases i with
  | network =>
      refine ⟨fun j hj => ?_, by rintro _ ⟨⟩⟩
      obtain rfl := List.mem_singleton.mp hj
      exact hi
  | engagement =>
      refine ⟨fun j hj => ?_, by rintro _ ⟨⟩⟩
      rcases List.mem_cons.mp hj with rfl | hj
      · exact hbefore .network (List.mem_singleton.mpr rfl)
      · obtain rfl := List.mem_singleton.mp hj
        exact hi
  | heartBeat =>
      refine sound_switchingOff ?_
      intro j hj
      rcases List.mem_cons.mp hj with rfl | hj
      · exact hbefore .network (List.mem_cons_self ..)
      rcases List.mem_cons.mp hj with rfl | hj
      · exact hbefore .engagement (List.mem_cons_of_mem _ (List.mem_cons_self ..))
      · obtain rfl := List.mem_singleton.mp hj
        exact hi
  | main => exact sound_switchingOff hbefore

/-- **The step lemma.** -/
theorem Sound.step (hp : p.Sound) (hst : Step P p a q) : q.Sound := by
  cases hst with
  | @step l pool hrun hst =>
      obtain ⟨rest, rest', hbefore, hafter, hprog⟩ := hst.program
      have hlive : p.pool.threads l.thread ≠ .stopped := by
        rw [hbefore]
        rintro ⟨⟩
      refine hp.move _ hlive rfl (fun j hj => hst.others hj) ?_
      -- `main` alone goes on switching off
      intro cause hcause hmain
      obtain ⟨rest₀, hrest₀, hpost⟩ := hp.main cause hcause
      rw [hmain] at hbefore hafter
      obtain rfl := Thread.running.inj (hrest₀.symm.trans hbefore)
      exact ⟨rest', hafter, hpost.step hprog⟩
  | halt hrun hi => exact ⟨hp.stopped, hp.main⟩
  | goOn input hrun hi hq => exact hp.goOn hi hq
  | heartBeat hrun hcreated hi =>
      have hlive : p.pool.threads .heartBeat ≠ .stopped := by
        rw [hi]
        rintro ⟨⟩
      exact hp.other (by decide) hlive rfl fun j hj => Pool.set_threads_of_ne hj
  | spuriousWakeup hrun hi hwaiting =>
      have hlive : p.pool.threads .engagement ≠ .stopped := by
        rw [hi]
        rintro ⟨⟩
      exact hp.other (by decide) hlive rfl fun _ _ => rfl
  | controlC hrun hjoining hoff => exact sound_of_joined_nil rfl
  | @cancelled cause i hrun hphase =>
      refine ⟨fun j hj => ?_, fun cause' h => ?_⟩
      · by_cases hji : j = i
        · rw [hji]
          exact Pool.set_threads_self ..
        · exact (Pool.set_threads_of_ne hji).trans (hp.stopped j hj)
      · cases hphase.symm.trans h
  | joined hrun hphase hi => exact hp.joined hphase hi

theorem sound_accepted (c : Config) : (accepted c).Sound := sound_of_joined_nil rfl

/-! ## The end -/

/-- Going on ends the process at the end of `CleanUp` only. -/
theorem goOn_ended {input : Input} {i : Tid} {again : Bool}
    (hq : p.goOn P input i again = some q) :
    q.ended = p.ended
      ∨ ∃ cause, i = .main ∧ p.phase = .switchingOff cause
        ∧ q = { p with ended := some (.cleanedUp cause) } := by
  cases i with
  | main =>
      rw [Process.goOn] at hq
      cases hphase : p.phase with
      | starting | creatingNetwork | creatingEngagement =>
          rw [hphase] at hq
          cases hq
          exact Or.inl rfl
      | looping =>
          simp only [hphase] at hq
          cases again with
          | true | false => cases hq; exact Or.inl rfl
      | joining cause j =>
          rw [hphase] at hq
          cases hq
      | switchingOff cause =>
          simp only [hphase] at hq
          cases hq
          exact Or.inr ⟨cause, rfl, rfl, rfl⟩
  | network =>
      rw [Process.goOn] at hq
      cases again with
      | true | false => cases hq; exact Or.inl rfl
  | engagement =>
      rw [Process.goOn] at hq
      split at hq
      · cases hq
      · cases hq
        exact Or.inl rfl
  | heartBeat =>
      cases hq
      exact Or.inl rfl

/-- How a step ends the process, if it does. -/
theorem Step.ended (hst : Step P p a q) :
    (q.ended = none ∧ ∀ i x, a ≠ .halt i x)
      ∨ (∃ i x, a = .halt i x ∧ q.ended = some (.halted i x) ∧ q.server = p.server)
      ∨ ∃ cause again, a = .goOn .main ∧ q.ended = some (.cleanedUp cause)
        ∧ p.phase = .switchingOff cause
        ∧ p.pool.threads .main = .running (.ret again) ∧ q.server = p.server := by
  cases hst with
  | step hrun hst => exact Or.inl ⟨hrun, by rintro _ _ ⟨⟩⟩
  | halt hrun hi => exact Or.inr (Or.inl ⟨_, _, rfl, rfl, rfl⟩)
  | goOn input hrun hi hq =>
      rcases goOn_ended hq with hsame | ⟨cause, rfl, hphase, rfl⟩
      · exact Or.inl ⟨hsame.trans hrun, by rintro _ _ ⟨⟩⟩
      · exact Or.inr (Or.inr ⟨cause, _, rfl, rfl, hphase, hi, rfl⟩)
  | heartBeat hrun hcreated hi => exact Or.inl ⟨hrun, by rintro _ _ ⟨⟩⟩
  | spuriousWakeup hrun hi hwaiting => exact Or.inl ⟨hrun, by rintro _ _ ⟨⟩⟩
  | controlC hrun hjoining hoff => exact Or.inl ⟨hrun, by rintro _ _ ⟨⟩⟩
  | cancelled hrun hphase => exact Or.inl ⟨hrun, by rintro _ _ ⟨⟩⟩
  | @joined cause i hrun hphase hi =>
      have hsame : (p.joined cause i).ended = p.ended := by
        cases i <;> rfl
      exact Or.inl ⟨hsame.trans hrun, by rintro _ _ ⟨⟩⟩

end Process

/-- The calls of `exit` in `ReadDataTcp`, `WriteDataTcp` and
    `ProcessTargetEngagements`. -/
def Halt.InWork (x : Halt) : Prop :=
  x = .readDataTcp ∨ x = .writeDataTcp ∨ x = .condSignal

/-- The process has ended by `main`, by Control-C or by one of these calls. -/
def Ending.Covered : Ending → Prop
  | .cleanedUp _ => True
  | .halted _ x => x.InWork

/-- A process that has ended so has left its outputs off. -/
def OffAtEnd (p : Process) : Prop :=
  ∀ e, p.ended = some e → e.Covered → p.server.OutputsOff

/-- A thread calls `exit` in the middle of its work while an output is on. -/
def ExitsWhileOn (p : Process) (a : Tick) : Prop :=
  ∃ i x, a = .halt i x ∧ x.InWork ∧ (p.server.gpio17 = true ∨ p.server.gpio18 = true)

theorem Server.outputsOff_iff (s : Server) :
    s.OutputsOff ↔ ¬ (s.gpio17 = true ∨ s.gpio18 = true) := by
  rw [OutputsOff, not_or, Bool.not_eq_true, Bool.not_eq_true]

section Runs

variable {P : Platform} {c : Config} {h : List (Process × Tick)} {p : Process}

theorem step_offAtEnd_iff {p q : Process} {a : Tick} (hp : p.Sound)
    (hst : p.Step P a q) : OffAtEnd q ↔ ¬ ExitsWhileOn p a := by
  rcases hst.ended with ⟨hrun, hno⟩ | ⟨i, x, rfl, hended, hserver⟩
    | ⟨cause, again, rfl, hended, hphase, hmain, hserver⟩
  · constructor
    · rintro _ ⟨i, x, ha, -⟩
      exact hno i x ha
    · intro _ e he
      cases hrun.symm.trans he
  · constructor
    · rintro hoff ⟨_, _, h, hexit, hon⟩
      cases h
      have hq := hoff _ hended hexit
      rw [hserver, Server.outputsOff_iff] at hq
      exact hq hon
    · intro hno e he hexit
      obtain rfl := Option.some.inj (hended.symm.trans he)
      rw [hserver, Server.outputsOff_iff]
      exact fun hon => hno ⟨i, x, rfl, hexit, hon⟩
  · -- `CleanUp` has switched the outputs off
    obtain ⟨rest, hrest, hpost⟩ := hp.main cause hphase
    obtain rfl := Thread.running.inj (hrest.symm.trans hmain)
    have hoff : p.server.OutputsOff := (post_pure again p.server _).mp hpost
    refine iff_of_true (fun _ _ _ => hserver ▸ hoff) ?_
    rintro ⟨i, x, h, -⟩
    cases h

/-- **The process never ends with an output on** in exactly the runs in which no
    thread calls `exit` while one is on. -/
theorem ended_off_iff (hr : ProcessRun P c h p) :
    EveryState OffAtEnd h p ↔ EveryStep (fun _ p a _ => ¬ ExitsWhileOn p a) h p := by
  refine Run.everyState_iff Process.Sound (Process.sound_accepted c)
    (by rintro _ ⟨⟩) ?_ ?_ hr
  · intro p a q hp hst _
    exact hp.step hst
  · intro p a q hp hst
    exact step_offAtEnd_iff hp hst

end Runs

/-! ## A session of the process -/

namespace Session

/-- The bytes of a message on the connection. -/
def bytes (m : Received) : Bytes :=
  htonl m.buffer.len ++ htonl m.buffer.type ++ m.buffer.data.take m.buffer.len.toNat

/-- The next message from the client is `m`, and every call succeeds at once. -/
def sends (m : Received) : (c : Call) → Option c.Answer
  | .sslRead => some ([.bytes 7, .bytes 503], bytes m)
  | c => smooth c

/-- The connection breaks when the server writes to it. -/
def breaks (m : Received) : (c : Call) → Option c.Answer
  | .sslWrite _ => some [.syscall]
  | c => sends m c

/-- `NetworkInputThread` receives and handles `m`. -/
def receives (m : Received) (env : (c : Call) → Option c.Answer) : Process.Order :=
  .turn .network env { now := m.now }

/-- From the connection to the login, and to `ARMED_MANUAL`. -/
def toArmedManual : List Process.Order :=
  List.replicate 4 (.turn .main smooth {}) ++ .turn .network smooth {}
    :: [login, prearm, request armedManual].map fun m => receives m (sends m)

/-- A session of the process is a run of it. -/
theorem reaches_process (orders : List Process.Order) (Q : Process → Bool)
    (h : Q (orders.foldl (Process.obey platform) (accepted config)) = true) :
    ∃ h p, ProcessRun platform config h p ∧ Q p = true := by
  obtain ⟨hist, hr⟩ := Process.exists_run_of_orders orders
    (Run.start : ProcessRun platform config [] (accepted config))
  exact ⟨hist, _, hr, h⟩

end Session

/-- The operator fires by hand and presses Control-C at the server. -/
theorem ended_off_iff_controlC :
    ∃ h p, ProcessRun Session.platform Session.config h p
      ∧ p.ended = some (.cleanedUp .controlC)
      ∧ (EveryState OffAtEnd h p
        ↔ EveryStep (fun _ p a _ => ¬ ExitsWhileOn p a) h p) := by
  obtain ⟨h, p, hr, hp⟩ := Session.reaches_process
    (Session.toArmedManual
      ++ [Session.receives (Session.command fireStart)
          (Session.sends (Session.command fireStart)),
        .controlC, .cleanUp, .cleanUp, .cleanUp, .turn .main smooth {},
        .turn .main smooth {}])
    (fun p => p.ended = some (.cleanedUp .controlC)) (by decide +kernel)
  exact ⟨h, p, hr, of_decide_eq_true hp, ended_off_iff hr⟩

/-- The operator fires by hand, and the connection breaks while the server
    answers: the process exits and the cannon goes on. -/
theorem exit_leaves_firing :
    ∃ h p, ProcessRun Session.platform Session.config h p
      ∧ ¬ EveryState OffAtEnd h p := by
  obtain ⟨h, p, hr, hp⟩ := Session.reaches_process
    (Session.toArmedManual
      ++ [Session.receives (Session.command fireStart)
          (Session.breaks (Session.command fireStart))])
    (fun p => p.ended = some (.halted .network .writeDataTcp) && p.server.gpio17)
    (by decide +kernel)
  obtain ⟨hended, hon⟩ := Bool.and_eq_true_iff.mp hp
  refine ⟨h, p, hr, fun hall => ?_⟩
  have hoff := hall.last _ (of_decide_eq_true hended) (Or.inr (Or.inl rfl))
  cases hoff.1.symm.trans hon

end DemoCannon
