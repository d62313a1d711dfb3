import DemoCannon.Lib.Threads
import DemoCannon.System

/-! # The process: its threads, its beginning and its ends

    `main` accepts a connection, creates the threads that read messages and
    that engage targets, and loops over the frames of the camera until the
    connection is lost; the first login adds a thread with a heart beat.  Here
    they all take turns in single steps, each call coming back with any answer,
    and any of them may end the process.  `main` ends it through `CleanUp`, and
    so does Control-C, whose handler runs in `main`'s thread.

    A round of a thread that no other thread interrupts is a step of the server:
    `Alone.post` with `post_networkRound`, `post_engagementRound` or
    `post_mainRound`. -/

namespace DemoCannon

open Interaction Interaction.Program SystemState

/-! ## What the threads run -/

/-- `ReadDataTcp` in a thread, which holds `TCP_Mutex` for each `SSL_read`. -/
def Thread.readDataTcp (length : Nat) :
    List SslRet → Bytes → Bytes → Prog ReadEnd
  | [], data, stream =>
      if data.length < length then never else pure (.returned data [] stream)
  | r :: script, data, stream =>
      if data.length < length then do
        lock .tcp
        unlock .tcp
        match r with
        | .bytes n =>
            let got := stream.take (min (n + 1) (length - data.length))
            Thread.readDataTcp length script (data ++ got) (stream.drop got.length)
        | .wantRead => Thread.readDataTcp length script data stream
        | .wantWrite => Thread.readDataTcp length script data stream
        | .syscall => .exit .readDataTcp
        | .error => pure (.failed stream)
      else pure (.returned data (r :: script) stream)

/-- A round of `NetworkInputThread` up to the dispatch. -/
def Thread.receive (script : List SslRet) (stream : Bytes) : Prog Receive := do
  let header ← Thread.readDataTcp sizeofHeader script [] stream
  match header with
  | .returned hdr script stream =>
      let len := ntohl hdr
      let type := ntohl (hdr.drop 4)
      if sizeofData < len.toNat then pure (.oversized script stream)
      else
        let payload ← Thread.readDataTcp len.toNat script [] stream
        match payload with
        | .returned payload script stream =>
            pure (.dispatch (.fill len type payload) script stream)
        | .failed stream => pure (.stopped true .lost stream)
        | .exited stream => pure (.stopped true .exited stream)
        | .waiting stream => pure (.stopped true .waiting stream)
  | .failed stream => pure (.stopped false .lost stream)
  | .exited stream => pure (.stopped false .exited stream)
  | .waiting stream => pure (.stopped false .waiting stream)

/-- `createAuditObj`. -/
def createAuditObj : Prog Unit := do
  let opened : Bool ← call .fopenLog
  update fun s => { s with auditFile := if opened then .opened else .null }

/-- `detroyAuditObj`. -/
def detroyAuditObj : Prog Unit := do
  let s ← fetch
  if s.auditFile = .null then .exit .crash
  else update fun s => { s with auditFile := .closed }

/-- What a round of a loop gets from outside. -/
structure Input where
  /-- The stack behind `Buffer`, and `time(NULL)`. -/
  beyond : Bytes := []
  now : Int := 0
  /-- The frame with its detections, where `GetFrame` has one. -/
  frame : Option Frame := none
  /-- The bytes of the frame, where `imencode` has them. -/
  sendbuff : Option Bytes := none

/-- A round of the loop of `NetworkInputThread`: whether there is another. -/
def networkRound (P : Platform) (input : Input) : Prog Bool := do
  let answer : List SslRet × Bytes ← call .sslRead
  let received ← Thread.receive answer.1 answer.2
  match received with
  | .dispatch buffer _ _ =>
      dispatch P ⟨buffer, input.beyond, input.now⟩
      pure true
  | .oversized _ _ => pure true
  | .stopped _ _ _ =>
      update fun s => { s with isConnected := false }
      update fun s => { s with isCameraOn := false }
      update fun s => { s with isLoggedIn := false }
      detroyAuditObj
      pure false

/-- A statement of `EngagementThread`, which loops for ever. -/
def engagementRound : Prog Bool := do
  engagementStatement
  pure true

/-- A round of `HeartBeatThread`; the count is sent in host order. -/
def heartBeatRound : Prog Bool := do
  lock .tcp
  let retval ← Thread.writeDataTcp (header 4 mtHeartbeat ++ [100, 0, 0, 0])
  unlock .tcp
  if retval = -1 then update fun s => { s with isConnected := false }
  else pure ()
  pure true

/-- `TcpSendImageAsJpeg`. -/
def tcpSendImageAsJpeg : Option Bytes → Prog Int
  | none => pure 0
  | some sendbuff => do
      let sent ← Thread.writeDataTcp (header sendbuff.length mtImage)
      if sent ≠ sizeofHeader then pure (-1) else Thread.writeDataTcp sendbuff

/-- What `main` does between the connection and its threads; `OpenCamera`, as
    it is configured, does not fail. -/
def mainStart : Prog Bool := do
  laser false
  fire false
  calibrate false
  servoAngle .panServo
  servoAngle .tiltServo
  pure true

/-- `pthread_create` in `main`. -/
def createThread : Prog Bool := do
  let created : Int ← call .pthreadCreate
  if created ≠ 0 then .exit .pthreadCreate else pure true

/-- The frame of a round of `main`'s loop. -/
def mainFrame (f : Frame) (sendbuff : Option Bytes) : Prog Unit := do
  processTargetEngagements f
  let s ← fetch
  if s.isConnected = true ∧ s.isCameraOn = true then
    lock .tcp
    let _ ← tcpSendImageAsJpeg sendbuff
    unlock .tcp
  else pure ()

/-- The body of `main`'s loop: nothing without a login or without a frame. -/
def mainBody (input : Input) : Prog Unit := do
  let s ← fetch
  match s.isLoggedIn, input.frame with
  | true, some f => mainFrame f input.sendbuff
  | _, _ => pure ()

/-- A round of `main`'s loop: whether there is another. -/
def mainRound (input : Input) : Prog Bool := do
  mainBody input
  let s ← fetch
  pure s.isConnected

/-- The end of `CleanUp`. -/
def switchOff : Prog Bool := do
  laser false
  fire false
  calibrate false
  pure true

/-! ## The process -/

/-- The threads. -/
inductive Tid where
  | main
  | network
  | engagement
  | heartBeat
  deriving DecidableEq, Repr

/-- Who calls `CleanUp`. -/
inductive Cause where
  | mainReturns
  | controlC
  deriving DecidableEq, Repr

/-- Where `main` is. -/
inductive Phase where
  | starting
  | creatingNetwork
  | creatingEngagement
  | looping
  /-- In `CleanUp`, which cancels and joins a thread. -/
  | joining (cause : Cause) (i : Tid)
  /-- In `CleanUp`, which switches the outputs off. -/
  | switchingOff (cause : Cause)
  deriving DecidableEq, Repr

/-- How the process has ended. -/
inductive Ending where
  | cleanedUp (cause : Cause)
  | halted (i : Tid) (x : Halt)
  deriving DecidableEq, Repr

/-- Who holds a mutex, and how many times. -/
abbrev Locks := Mutex → Option (Tid × Nat)

/-- The mutexes are recursive; unlocking one of another thread does
    nothing. -/
def Locks.grant (locks : Locks) (i : Tid) : Call → Option Locks
  | .lock m =>
      match locks m with
      | none => some fun m' => if m' = m then some (i, 1) else locks m'
      | some (j, n) =>
          if j = i then some fun m' => if m' = m then some (i, n + 1) else locks m'
          else none
  | .unlock m =>
      match locks m with
      | none => some locks
      | some (j, n) =>
          -- given up with the last of the locks
          if j = i then
            some fun m' =>
              if m' = m then (if n ≤ 1 then none else some (i, n - 1)) else locks m'
          else some locks
  | _ => some locks

abbrev Threads := Pool Tid Server Call Call.Answer Halt Bool Locks

/-- The process. -/
structure Process where
  pool : Threads
  phase : Phase
  ended : Option Ending

namespace Process

abbrev server (p : Process) : Server := p.pool.shared

/-- Put a thread to work. -/
def run (p : Process) (i : Tid) (prog : Prog Bool) : Process :=
  { p with pool := p.pool.set i (.running prog) }

/-- The next round or phase of a thread whose program has returned. -/
def goOn (P : Platform) (input : Input) (p : Process) : Tid → Bool → Option Process
  | .main, again =>
      match p.phase with
      | .starting => some { p.run .main createThread with phase := .creatingNetwork }
      | .creatingNetwork =>
          some { (p.run .network (do createAuditObj; pure true)).run .main createThread with
            phase := .creatingEngagement }
      | .creatingEngagement =>
          some { (p.run .engagement engagementRound).run .main (mainRound input) with
            phase := .looping }
      | .looping =>
          if again then some (p.run .main (mainRound input))
          else some { p with phase := .joining .mainReturns .network }
      | .joining _ _ => none
      | .switchingOff cause => some { p with ended := some (.cleanedUp cause) }
  | .network, again =>
      if again then some (p.run .network (networkRound P input))
      else some { p with pool := p.pool.set .network .stopped }
  | .engagement, _ =>
      -- blocked in `pthread_cond_wait` until the signal
      if p.server.engagement = .waiting then none
      else some (p.run .engagement engagementRound)
  | .heartBeat, _ => some (p.run .heartBeat heartBeatRound)

/-- `CleanUp` after the join of a thread. -/
def joined (p : Process) (cause : Cause) : Tid → Process
  | .network => { p with phase := .joining cause .engagement }
  | .engagement => { p with phase := .joining cause .heartBeat }
  | .heartBeat | .main => { p.run .main switchOff with phase := .switchingOff cause }

end Process

/-- What can happen to the process. -/
inductive Tick where
  /-- A thread takes a step of its program. -/
  | step (a : Pool.Label Tid Call Call.Answer)
  /-- A thread ends the process. -/
  | halt (i : Tid) (x : Halt)
  /-- A thread goes on to its next round or phase. -/
  | goOn (i : Tid)
  /-- `HeartBeatThread` begins to run. -/
  | heartBeat
  /-- `pthread_cond_wait` returns without a signal. -/
  | spuriousWakeup
  /-- Control-C is pressed. -/
  | controlC
  /-- A thread that `CleanUp` is waiting for acts on its cancellation. -/
  | cancelled (i : Tid)
  /-- `CleanUp` goes on after the join of a thread. -/
  | joined (i : Tid)

/-- A step of the process, while it runs.  `CleanUp` passes over a thread that
    was never created, which is then as good as cancelled. -/
inductive Process.Step (P : Platform) (p : Process) : Tick → Process → Prop where
  | step {a : Pool.Label Tid Call Call.Answer} {pool : Threads}
      (hrun : p.ended = none) (hst : Pool.Step Locks.grant p.pool a pool) :
      Step P p (.step a) { p with pool := pool }
  | halt {i : Tid} {x : Halt} (hrun : p.ended = none)
      (hi : p.pool.threads i = .running (.exit x)) :
      Step P p (.halt i x) { p with ended := some (.halted i x) }
  | goOn {i : Tid} {again : Bool} {q : Process} (input : Input)
      (hrun : p.ended = none) (hi : p.pool.threads i = .running (.ret again))
      (hq : p.goOn P input i again = some q) :
      Step P p (.goOn i) q
  | heartBeat (hrun : p.ended = none) (hcreated : p.server.heartBeatThread = true)
      (hi : p.pool.threads .heartBeat = .notCreated) :
      Step P p .heartBeat (p.run .heartBeat heartBeatRound)
  | spuriousWakeup {again : Bool} (hrun : p.ended = none)
      (hi : p.pool.threads .engagement = .running (.ret again))
      (hwaiting : p.server.engagement = .waiting) :
      Step P p .spuriousWakeup
        { p with pool := { p.pool with
          shared := { p.server with engagement := .laserTrue } } }
  | controlC (hrun : p.ended = none)
      (hjoining : ∀ i, p.phase ≠ .joining .controlC i)
      (hoff : p.phase ≠ .switchingOff .controlC) :
      Step P p .controlC
        { p.run .main (pure true) with phase := .joining .controlC .network }
  | cancelled {cause : Cause} {i : Tid} (hrun : p.ended = none)
      (hphase : p.phase = .joining cause i) :
      Step P p (.cancelled i) { p with pool := p.pool.set i .stopped }
  | joined {cause : Cause} {i : Tid} (hrun : p.ended = none)
      (hphase : p.phase = .joining cause i) (hi : p.pool.threads i = .stopped) :
      Step P p (.joined i) (p.joined cause i)

/-- The process when it has accepted a connection. -/
def accepted (c : Config) : Process where
  pool :=
    { shared := { start c with auditFile := .null }
      locks := fun _ => none
      threads := fun i => if i = .main then .running mainStart else .notCreated }
  phase := .starting
  ended := none

/-- A run of the process. -/
abbrev ProcessRun (P : Platform) (c : Config) :
    List (Process × Tick) → Process → Prop :=
  Run (Process.Step P) (accepted c)

/-! ## Rounds that nobody interrupts -/

/-- A thread reads what `ReadDataTcp` reads, and touches nothing else. -/
theorem post_readDataTcp (length : Nat) (script : List SslRet) (data stream : Bytes)
    (s : Server) :
    Post (Thread.readDataTcp length script data stream) s
      (fun e t => t = s ∧ e = readDataTcp length script data stream) := by
  induction script generalizing data stream with
  | nil =>
      rw [Thread.readDataTcp, readDataTcp]
      by_cases hlt : data.length < length
      · rw [if_pos hlt]
        exact post_never s _
      · rw [if_neg hlt, if_neg hlt, post_pure]
        exact ⟨rfl, rfl⟩
  | cons r script ih =>
      rw [Thread.readDataTcp.eq_def, readDataTcp.eq_def]
      by_cases hlt : data.length < length
      · have hlocked : ∀ {p : Prog ReadEnd} {e : ReadEnd},
            Post p s (fun e' t => t = s ∧ e' = e) →
            Post (do lock .tcp; unlock .tcp; p) s (fun e' t => t = s ∧ e' = e) := by
          rintro p e hp _ _ ⟨_, _, hend⟩
          exact hp _ _ hend
        simp only [hlt, if_true]
        refine hlocked ?_
        cases r with
        | bytes n => exact ih _ _
        | wantRead => exact ih _ _
        | wantWrite => exact ih _ _
        | syscall => exact fun _ _ hend => hend.elim
        | error => exact (post_pure _ s _).mpr ⟨rfl, rfl⟩
      · simp only [hlt, if_false]
        exact (post_pure _ s _).mpr ⟨rfl, rfl⟩

/-- The rounds of the thread are those of its loop. -/
theorem post_receive (script : List SslRet) (stream : Bytes) (s : Server) :
    Post (Thread.receive script stream) s
      (fun r t => t = s ∧ r = receive script stream) := by
  rw [Thread.receive, receive, post_bind]
  refine (post_readDataTcp _ _ _ _ s).mono ?_
  rintro e t ⟨rfl, rfl⟩
  cases readDataTcp sizeofHeader script [] stream with
  | failed stream => exact (post_pure _ t _).mpr ⟨rfl, rfl⟩
  | exited stream => exact (post_pure _ t _).mpr ⟨rfl, rfl⟩
  | waiting stream => exact (post_pure _ t _).mpr ⟨rfl, rfl⟩
  | returned hdr script stream =>
      by_cases hlen : sizeofData < (ntohl hdr).toNat
      · simp only [hlen, if_true]
        exact (post_pure _ t _).mpr ⟨rfl, rfl⟩
      · simp only [hlen, if_false]
        rw [post_bind]
        refine (post_readDataTcp _ _ _ _ t).mono ?_
        rintro e t ⟨rfl, rfl⟩
        cases readDataTcp (ntohl hdr).toNat script [] stream with
        | returned payload script stream => exact (post_pure _ t _).mpr ⟨rfl, rfl⟩
        | failed stream => exact (post_pure _ t _).mpr ⟨rfl, rfl⟩
        | exited stream => exact (post_pure _ t _).mpr ⟨rfl, rfl⟩
        | waiting stream => exact (post_pure _ t _).mpr ⟨rfl, rfl⟩

/-- A round of `NetworkInputThread` that comes to another is the handling of the
    message received, or of none. -/
theorem post_networkRound (P : Platform) (input : Input) (s : Server) :
    Post (networkRound P input) s (fun again t => again = true →
      t = s ∨ ∃ script stream buffer script' stream',
        receive script stream = .dispatch buffer script' stream'
          ∧ Step P s (.message ⟨buffer, input.beyond, input.now⟩) t) := by
  refine (post_bind _ _ s _).mpr ((post_ask _ s _).mpr fun answer => ?_)
  refine (post_bind _ _ s _).mpr ((post_receive answer.1 answer.2 s).mono ?_)
  rintro received t ⟨rfl, rfl⟩
  cases hr : receive answer.1 answer.2 with
  | dispatch buffer script' stream' =>
      refine (post_bind _ _ t _).mpr fun _ t' hd => ?_
      exact (post_pure true t' _).mpr fun _ => Or.inr ⟨_, _, _, _, _, hr, hd⟩
  | oversized script' stream' =>
      exact (post_pure true t _).mpr fun _ => Or.inl rfl
  | stopped headerRead why stream' =>
      -- the loop is left
      have hlast : Returns (· = false) (do
          update fun s => { s with isConnected := false }
          update fun s => { s with isCameraOn := false }
          update fun s => { s with isLoggedIn := false }
          detroyAuditObj
          pure false : Prog Bool) :=
        Returns.bind fun _ => Returns.bind fun _ => Returns.bind fun _ =>
          Returns.bind fun _ => Returns.pure rfl
      refine (hlast t).mono fun again _ hfalse htrue => ?_
      cases hfalse.symm.trans htrue

/-- A round of `EngagementThread` is one of its statements. -/
theorem post_engagementRound (P : Platform) (s : Server) :
    Post engagementRound s (fun _ t => Step P s .statement t) := by
  refine (post_bind _ _ s _).mpr fun _ t hst => ?_
  exact (post_pure true t _).mpr hst

/-- The image leaves the server alone. -/
theorem keeps_tcpSendImageAsJpeg {γ : Type} {π : Server → γ} (sendbuff : Option Bytes) :
    Keeps π (tcpSendImageAsJpeg sendbuff) := by
  cases sendbuff with
  | none => exact Acts.pure _
  | some sendbuff =>
      exact (keeps_writeDataTcp _).keeps_bind fun _ =>
        (Acts.pure _).ite (keeps_writeDataTcp _)

theorem post_mainFrame (P : Platform) (f : Frame) (sendbuff : Option Bytes)
    (s : Server) : Post (mainFrame f sendbuff) s (fun _ t => Step P s (.frame f) t) := by
  have hsend : Keeps id (do
      let s ← fetch
      if s.isConnected = true ∧ s.isCameraOn = true then
        lock .tcp
        let _ ← tcpSendImageAsJpeg sendbuff
        unlock .tcp
      else pure () : Prog Unit) :=
    Acts.read fun _ => ((keeps_lock .tcp).keeps_bind fun _ =>
      (keeps_tcpSendImageAsJpeg sendbuff).keeps_bind fun _ =>
        keeps_unlock .tcp).ite (Acts.pure ())
  refine (post_bind _ _ s _).mpr fun _ m hm => (hsend m).mono fun _ t ht => ?_
  rw [show t = m from ht]
  exact hm

/-- A round of `main` is the handling of its frame, if it has one. -/
theorem post_mainRound (P : Platform) (input : Input) (s : Server) :
    Post (mainRound input) s (fun _ t =>
      t = s ∨ ∃ f, input.frame = some f ∧ Step P s (.frame f) t) := by
  have hbody : Post (mainBody input) s (fun _ t =>
      t = s ∨ ∃ f, input.frame = some f ∧ Step P s (.frame f) t) := by
    refine (post_bind _ _ s _).mpr ((post_fetch s _).mpr ?_)
    cases s.isLoggedIn with
    | false => exact (post_pure () s _).mpr (Or.inl rfl)
    | true =>
        cases hf : input.frame with
        | none => exact (post_pure () s _).mpr (Or.inl rfl)
        | some f =>
            exact (post_mainFrame P f _ s).mono fun _ t ht => Or.inr ⟨f, rfl, ht⟩
  refine (post_bind _ _ s _).mpr (hbody.mono fun _ t ht => ?_)
  exact (post_bind _ _ t _).mpr ((post_fetch t _).mpr ((post_pure _ t _).mpr ht))

section Alone

variable {P : Platform} {p q : Process} {h : List (Process × Tick)}

/-- No thread but `i` moves. -/
def Alone (i : Tid) (h : List (Process × Tick)) : Prop :=
  ∀ x ∈ h, ∃ a, x.2 = .step a ∧ a.thread = i

/-- While a thread is alone the process does nothing but run it. -/
theorem Alone.run {i : Tid} (halone : Alone i h) (hr : Run (Process.Step P) p h q) :
    ∃ h', Run (Pool.Step Locks.grant) p.pool h' q.pool ∧ ∀ x ∈ h', x.2.thread = i := by
  induction hr with
  | start => exact ⟨[], .start, List.forall_mem_nil _⟩
  | @snoc h s t a _ hst ih =>
      obtain ⟨h', hr', hall⟩ := ih fun x hx => halone x (List.mem_cons_of_mem _ hx)
      obtain ⟨a', rfl, ha'⟩ := halone (s, a) (List.mem_cons_self ..)
      cases hst with
      | step _ hst =>
          refine ⟨_, hr'.snoc hst, ?_⟩
          intro x hx
          rcases List.mem_cons.mp hx with rfl | hx
          · exact ha'
          · exact hall x hx

/-- **Uninterrupted rounds of the threads are steps of the server.** -/
theorem Alone.post {i : Tid} {prog : Prog Bool} {b : Bool} {Q : Bool → Server → Prop}
    (halone : Alone i h) (hr : Run (Process.Step P) p h q)
    (hp : p.pool.threads i = .running prog) (hq : q.pool.threads i = .running (.ret b))
    (hprog : Post prog p.server Q) : Q b q.server := by
  obtain ⟨h', hr', hall⟩ := halone.run hr
  exact hprog b q.server (Pool.ends_of_alone hp hq hr' hall)

end Alone

/-! ## Schedules

    Runs of the process by turns: each thread in turn runs a whole round. -/

namespace Process

variable {P : Platform} {p₀ p q : Process} {h : List (Process × Tick)}

/-- A step of a thread with a fixed environment. -/
def next (P : Platform) (env : (c : Call) → Option c.Answer) (input : Input) (i : Tid)
    (p : Process) : Option Process :=
  match p.ended, p.pool.threads i with
  | some _, _ => none
  | none, .running (.ret again) => p.goOn P input i again
  | none, .running (.exit x) => some { p with ended := some (.halted i x) }
  | none, _ => (p.pool.next Locks.grant env i).map fun pool => { p with pool := pool }

/-- What that step is. -/
def nextTick (env : (c : Call) → Option c.Answer) (i : Tid) (p : Process) : Tick :=
  match p.pool.threads i with
  | .running (.exit x) => .halt i x
  | _ =>
      match p.pool.nextLabel env i with
      | some l => .step l
      | none => .goOn i

theorem step_of_next {env : (c : Call) → Option c.Answer} {input : Input} {i : Tid}
    (h : p.next P env input i = some q) :
    (∀ l, p.nextTick env i = .step l → l.thread = i) ∧ Step P p (p.nextTick env i) q := by
  rw [next] at h
  split at h
  · cases h
  · rename_i again hrun hi
    have htick : p.nextTick env i = .goOn i := by
      simp only [nextTick, Pool.nextLabel, hi]
    rw [htick]
    exact ⟨by rintro l ⟨⟩, .goOn input hrun hi h⟩
  · rename_i x hrun hi
    cases h
    have htick : p.nextTick env i = .halt i x := by
      simp only [nextTick, hi]
    rw [htick]
    exact ⟨by rintro l ⟨⟩, .halt hrun hi⟩
  · rename_i hrun _ hexit
    obtain ⟨pool, hpool, rfl⟩ := Option.map_eq_some_iff.mp h
    obtain ⟨l, hlabel, hl, hst⟩ := Pool.step_of_next hpool
    have htick : p.nextTick env i = .step l := by
      rw [nextTick]
      split
      · rename_i x hi
        exact absurd hi (hexit x)
      · rw [hlabel]
    rw [htick]
    refine ⟨?_, .step hrun hst⟩
    rintro _ ⟨⟩
    exact hl

/-- At most `fuel` steps of a thread, to the end of its round. -/
def round (P : Platform) (env : (c : Call) → Option c.Answer) (input : Input)
    (i : Tid) : Nat → Process → Process
  | 0, p => p
  | fuel + 1, p =>
      match p.pool.threads i, p.next P env input i with
      | .running (.ret _), _ => p
      | _, none => p
      | _, some q => round P env input i fuel q

/-- What a schedule asks for. -/
inductive Order where
  /-- A thread runs its next round. -/
  | turn (i : Tid) (env : (c : Call) → Option c.Answer) (input : Input)
  | controlC
  /-- `CleanUp` cancels and joins the thread it has come to. -/
  | cleanUp

/-- The process after an order, or as it was where the order is not possible. -/
def obey (P : Platform) (p : Process) : Order → Process
  | .turn i env input =>
      match p.next P env input i with
      | none => p
      | some q => round P env input i 1000 q
  | .controlC =>
      match p.ended, p.phase with
      | none, .looping =>
          { p.run .main (pure true) with phase := .joining .controlC .network }
      | _, _ => p
  | .cleanUp =>
      match p.ended, p.phase with
      | none, .joining cause i =>
          { p with pool := p.pool.set i .stopped }.joined cause i
      | _, _ => p

theorem run_round {env : (c : Call) → Option c.Answer} {input : Input} {i : Tid}
    (fuel : Nat) (hr : Run (Step P) p₀ h p) :
    ∃ h', Run (Step P) p₀ h' (round P env input i fuel p) := by
  induction fuel generalizing p h with
  | zero => exact ⟨h, hr⟩
  | succ fuel ih =>
      rw [round]
      split
      · exact ⟨h, hr⟩
      · exact ⟨h, hr⟩
      · rename_i hq _
        have ha := (step_of_next hq).2
        exact ih (hr.snoc ha)

theorem run_obey (o : Order) (hr : Run (Step P) p₀ h p) :
    ∃ h', Run (Step P) p₀ h' (p.obey P o) := by
  cases o with
  | turn i env input =>
      rw [obey]
      split
      · exact ⟨h, hr⟩
      · rename_i hq
        have ha := (step_of_next hq).2
        exact run_round 1000 (hr.snoc ha)
  | controlC =>
      rw [obey]
      split
      · rename_i hrun hphase
        refine ⟨_, hr.snoc (.controlC hrun (fun i => ?_) ?_)⟩
        · rw [hphase]
          rintro ⟨⟩
        · rw [hphase]
          rintro ⟨⟩
      · exact ⟨h, hr⟩
  | cleanUp =>
      rw [obey]
      split
      · rename_i cause i hrun hphase
        have hcancelled := hr.snoc (.cancelled hrun hphase)
        exact ⟨_, hcancelled.snoc (.joined hrun hphase (Pool.set_threads_self ..))⟩
      · exact ⟨h, hr⟩

/-- A part of a round of a thread: at most `fuel` steps after the first. -/
structure Turn where
  thread : Tid
  env : (c : Call) → Option c.Answer
  input : Input := {}
  fuel : Nat

/-- The process after a part of a round. -/
def take (P : Platform) (p : Process) (t : Turn) : Process :=
  match p.next P t.env t.input t.thread with
  | none => p
  | some q => round P t.env t.input t.thread t.fuel q

/-- **Rounds that are taken in turns are a run.** -/
theorem exists_run_of_turns (turns : List Turn) (hr : Run (Step P) p₀ h p) :
    ∃ h', Run (Step P) p₀ h' (turns.foldl (take P) p) := by
  induction turns generalizing p h with
  | nil => exact ⟨h, hr⟩
  | cons t rest ih =>
      have hturn : ∃ h', Run (Step P) p₀ h' (p.take P t) := by
        rw [take]
        split
        · exact ⟨h, hr⟩
        · rename_i hq
          have ha := (step_of_next hq).2
          exact run_round t.fuel (hr.snoc ha)
      obtain ⟨h', hr'⟩ := hturn
      exact ih hr'

/-- **Every schedule is a run.** -/
theorem exists_run_of_orders (orders : List Order) (hr : Run (Step P) p₀ h p) :
    ∃ h', Run (Step P) p₀ h' (orders.foldl (obey P) p) := by
  induction orders generalizing p h with
  | nil => exact ⟨h, hr⟩
  | cons o rest ih =>
      obtain ⟨h', hr'⟩ := run_obey o hr
      exact ih hr'

end Process

end DemoCannon
