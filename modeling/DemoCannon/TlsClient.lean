import DemoCannon.Lib.Ledger
import DemoCannon.Lib.Program
import DemoCannon.Lib.Run
import DemoCannon.Login

/-! # The connection of the client, and what it has to give back

    `Client.cpp` keeps what it has acquired from OpenSSL and Windows in static variables:
    the window's thread connects and starts `ThreadClient`, which gives the connection and
    its events back when it ends, and the window waits for that when it disconnects.

    Nothing leaks as long as `ThreadClient` gets its events (`nothing_leaks`), and the
    window waits only for a thread that has been told to end, unless it disconnects before
    that thread has its events (`waits_for_ending_iff`).  Even so it may wait for good, for a
    thread that prints to it; and a connection that is lost while no thread has been started
    is kept.  In both cases the client never connects again (`starts_again_iff`). -/

namespace DemoCannon

open Interaction Interaction.Program

/-! ## The client -/

/-- Where `Client.cpp` keeps what it has to give back: its static variables, `InputBuffer`
    of `ThreadClient` and `ipAddr` of `_TlsConnectToServer`. -/
inductive TlsSlot where
  | clientCtx
  | clientSsl
  | client
  | hClientEvent
  | hEndClientEvent
  | hThreadClient
  | inputBuffer
  | ipAddr
  deriving DecidableEq, Repr

/-- Where `ThreadClient` is: not created, not yet in its loop, in it, and over. -/
inductive ClientPhase where
  | absent
  | starting
  | running
  | ended
  deriving DecidableEq, Repr

/-- Where `ThreadClient` is in its loop: in `WaitForMultipleObjects`, behind it, or in a
    `SendMessage` of `PRINT` to a control of the window. -/
inductive LoopPlace where
  | waiting
  | reading
  | printing
  deriving DecidableEq, Repr

structure TlsClient where
  handles : Ledger TlsSlot := {}
  phase : ClientPhase := .absent
  place : LoopPlace := .waiting
  /-- `hEndClientEvent` is set. -/
  endEvent : Bool := false
  /-- The window is in `WaitForSingleObject` of `StopClient`. -/
  stopping : Bool := false
  /-- The connection of `ClientSsl` is closed, on the other side or on this. -/
  lost : Bool := false

/-- The calls that the functions branch on. -/
inductive TlsCall where
  | sslCtxNew
  | loadVerifyLocations
  /-- What is returned, and whether `ipAddr` has been set. -/
  | getaddrinfo
  | socket
  | connect
  | sslNew
  | sslConnect
  /-- `LoginToServer` on a connection that is there. -/
  | login
  | realloc
  | wsaEventSelect

abbrev TlsCall.Answer : TlsCall → Type
  | .sslCtxNew | .socket | .sslNew | .realloc => Bool
  | .loadVerifyLocations | .connect | .sslConnect | .wsaEventSelect => Int
  | .getaddrinfo => Int × Bool
  | .login => BitVec 32

/-- How the client can end in the middle. -/
inductive TlsHalt where
  /-- `ExitProcess(0)`. -/
  | exitProcess
  /-- OpenSSL is given a null pointer. -/
  | nullPointer

abbrev TlsProg := Program TlsClient TlsCall TlsCall.Answer TlsHalt

/-- `SOCKET_ERROR`. -/
def socketError : Int := -1

namespace TlsClient

def acquire (k : TlsSlot) : TlsProg Unit :=
  update fun s => { s with handles := s.handles.acquire k }

def release (k : TlsSlot) : TlsProg Unit :=
  update fun s => { s with handles := s.handles.release k }

/-- The variable is set by a call that may fail. -/
def assign (k : TlsSlot) (made : Bool) : TlsProg Unit :=
  update fun s => { s with handles := s.handles.assign k made }

/-- `HasTlsConnection`. -/
def hasTlsConnection (s : TlsClient) : Bool := (s.handles.slot .clientSsl).isSome

/-- `IsClientConnected`. -/
def isClientConnected (s : TlsClient) : Bool := (s.handles.slot .hThreadClient).isSome

/-- `CleanupOpenssl`. -/
def cleanupOpenssl : TlsProg Unit := do
  release .clientSsl
  release .clientCtx
  release .client

/-- `CreateClientContext`. -/
def createClientContext : TlsProg Bool := do
  let made : Bool ← ask TlsCall.sslCtxNew
  assign .clientCtx made
  pure made

/-- `ConfigureClientContext`. -/
def configureClientContext : TlsProg Bool := do
  let loaded : Int ← ask TlsCall.loadVerifyLocations
  pure (0 < loaded)

/-- `_TlsConnectToServer` from `SSL_new` on. -/
def connectSsl : TlsProg Bool := do
  let made : Bool ← ask TlsCall.sslNew
  assign .clientSsl made
  if made then
    let connected : Int ← ask TlsCall.sslConnect
    if connected ≤ 0 then
      release .clientSsl
      release .client
      pure false
    else
      update fun s => { s with lost := false }
      pure true
  else .exit .nullPointer

/-- `_TlsConnectToServer` from `socket` on, with the address in `ipAddr`. -/
def connectSocket : TlsProg Bool := do
  let made : Bool ← ask TlsCall.socket
  assign .client made
  if made then
    let iResult : Int ← ask TlsCall.connect
    release .ipAddr
    if iResult = socketError then
      release .client
      pure false
    else connectSsl
  else
    release .ipAddr
    pure false

/-- `_TlsConnectToServer`.  An address that cannot be found sets no `ipAddr`. -/
def resolveAndConnect : TlsProg Bool := do
  let result : Int × Bool ← ask TlsCall.getaddrinfo
  if result.1 = 0 ∧ result.2 then
    acquire .ipAddr
    connectSocket
  else pure false

/-- What went wrong stays so. -/
def ifOk (ok : Bool) (p : TlsProg Bool) : TlsProg Bool := if ok then p else pure false

/-- `TlsConnectToServer`. -/
def tlsConnectToServer : TlsProg Bool := do
  let created ← createClientContext
  let configured ← ifOk created configureClientContext
  let connected ← ifOk configured resolveAndConnect
  if connected then pure true
  else
    cleanupOpenssl
    pure false

/-- `ConnectToServer`. -/
def connectToServer : TlsProg Bool := do
  let s ← fetch
  if s.hasTlsConnection then pure true else tlsConnectToServer

/-- What `LoginToServer` returns.  Nothing is answered on a connection that is closed. -/
def login : TlsProg (BitVec 32) := do
  let s ← fetch
  if s.lost then pure LoginState.loginFail.word else ask TlsCall.login

/-- `StartClient`. -/
def startClient : TlsProg Unit := do
  acquire .hThreadClient
  update fun s => { s with phase := .starting }

/-- `OnConnect`. -/
def onConnect : TlsProg Unit := do
  let s ← fetch
  if s.isClientConnected then pure ()
  else
    let connected ← connectToServer
    if connected then
      let state ← login
      if state = LoginState.loginOk.word then startClient else pure ()
    else pure ()

/-- `ThreadClient` up to its loop: whether it gets there.  When it does not, what
    `InputBuffer` points to is lost with it. -/
def threadStart : TlsProg Bool := do
  let allocated : Bool ← ask TlsCall.realloc
  if allocated then
    acquire .inputBuffer
    acquire .hClientEvent
    acquire .hEndClientEvent
    update fun s => { s with endEvent := false }
    let selected : Int ← ask TlsCall.wsaEventSelect
    if selected = socketError then
      release .client
      update fun s => { s with
        handles := s.handles.forget .inputBuffer
        phase := .ended
        lost := true }
      pure false
    else
      update fun s => { s with phase := .running, place := .waiting }
      pure true
  else .exit .exitProcess

/-- `ThreadClient` behind its loop, with `ClientCleanup`. -/
def threadEnd : TlsProg Unit := do
  release .inputBuffer
  cleanupOpenssl
  release .hClientEvent
  release .hEndClientEvent
  update fun s => { s with phase := .ended }

/-- `ClientSetExitEvent`. -/
def clientSetExitEvent : TlsProg Unit := do
  let s ← fetch
  if (s.handles.slot .hEndClientEvent).isSome then update fun s => { s with endEvent := true }
  else pure ()

/-- `OnDisconnect` up to the wait in `StopClient`. -/
def onDisconnect : TlsProg Unit := do
  let s ← fetch
  if s.isClientConnected then
    clientSetExitEvent
    update fun s => { s with stopping := true }
  else pure ()

/-- `StopClient` behind its wait. -/
def stopped : TlsProg Unit := do
  release .hThreadClient
  update fun s => { s with phase := .absent, stopping := false }

/-! ## Runs -/

/-- What happens. -/
inductive Act where
  | connect
  /-- `ThreadClient` comes to its loop, or `WSAEventSelect` fails. -/
  | start (selected : Bool)
  /-- `WaitForMultipleObjects` returns for the connection. -/
  | wake
  /-- A text has come, and `ProcessMessage` is in `PRINT`. -/
  | text
  /-- The window's thread has answered `PRINT`. -/
  | printed
  /-- Anything else has come, or nothing whole. -/
  | handled
  /-- The loop is left: at the end event, at a closed connection, or at a message of no
      bytes. -/
  | finish
  | disconnect
  /-- The wait of `StopClient` is over. -/
  | stopped
  /-- The server closes the connection. -/
  | lose
  deriving DecidableEq, Repr

/-- One function of the window's thread, a part of `ThreadClient`, or the server. -/
inductive Step (s : TlsClient) : Act → TlsClient → Prop where
  | connect {t : TlsClient} : s.stopping = false → Ends onConnect s () t → Step s .connect t
  | start {t : TlsClient} {selected : Bool} : s.phase = .starting →
      Ends threadStart s selected t → Step s (.start selected) t
  /-- The end event comes first. -/
  | wake : s.phase = .running → s.place = .waiting → s.endEvent = false →
      Step s .wake { s with place := .reading }
  | text : s.phase = .running → s.place = .reading → Step s .text { s with place := .printing }
  /-- In `WaitForSingleObject` the window's thread answers nothing. -/
  | printed : s.phase = .running → s.place = .printing → s.stopping = false →
      Step s .printed { s with place := .reading }
  | handled : s.phase = .running → s.place = .reading →
      Step s .handled { s with place := .waiting }
  | finish {t : TlsClient} : s.phase = .running →
      s.place = .waiting ∧ s.endEvent = true ∨ s.place = .reading →
      Ends threadEnd s () t → Step s .finish t
  | disconnect {t : TlsClient} : s.stopping = false → Ends onDisconnect s () t →
      Step s .disconnect t
  | stopped {t : TlsClient} : s.stopping = true → s.phase = .ended → Ends stopped s () t →
      Step s .stopped t
  | lose : Step s .lose { s with lost := true }

/-- The server closes a connection that nobody reads from. -/
def LosesUnread (s : TlsClient) (a : Act) : Prop :=
  a = .lose ∧ s.phase = .absent ∧ s.hasTlsConnection = true

instance (s : TlsClient) (a : Act) : Decidable (s.LosesUnread a) :=
  inferInstanceAs (Decidable (_ ∧ _ ∧ _))

/-- The window disconnects while `ThreadClient` prints, or a text comes when it has. -/
def PrintsToWaiting (s : TlsClient) (a : Act) : Prop :=
  a = .disconnect ∧ s.phase = .running ∧ s.place = .printing ∨ a = .text ∧ s.stopping = true

instance (s : TlsClient) (a : Act) : Decidable (s.PrintsToWaiting a) :=
  inferInstanceAs (Decidable (_ ∧ _ ∧ _ ∨ _ ∧ _))

/-- A run of the client from its start. -/
abbrev ClientRun := Run Step {}

/-! ## What is in use -/

/-- The slots in use, in a phase of `ThreadClient`, with a connection or without. -/
def inUse (phase : ClientPhase) (connected : Bool) : TlsSlot → Bool
  | .clientCtx | .clientSsl | .client => connected
  | .hClientEvent | .hEndClientEvent | .inputBuffer => phase = .running
  | .hThreadClient => phase ≠ .absent
  | .ipAddr => false

/-- Before `_TlsConnectToServer` the context is there, and in it the socket and the address
    for some time. -/
def connecting (socket address : Bool) : TlsSlot → Bool
  | .clientCtx => true
  | .client => socket
  | .ipAddr => address
  | _ => false

/-- Only handles are taken and given back, and a connection is new. -/
def Connects (s t : TlsClient) : Prop := t = { s with handles := t.handles, lost := t.lost }

section Connect

variable {s : TlsClient}

theorem post_connectSsl (h : s.handles.Uses (connecting true false)) :
    Post connectSsl s fun connected t => s.Connects t ∧ (connected = true → t.lost = false)
      ∧ t.handles.Uses (if connected then inUse .absent true else connecting false false) := by
  rw [connectSsl, post_bind, post_ask]
  intro made
  rw [post_bind, assign, post_update]
  cases made with
  | false => exact (post_exit ..).mpr trivial
  | true =>
      rw [if_pos rfl, post_bind, post_ask]
      intro (connected : Int)
      have hmade := h.assign (k := .clientSsl) rfl true
      by_cases hfailed : connected ≤ 0
      · rw [if_pos hfailed, post_bind, release, post_update, post_bind, release, post_update,
          post_pure]
        refine ⟨rfl, nofun, ((hmade.release .clientSsl).release .client).congr ?_⟩
        rintro ⟨⟩ <;> rfl
      · rw [if_neg hfailed, post_bind, post_update, post_pure]
        refine ⟨rfl, fun _ => rfl, hmade.congr ?_⟩
        rintro ⟨⟩ <;> rfl

theorem post_connectSocket (h : s.handles.Uses (connecting false true)) :
    Post connectSocket s fun connected t => s.Connects t ∧ (connected = true → t.lost = false)
      ∧ t.handles.Uses (if connected then inUse .absent true else connecting false false) := by
  rw [connectSocket, post_bind, post_ask]
  intro made
  rw [post_bind, assign, post_update]
  have hmade := h.assign (k := .client) rfl made
  cases made with
  | false =>
      rw [if_neg Bool.false_ne_true, post_bind, release, post_update, post_pure]
      refine ⟨rfl, nofun, (hmade.release .ipAddr).congr ?_⟩
      rintro ⟨⟩ <;> rfl
  | true =>
      rw [if_pos rfl, post_bind, post_ask]
      intro (iResult : Int)
      rw [post_bind, release, post_update]
      have hfreed := hmade.release .ipAddr
      by_cases hfailed : iResult = socketError
      · rw [if_pos hfailed, post_bind, release, post_update, post_pure]
        refine ⟨rfl, nofun, (hfreed.release .client).congr ?_⟩
        rintro ⟨⟩ <;> rfl
      · rw [if_neg hfailed]
        refine (post_connectSsl (hfreed.congr (by rintro ⟨⟩ <;> rfl))).mono ?_
        rintro connected t ⟨hconnects, hlost, huses⟩
        exact ⟨hconnects, hlost, huses⟩

theorem post_resolveAndConnect (h : s.handles.Uses (connecting false false)) :
    Post resolveAndConnect s fun connected t => s.Connects t ∧ (connected = true → t.lost = false)
      ∧ t.handles.Uses (if connected then inUse .absent true else connecting false false) := by
  rw [resolveAndConnect, post_bind, post_ask]
  intro (result : Int × Bool)
  by_cases hfound : result.1 = 0 ∧ result.2
  · rw [if_pos hfound, post_bind, acquire, post_update]
    refine (post_connectSocket ((h.acquire (k := .ipAddr) rfl).congr ?_)).mono ?_
    · rintro ⟨⟩ <;> rfl
    · rintro connected t ⟨hconnects, hlost, huses⟩
      exact ⟨hconnects, hlost, huses⟩
  · rw [if_neg hfound, post_pure]
    exact ⟨rfl, nofun, h⟩

/-- What `CleanupOpenssl` makes of the slots in use. -/
def cleaned (f : TlsSlot → Bool) : TlsSlot → Bool
  | .clientCtx | .clientSsl | .client => false
  | k => f k

theorem post_cleanupOpenssl {f : TlsSlot → Bool} (h : s.handles.Uses f) :
    Post cleanupOpenssl s fun _ t =>
      t = { s with handles := t.handles } ∧ t.handles.Uses (cleaned f) := by
  rw [cleanupOpenssl, post_bind, release, post_update, post_bind, release, post_update, release,
    post_update]
  refine ⟨rfl, (((h.release .clientSsl).release .clientCtx).release .client).congr ?_⟩
  rintro ⟨⟩ <;> rfl

theorem post_tlsConnectToServer (h : s.handles.Uses (inUse .absent false)) :
    Post tlsConnectToServer s fun connected t => s.Connects t ∧ (connected = true → t.lost = false)
      ∧ t.handles.Uses (inUse .absent connected) := by
  -- `err`
  have hclean : ∀ (t : TlsClient) (f : TlsSlot → Bool), s.Connects t → t.handles.Uses f →
      (∀ k, cleaned f k = inUse .absent false k) →
      Post (cleanupOpenssl >>= fun _ => pure false) t fun connected t => s.Connects t
        ∧ (connected = true → t.lost = false) ∧ t.handles.Uses (inUse .absent connected) := by
    intro t f hconnects huses hf
    refine (post_bind ..).mpr ((post_cleanupOpenssl huses).mono ?_)
    rintro _ u ⟨hu, huses⟩
    rw [post_pure]
    refine ⟨?_, nofun, huses.congr hf⟩
    rw [Connects, hu, hconnects]
  rw [tlsConnectToServer, post_bind, createClientContext, post_bind, post_ask]
  intro made
  rw [post_bind, assign, post_update, post_pure, post_bind]
  have hmade := h.assign (k := .clientCtx) rfl made
  cases made with
  | false =>
      rw [ifOk, if_neg Bool.false_ne_true, post_pure, post_bind, ifOk, if_neg Bool.false_ne_true,
        post_pure, if_neg Bool.false_ne_true]
      refine hclean _ _ rfl hmade ?_
      rintro ⟨⟩ <;> rfl
  | true =>
      rw [ifOk, if_pos rfl, configureClientContext, post_bind, post_ask]
      intro (loaded : Int)
      rw [post_pure, post_bind, ifOk]
      by_cases hloaded : 0 < loaded
      · rw [if_pos (decide_eq_true hloaded)]
        refine (post_resolveAndConnect (hmade.congr ?_)).mono ?_
        · rintro ⟨⟩ <;> rfl
        · rintro connected t ⟨hconnects, hlost, huses⟩
          cases connected with
          | true =>
              rw [if_pos rfl, post_pure]
              exact ⟨hconnects, hlost, huses⟩
          | false =>
              rw [if_neg Bool.false_ne_true]
              refine hclean t _ hconnects huses ?_
              rintro ⟨⟩ <;> rfl
      · rw [if_neg (by simpa using hloaded), post_pure, if_neg Bool.false_ne_true]
        refine hclean _ _ rfl hmade ?_
        rintro ⟨⟩ <;> rfl

end Connect

/-! ## In order -/

/-- What is in use is what the phase says, and a connection is there for a thread that reads
    from it. -/
structure Tidy (s : TlsClient) : Prop where
  uses : s.handles.Uses (inUse s.phase s.hasTlsConnection)
  connected : s.phase = .starting ∨ s.phase = .running → s.hasTlsConnection = true
  ended : s.phase = .ended → s.hasTlsConnection = false
  stopping : s.stopping = true → s.phase ≠ .absent

/-- A connection that nobody reads from yet is open. -/
def Usable (s : TlsClient) : Prop :=
  s.phase = .absent → s.hasTlsConnection = true → s.lost = false

/-- The window waits for a thread that waits for the window. -/
def Blocked (s : TlsClient) : Prop :=
  s.phase = .running ∧ s.place = .printing ∧ s.stopping = true

/-- There is a connection, it is closed, and no thread will find out. -/
structure Stuck (s : TlsClient) : Prop where
  connected : s.hasTlsConnection = true
  lost : s.lost = true
  phase : s.phase = .absent ∨ s.phase = .ended
  thread : s.isClientConnected = decide (s.phase ≠ .absent)

section Steps

variable {s t : TlsClient}

theorem tidy_start : Tidy {} :=
  ⟨Ledger.uses_empty.congr (by rintro ⟨⟩ <;> rfl), nofun, nofun, nofun⟩

theorem tidy_of_uses {c : Bool} (h : t.handles.Uses (inUse t.phase c))
    (hconnected : t.phase = .starting ∨ t.phase = .running → c = true)
    (hover : t.phase = .ended → c = false) (hstopping : t.stopping = true → t.phase ≠ .absent) :
    t.Tidy := by
  have hhas : t.hasTlsConnection = c := h.isSome .clientSsl
  refine ⟨?_, ?_, ?_, hstopping⟩
  · rwa [hhas]
  · rwa [hhas]
  · rwa [hhas]

theorem Tidy.isClientConnected (h : s.Tidy) : s.isClientConnected = decide (s.phase ≠ .absent) :=
  h.uses.isSome .hThreadClient

theorem post_login (s : TlsClient) : Post login s fun state t => t = s
    ∧ (s.lost = true → state = LoginState.loginFail.word) := by
  rw [login, post_bind, post_fetch]
  by_cases hlost : s.lost
  · rw [if_pos hlost, post_pure]
    exact ⟨rfl, fun _ => rfl⟩
  · rw [if_neg hlost, post_ask]
    exact fun _ => ⟨rfl, fun h => absurd h hlost⟩

theorem Tidy.post_connectToServer (h : s.Tidy) (hphase : s.phase = .absent) :
    Post connectToServer s fun connected t => s.Connects t
      ∧ (s.Usable → connected = true → t.lost = false)
      ∧ t.handles.Uses (inUse .absent connected) := by
  rw [connectToServer, post_bind, post_fetch]
  have huses := h.uses
  rw [hphase] at huses
  by_cases hhas : s.hasTlsConnection
  · rw [if_pos hhas, post_pure]
    rw [hhas] at huses
    exact ⟨rfl, fun husable _ => husable hphase hhas, huses⟩
  · rw [if_neg hhas]
    rw [Bool.eq_false_iff.mpr hhas] at huses
    exact (post_tlsConnectToServer huses).mono fun _ _ ht => ⟨ht.1, fun _ => ht.2.1, ht.2.2⟩

/-- `OnConnect` keeps order. -/
theorem Tidy.post_onConnect (h : s.Tidy) (hstopping : s.stopping = false) :
    Post onConnect s fun _ t => t.Tidy ∧ t.stopping = false ∧ (s.Usable → t.Usable) := by
  rw [onConnect, post_bind, post_fetch]
  by_cases hthread : s.isClientConnected
  · rw [if_pos hthread, post_pure]
    exact ⟨h, hstopping, id⟩
  · have hphase : s.phase = .absent := by
      rw [h.isClientConnected] at hthread
      simpa using hthread
    rw [if_neg hthread, post_bind]
    refine (h.post_connectToServer hphase).mono ?_
    rintro connected t ⟨hconnects, hlost, huses⟩
    have htphase : t.phase = .absent := by rw [hconnects, hphase]
    have htstopping : t.stopping = false := by rw [hconnects, hstopping]
    have htidy : t.Tidy := by
      refine tidy_of_uses (c := connected) (by rwa [htphase]) ?_ ?_ ?_
      · rw [htphase]
        rintro (hp | hp) <;> cases hp
      · rw [htphase]
        nofun
      · rw [htstopping]
        nofun
    have hhas : t.hasTlsConnection = connected := huses.isSome .clientSsl
    have husable : s.Usable → t.Usable := fun hs _ ht => hlost hs (hhas.symm.trans ht)
    cases connected with
    | false =>
        rw [if_neg Bool.false_ne_true, post_pure]
        exact ⟨htidy, htstopping, husable⟩
    | true =>
        rw [if_pos rfl, post_bind]
        refine (post_login t).mono ?_
        rintro state _ ⟨rfl, -⟩
        by_cases hok : state = LoginState.loginOk.word
        · rw [if_pos hok, startClient, post_bind, acquire, post_update, post_update]
          refine ⟨tidy_of_uses (c := true) ?_ (fun _ => rfl) nofun ?_, htstopping, nofun⟩
          · refine (huses.acquire (k := .hThreadClient) rfl).congr ?_
            rintro ⟨⟩ <;> rfl
          · exact fun _ => ClientPhase.noConfusion
        · rw [if_neg hok, post_pure]
          exact ⟨htidy, htstopping, husable⟩

/-- `ThreadClient` comes to its loop in order, or leaves a buffer and a closed connection. -/
theorem Tidy.post_threadStart (h : s.Tidy) (hphase : s.phase = .starting) :
    Post threadStart s fun selected t => t.stopping = s.stopping
      ∧ if selected then t.Tidy ∧ t.phase = .running ∧ t.place = .waiting
        else t.Stuck ∧ t.phase = .ended ∧ ¬ t.handles.Accounted := by
  have huses := h.uses
  rw [hphase, h.connected (Or.inl hphase)] at huses
  rw [threadStart, post_bind, post_ask]
  intro allocated
  cases allocated with
  | false => exact (post_exit ..).mpr trivial
  | true =>
      rw [if_pos rfl, post_bind, acquire, post_update, post_bind, acquire, post_update, post_bind,
        acquire, post_update, post_bind, post_update, post_bind, post_ask]
      intro (selected : Int)
      have hheld := ((huses.acquire (k := .inputBuffer) rfl).acquire (k := .hClientEvent)
        rfl).acquire (k := .hEndClientEvent) rfl
      by_cases hfailed : selected = socketError
      · rw [if_pos hfailed, post_bind, release, post_update, post_bind, post_update, post_pure,
          if_neg Bool.false_ne_true]
        have hclosed := hheld.release .client
        obtain ⟨buffer, hbuffer⟩ := Option.isSome_iff_exists.mp (hclosed.isSome .inputBuffer)
        refine ⟨rfl, ⟨?_, rfl, Or.inr rfl, ?_⟩, rfl, hclosed.accounted.not_forget hbuffer⟩
        · rw [hasTlsConnection, Ledger.slot_forget]
          exact hclosed.isSome .clientSsl
        · rw [TlsClient.isClientConnected, Ledger.slot_forget]
          exact hclosed.isSome .hThreadClient
      · rw [if_neg hfailed, post_bind, post_update, post_pure, if_pos rfl]
        refine ⟨rfl, tidy_of_uses (c := true) (hheld.congr ?_) (fun _ => rfl) nofun ?_, rfl, rfl⟩
        · rintro ⟨⟩ <;> rfl
        · exact fun _ => ClientPhase.noConfusion

theorem Tidy.post_threadEnd (h : s.Tidy) (hphase : s.phase = .running) :
    Post threadEnd s fun _ t => t.Tidy ∧ t.phase = .ended ∧ t.stopping = s.stopping := by
  have huses := h.uses
  rw [hphase, h.connected (Or.inr hphase)] at huses
  rw [threadEnd, post_bind, release, post_update, post_bind]
  refine (post_cleanupOpenssl (huses.release .inputBuffer)).mono ?_
  rintro _ t ⟨ht, hclean⟩
  rw [post_bind, release, post_update, post_bind, release, post_update, post_update]
  refine ⟨tidy_of_uses (c := false) ?_ ?_ (fun _ => rfl) (fun _ => ClientPhase.noConfusion),
    rfl, ?_⟩
  · refine ((hclean.release .hClientEvent).release .hEndClientEvent).congr ?_
    rintro ⟨⟩ <;> rfl
  · rintro (hp | hp) <;> cases hp
  · change t.stopping = s.stopping
    rw [ht]

theorem post_onDisconnect (s : TlsClient) : Post onDisconnect s fun _ t => t =
    if s.isClientConnected then
      { s with
        endEvent := s.endEvent || (s.handles.slot .hEndClientEvent).isSome
        stopping := true }
    else s := by
  rw [onDisconnect, post_bind, post_fetch]
  by_cases hthread : s.isClientConnected
  · rw [if_pos hthread, if_pos hthread, post_bind, clientSetExitEvent, post_bind, post_fetch]
    by_cases hevent : (s.handles.slot .hEndClientEvent).isSome
    · rw [if_pos hevent, post_update, post_update, hevent, Bool.or_true]
    · rw [if_neg hevent, post_pure, post_update, Bool.eq_false_iff.mpr hevent, Bool.or_false]
  · rw [if_neg hthread, if_neg hthread, post_pure]

theorem post_stopped (s : TlsClient) : Post stopped s fun _ t => t = { s with
    handles := s.handles.release .hThreadClient
    phase := .absent
    stopping := false } := by
  rw [stopped, post_bind, release, post_update, post_update]

/-- No thread is on its way to the closed connection, or reads from it. -/
theorem Stuck.phase_ne (h : s.Stuck) : s.phase ≠ .starting ∧ s.phase ≠ .running := by
  rcases h.phase with hp | hp <;> rw [hp] <;> exact ⟨nofun, nofun⟩

/-- A client that is stuck does not connect: it logs in on the connection that is closed. -/
theorem Stuck.post_onConnect (h : s.Stuck) : Post onConnect s fun _ t => t = s := by
  rw [onConnect, post_bind, post_fetch]
  by_cases hthread : s.isClientConnected
  · rw [if_pos hthread, post_pure]
  · rw [if_neg hthread, post_bind, connectToServer, post_bind, post_fetch, if_pos h.connected,
      post_pure, if_pos rfl, post_bind]
    refine (post_login s).mono ?_
    rintro state _ ⟨rfl, hstate⟩
    have hfail : state ≠ LoginState.loginOk.word := by
      rw [hstate h.lost]
      decide
    rw [if_neg hfail, post_pure]

/-! ## What the steps keep -/

variable {a : Act}

theorem Tidy.step (h : s.Tidy) (hst : Step s a t) (ha : a ≠ .start false) : t.Tidy := by
  cases hst with
  | connect hstopping hends => exact (h.post_onConnect hstopping () t hends).1
  | @start _ selected hphase hends =>
      cases selected with
      | false => exact absurd rfl ha
      | true => exact (h.post_threadStart hphase true t hends).2.1
  | wake | text | printed | handled => exact ⟨h.uses, h.connected, h.ended, h.stopping⟩
  | finish hphase _ hends => exact (h.post_threadEnd hphase () t hends).1
  | disconnect hstopping hends =>
      have ht := post_onDisconnect s () t hends
      by_cases hthread : s.isClientConnected
      · rw [if_pos hthread] at ht
        have hphase : s.phase ≠ .absent := by
          rw [h.isClientConnected] at hthread
          exact of_decide_eq_true hthread
        rw [ht]
        exact ⟨h.uses, h.connected, h.ended, fun _ => hphase⟩
      · rw [if_neg hthread] at ht
        rwa [ht]
  | stopped hstopping hphase hends =>
      have huses := h.uses
      rw [hphase, h.ended hphase] at huses
      rw [post_stopped s () t hends]
      refine tidy_of_uses (c := false) ((huses.release .hThreadClient).congr ?_) ?_ nofun nofun
      · rintro ⟨⟩ <;> rfl
      · rintro (hp | hp) <;> cases hp
  | lose => exact ⟨h.uses, h.connected, h.ended, h.stopping⟩

/-- A thread that does not get its events leaves the client stuck. -/
theorem Tidy.step_failed (h : s.Tidy) (hst : Step s (.start false) t) :
    t.stopping = s.stopping ∧ t.Stuck ∧ t.phase = .ended ∧ ¬ t.handles.Accounted := by
  cases hst with
  | start hphase hends => exact h.post_threadStart hphase false t hends

theorem Stuck.step (h : s.Stuck) (hst : Step s a t) : t.Stuck := by
  have hphase := h.phase_ne
  cases hst with
  | connect _ hends => rwa [h.post_onConnect () t hends]
  | start hstarting _ => exact absurd hstarting hphase.1
  | wake hrunning | text hrunning | printed hrunning | handled hrunning | finish hrunning =>
      exact absurd hrunning hphase.2
  | disconnect _ hends =>
      rw [post_onDisconnect s () t hends]
      split
      · exact ⟨h.connected, h.lost, h.phase, h.thread⟩
      · exact h
  | stopped _ _ hends =>
      rw [post_stopped s () t hends]
      refine ⟨?_, h.lost, Or.inl rfl, ?_⟩
      · rw [hasTlsConnection, Ledger.slot_release]
        exact h.connected
      · rw [TlsClient.isClientConnected, Ledger.slot_release]
        rfl
  | lose => exact ⟨h.connected, rfl, h.phase, h.thread⟩

theorem Tidy.usable_step (h : s.Tidy) (hs : s.Usable) (hst : Step s a t) (ha : a ≠ .start false)
    (hlose : ¬ s.LosesUnread a) : t.Usable := by
  cases hst with
  | connect hstopping hends => exact (h.post_onConnect hstopping () t hends).2.2 hs
  | @start _ selected hphase hends =>
      cases selected with
      | false => exact absurd rfl ha
      | true =>
          intro habsent
          rw [(h.post_threadStart hphase true t hends).2.2.1] at habsent
          cases habsent
  | wake | text | printed | handled => exact hs
  | finish hphase _ hends =>
      intro habsent
      rw [(h.post_threadEnd hphase () t hends).2.1] at habsent
      cases habsent
  | disconnect hstopping hends =>
      rw [post_onDisconnect s () t hends]
      split
      · exact hs
      · exact hs
  | stopped hstopping hphase hends =>
      rw [post_stopped s () t hends]
      intro _ hhas
      rw [hasTlsConnection, Ledger.slot_release] at hhas
      exact absurd ((h.ended hphase).symm.trans hhas) Bool.false_ne_true
  | lose => exact fun habsent hhas => absurd ⟨rfl, habsent, hhas⟩ hlose

/-- In order, a client is stuck once its connection is closed before anybody reads from it. -/
theorem stuck_of_not_usable (h : s.Tidy) (hs : ¬ s.Usable) : s.Stuck := by
  simp only [Usable, Classical.not_imp, Bool.not_eq_false] at hs
  obtain ⟨habsent, hhas, hlost⟩ := hs
  exact ⟨hhas, hlost, Or.inl habsent, h.isClientConnected⟩

/-- Neither of the two goes on. -/
theorem Blocked.step (h : s.Blocked) (hst : Step s a t) : t.Blocked := by
  obtain ⟨hrunning, hprinting, hwaits⟩ := h
  cases hst with
  | connect hstopping | disconnect hstopping =>
      exact absurd (hwaits.symm.trans hstopping) (by decide)
  | start hphase => exact absurd (hrunning.symm.trans hphase) (by decide)
  | wake _ hplace | text _ hplace | handled _ hplace =>
      exact absurd (hprinting.symm.trans hplace) (by decide)
  | printed _ _ hstopping => exact absurd (hwaits.symm.trans hstopping) (by decide)
  | finish _ hleaves =>
      rw [hprinting] at hleaves
      rcases hleaves with ⟨hplace, -⟩ | hplace <;> cases hplace
  | stopped _ hphase => exact absurd (hrunning.symm.trans hphase) (by decide)
  | lose => exact ⟨hrunning, hprinting, hwaits⟩

/-- How the two come to wait for each other. -/
theorem Tidy.blocked_step_iff (h : s.Tidy) (hs : ¬ s.Blocked) (hst : Step s a t)
    (ha : a ≠ .start false) : t.Blocked ↔ s.PrintsToWaiting a := by
  have hother : ¬ t.Blocked → a ≠ .disconnect → a ≠ .text → (t.Blocked ↔ s.PrintsToWaiting a) :=
    fun hno hdisconnect htext => iff_of_false hno fun hprints =>
      hprints.elim (fun hc => hdisconnect hc.1) fun hc => htext hc.1
  cases hst with
  | connect hstopping hends =>
      refine hother (fun hblocked => ?_) nofun nofun
      have htstopping := (h.post_onConnect hstopping () t hends).2.1
      exact absurd (hblocked.2.2.symm.trans htstopping) (by decide)
  | @start _ selected hphase hends =>
      cases selected with
      | false => exact absurd rfl ha
      | true =>
          refine hother (fun hblocked => ?_) nofun nofun
          have hplace := (h.post_threadStart hphase true t hends).2.2.2
          exact absurd (hblocked.2.1.symm.trans hplace) (by decide)
  | wake | printed | handled =>
      exact hother (fun hblocked => LoopPlace.noConfusion hblocked.2.1) nofun nofun
  | text hphase hplace =>
      refine ⟨fun hblocked => Or.inr ⟨rfl, hblocked.2.2⟩, ?_⟩
      rintro (⟨hno, -⟩ | ⟨-, hwaits⟩)
      · cases hno
      · exact ⟨hphase, rfl, hwaits⟩
  | finish hphase _ hends =>
      refine hother (fun hblocked => ?_) nofun nofun
      have hended := (h.post_threadEnd hphase () t hends).2.1
      exact absurd (hblocked.1.symm.trans hended) (by decide)
  | disconnect hstopping hends =>
      have ht := post_onDisconnect s () t hends
      by_cases hthread : s.isClientConnected
      · rw [if_pos hthread] at ht
        subst ht
        refine ⟨fun hblocked => Or.inl ⟨rfl, hblocked.1, hblocked.2.1⟩, ?_⟩
        rintro (⟨-, hphase, hplace⟩ | ⟨hno, -⟩)
        · exact ⟨hphase, hplace, rfl⟩
        · cases hno
      · rw [if_neg hthread] at ht
        subst ht
        refine iff_of_false hs ?_
        rintro (⟨-, hphase, -⟩ | ⟨hno, -⟩)
        · rw [h.isClientConnected, hphase] at hthread
          exact hthread rfl
        · cases hno
  | stopped _ _ hends =>
      refine hother (fun hblocked => ?_) nofun nofun
      rw [post_stopped s () t hends] at hblocked
      exact ClientPhase.noConfusion hblocked.1
  | lose => exact hother hs nofun nofun

end Steps

/-! ## A concrete run -/

/-- An environment in which every call succeeds, and the server answers a login with
    `state`. -/
def granting (state : LoginState) : (c : TlsCall) → Option c.Answer
  | .sslCtxNew | .socket | .sslNew | .realloc => some true
  | .loadVerifyLocations | .sslConnect => some (1 : Int)
  | .connect | .wsaEventSelect => some (0 : Int)
  | .getaddrinfo => some ((0 : Int), true)
  | .login => some state.word

/-- Run a function in it. -/
def ran (state : LoginState) (s : TlsClient) (p : TlsProg Unit) : Option TlsClient :=
  match exec (granting state) p s with
  | .done _ t => some t
  | _ => none

/-- The step with every call granted. -/
def next (state : LoginState) (s : TlsClient) : Act → Option TlsClient
  | .connect => if s.stopping then none else ran state s onConnect
  | .start selected =>
      match exec (granting state) threadStart s with
      | .done b t => if s.phase = .starting ∧ b = selected then some t else none
      | _ => none
  | .wake =>
      if s.phase = .running ∧ s.place = .waiting ∧ s.endEvent = false then
        some { s with place := .reading }
      else none
  | .text =>
      if s.phase = .running ∧ s.place = .reading then some { s with place := .printing } else none
  | .printed =>
      if s.phase = .running ∧ s.place = .printing ∧ s.stopping = false then
        some { s with place := .reading }
      else none
  | .handled =>
      if s.phase = .running ∧ s.place = .reading then some { s with place := .waiting } else none
  | .finish =>
      if s.phase = .running ∧ (s.place = .waiting ∧ s.endEvent = true ∨ s.place = .reading) then
        ran state s threadEnd
      else none
  | .disconnect => if s.stopping then none else ran state s onDisconnect
  | .stopped => if s.stopping ∧ s.phase = .ended then ran state s stopped else none
  | .lose => some { s with lost := true }

theorem ends_of_ran {state : LoginState} {s t : TlsClient} {p : TlsProg Unit}
    (h : ran state s p = some t) : Ends p s () t := by
  rw [ran] at h
  cases he : exec (granting state) p s with
  | done u v =>
      rw [he] at h
      cases h
      exact ends_of_exec he
  | exited x v =>
      rw [he] at h
      cases h
  | blocked =>
      rw [he] at h
      cases h

theorem step_of_next (state : LoginState) (s : TlsClient) (a : Act) (t : TlsClient)
    (h : next state s a = some t) : Step s a t := by
  cases a with
  | connect =>
      rw [next] at h
      split at h
      · cases h
      · rename_i hstopping
        exact .connect (Bool.eq_false_iff.mpr hstopping) (ends_of_ran h)
  | start selected =>
      rw [next] at h
      split at h
      · rename_i b u he
        split at h
        · rename_i hstart
          cases h
          obtain ⟨hphase, rfl⟩ := hstart
          exact .start hphase (ends_of_exec he)
        · cases h
      · cases h
  | wake =>
      obtain ⟨⟨hphase, hplace, hevent⟩, ⟨⟩⟩ := Option.ite_none_right_eq_some.mp h
      exact .wake hphase hplace hevent
  | text =>
      obtain ⟨⟨hphase, hplace⟩, ⟨⟩⟩ := Option.ite_none_right_eq_some.mp h
      exact .text hphase hplace
  | printed =>
      obtain ⟨⟨hphase, hplace, hstopping⟩, ⟨⟩⟩ := Option.ite_none_right_eq_some.mp h
      exact .printed hphase hplace hstopping
  | handled =>
      obtain ⟨⟨hphase, hplace⟩, ⟨⟩⟩ := Option.ite_none_right_eq_some.mp h
      exact .handled hphase hplace
  | finish =>
      rw [next] at h
      split at h
      · rename_i hleaves
        exact .finish hleaves.1 hleaves.2 (ends_of_ran h)
      · cases h
  | disconnect =>
      rw [next] at h
      split at h
      · cases h
      · rename_i hstopping
        exact .disconnect (Bool.eq_false_iff.mpr hstopping) (ends_of_ran h)
  | stopped =>
      rw [next] at h
      split at h
      · rename_i hstop
        exact .stopped hstop.1 hstop.2 (ends_of_ran h)
      · cases h
  | lose =>
      cases h
      exact .lose

/-- The client connects, its thread makes its events and prints a text, and the window
    disconnects; the last is in front. -/
def session : List Act :=
  [.stopped, .finish, .disconnect, .handled, .printed, .text, .wake, .start true, .connect]

/-- The run is that session, it ends without a thread and a connection, and its steps meet
    the conditions of the results below. -/
def Regular (h : List (TlsClient × Act)) (s : TlsClient) : Prop :=
  h.map Prod.snd = session ∧ (s.phase = .absent ∧ s.hasTlsConnection = false)
    ∧ EveryStep (fun _ _ a _ => a ≠ .start false) h s
    ∧ EveryStep (fun _ s a _ => a = .disconnect → s.phase ≠ .starting) h s
    ∧ EveryStep (fun _ s a _ => a ≠ .start false ∧ ¬ LosesUnread s a ∧ ¬ PrintsToWaiting s a) h s

instance (h : List (TlsClient × Act)) (s : TlsClient) : Decidable (Regular h s) :=
  inferInstanceAs (Decidable (_ ∧ _ ∧ _ ∧ _ ∧ _))

theorem session_run : ∃ h s, ClientRun h s ∧ Regular h s := by
  have hrun : ∃ h s, ClientRun h s ∧ decide (Regular h s) = true :=
    exists_history_of_follow (step_of_next .loginOk) session (fun h s => Regular h s)
      (by decide +kernel)
  obtain ⟨h, s, hr, hregular⟩ := hrun
  exact ⟨h, s, hr, of_decide_eq_true hregular⟩

/-- A run that does not meet the condition of `starts_again_iff`. -/
def Fails (labels : List Act) (h : List (TlsClient × Act)) (s : TlsClient) : Prop :=
  h.map Prod.snd = labels
    ∧ ¬ EveryStep (fun _ s a _ => a ≠ .start false ∧ ¬ LosesUnread s a ∧ ¬ PrintsToWaiting s a)
      h s

instance (labels : List Act) (h : List (TlsClient × Act)) (s : TlsClient) :
    Decidable (Fails labels h s) := inferInstanceAs (Decidable (_ ∧ _))

/-- A login is refused, and the server closes the connection. -/
theorem refused_run : ∃ h s, ClientRun h s ∧ Fails [.lose, .connect] h s := by
  have hrun : ∃ h s, ClientRun h s ∧ decide (Fails [.lose, .connect] h s) = true :=
    exists_history_of_follow (step_of_next .loginFail) [.lose, .connect]
      (fun h s => decide (Fails [.lose, .connect] h s)) (by decide +kernel)
  obtain ⟨h, s, hr, hfails⟩ := hrun
  exact ⟨h, s, hr, of_decide_eq_true hfails⟩

/-- The thread is behind its wait, the window disconnects, and what has come is a text. -/
theorem printing_run :
    ∃ h s, ClientRun h s ∧ Fails [.text, .disconnect, .wake, .start true, .connect] h s := by
  have hrun : ∃ h s, ClientRun h s
      ∧ decide (Fails [.text, .disconnect, .wake, .start true, .connect] h s) = true :=
    exists_history_of_follow (step_of_next .loginOk)
      [.text, .disconnect, .wake, .start true, .connect]
      (fun h s => decide (Fails [.text, .disconnect, .wake, .start true, .connect] h s))
      (by decide +kernel)
  obtain ⟨h, s, hr, hfails⟩ := hrun
  exact ⟨h, s, hr, of_decide_eq_true hfails⟩

/-! ## Nothing leaks -/

/-- **What has been acquired can be given back**, as long as `WSAEventSelect` does not fail:
    it is all in its variables, and without a thread and a connection nothing is left. -/
theorem nothing_leaks {h : List (TlsClient × Act)} {s : TlsClient} (hr : ClientRun h s) :
    (EveryState (fun s => s.handles.Accounted) h s
      ↔ EveryStep (fun _ _ a _ => a ≠ .start false) h s)
    ∧ (EveryStep (fun _ _ a _ => a ≠ .start false) h s → s.phase = .absent →
      s.hasTlsConnection = false → s.handles.live = ∅) := by
  refine ⟨?_, ?_⟩
  · refine Run.everyState_iff (P := fun s => s.handles.Accounted) (ψ := fun _ a => a ≠ .start false)
      Tidy tidy_start Ledger.accounted_empty ?_ ?_ hr
    · intro s a t hs hst ht
      by_cases ha : a = .start false
      · subst ha
        exact absurd ht (hs.step_failed hst).2.2.2
      · exact hs.step hst ha
    · intro s a t hs hst
      refine ⟨?_, fun ha => (hs.step hst ha).uses.accounted⟩
      rintro ht rfl
      exact (hs.step_failed hst).2.2.2 ht
  · intro hall habsent hhas
    have htidy : s.Tidy := (hr.invariant_of Tidy tidy_start
      (fun _ _ _ _ hs hst ha => hs.step hst ha) hall).last
    have huses := htidy.uses
    rw [habsent, hhas] at huses
    exact huses.live_eq_empty (by rintro ⟨⟩ <;> rfl)

theorem nothing_leaks_session : ∃ h s, ClientRun h s ∧ h.map Prod.snd = session
    ∧ EveryState (fun s => s.handles.Accounted) h s ∧ s.handles.live = ∅ := by
  obtain ⟨h, s, hr, hlabels, ⟨habsent, hhas⟩, hselected, -⟩ := session_run
  exact ⟨h, s, hr, hlabels, (nothing_leaks hr).1.mpr hselected,
    (nothing_leaks hr).2 hselected habsent hhas⟩

/-! ## The wait of `StopClient` -/

/-- What the window waits for is over or has been told to end. -/
def WaitsForEnding (s : TlsClient) : Prop :=
  s.stopping = true → s.phase = .ended ∨ s.phase = .running ∧ s.endEvent = true

section Waits

variable {s t : TlsClient} {a : Act}

theorem waitsForEnding_of_quiet (h : s.stopping = false) : s.WaitsForEnding :=
  fun hstopping => absurd (h.symm.trans hstopping) Bool.false_ne_true

theorem tidy_or_stuck_step (h : s.Tidy ∨ s.Stuck) (hst : Step s a t) : t.Tidy ∨ t.Stuck := by
  rcases h with h | h
  · by_cases ha : a = .start false
    · subst ha
      exact Or.inr (h.step_failed hst).2.1
    · exact Or.inl (h.step hst ha)
  · exact Or.inr (h.step hst)

/-- A disconnect waits for a thread that has no events yet, or for one that will end. -/
theorem waitsForEnding_disconnect (h : s.Tidy ∨ s.Stuck) (hstopping : s.stopping = false)
    (hends : Ends onDisconnect s () t) : t.WaitsForEnding ↔ s.phase ≠ .starting := by
  have hthread : s.isClientConnected = decide (s.phase ≠ .absent) :=
    h.elim Tidy.isClientConnected Stuck.thread
  have ht := post_onDisconnect s () t hends
  by_cases hconnected : s.isClientConnected
  · rw [if_pos hconnected] at ht
    subst ht
    constructor
    · intro ht hphase
      rcases ht rfl with hp | ⟨hp, -⟩ <;> exact ClientPhase.noConfusion (hphase.symm.trans hp)
    · intro hphase _
      change s.phase = .ended ∨ s.phase = .running
        ∧ (s.endEvent || (s.handles.slot .hEndClientEvent).isSome) = true
      cases hp : s.phase with
      | absent =>
          rw [hthread, hp] at hconnected
          cases hconnected
      | starting => exact absurd hp hphase
      | running =>
          rcases h with h | h
          · refine Or.inr ⟨rfl, ?_⟩
            rw [h.uses.isSome, hp]
            exact Bool.or_true _
          · exact absurd hp h.phase_ne.2
      | ended => exact Or.inl rfl
  · rw [if_neg hconnected] at ht
    subst ht
    refine ⟨fun _ hphase => hconnected ?_, fun _ => waitsForEnding_of_quiet hstopping⟩
    rw [hthread, hphase]
    rfl

theorem waitsForEnding_step (h : s.Tidy ∨ s.Stuck) (hs : s.WaitsForEnding) (hst : Step s a t) :
    t.WaitsForEnding ↔ (a = .disconnect → s.phase ≠ .starting) := by
  have hother : t.WaitsForEnding → a ≠ .disconnect →
      (t.WaitsForEnding ↔ (a = .disconnect → s.phase ≠ .starting)) :=
    fun ht ha => ⟨fun _ hdisconnect => absurd hdisconnect ha, fun _ => ht⟩
  cases hst with
  | connect hstopping hends =>
      refine hother (waitsForEnding_of_quiet ?_) nofun
      rcases h with h | h
      · exact (h.post_onConnect hstopping () t hends).2.1
      · rwa [h.post_onConnect () t hends]
  | @start _ selected hphase hends =>
      refine hother (waitsForEnding_of_quiet ?_) nofun
      -- nobody waits for a thread that has not been told
      have hstopping : s.stopping = false := by
        rw [Bool.eq_false_iff]
        intro hstopping
        rcases hs hstopping with hp | ⟨hp, -⟩ <;> rw [hphase] at hp <;> cases hp
      rcases h with h | h
      · exact (h.post_threadStart hphase selected t hends).1.trans hstopping
      · exact absurd hphase h.phase_ne.1
  | wake | text | printed | handled => exact hother hs nofun
  | finish hphase _ hends =>
      refine hother (fun _ => Or.inl ?_) nofun
      rcases h with h | h
      · exact (h.post_threadEnd hphase () t hends).2.1
      · exact absurd hphase h.phase_ne.2
  | disconnect hstopping hends =>
      exact (waitsForEnding_disconnect h hstopping hends).trans
        ⟨fun hphase _ => hphase, fun hphase => hphase rfl⟩
  | stopped _ _ hends =>
      refine hother (waitsForEnding_of_quiet ?_) nofun
      rw [post_stopped s () t hends]
  | lose => exact hother hs nofun

end Waits

/-- **The window waits for a thread that has been told**: in any run, `StopClient` waits only
    for a thread that is over, or in its loop with its end event set, exactly if the window
    never disconnects while `ThreadClient` is still to make its events. -/
theorem waits_for_ending_iff {h : List (TlsClient × Act)} {s : TlsClient} (hr : ClientRun h s) :
    EveryState WaitsForEnding h s
      ↔ EveryStep (fun _ s a _ => a = .disconnect → s.phase ≠ .starting) h s := by
  refine Run.everyState_iff (ψ := fun s a => a = .disconnect → s.phase ≠ .starting)
    (fun s => (s.Tidy ∨ s.Stuck) ∧ s.WaitsForEnding)
    ⟨Or.inl tidy_start, waitsForEnding_of_quiet rfl⟩ (waitsForEnding_of_quiet rfl) ?_ ?_ hr
  · exact fun s a t hs hst ht => ⟨tidy_or_stuck_step hs.1 hst, ht⟩
  · exact fun s a t hs hst => waitsForEnding_step hs.1 hs.2 hst

theorem waits_for_ending_iff_session : ∃ h s, ClientRun h s ∧ h.map Prod.snd = session
    ∧ EveryState WaitsForEnding h s := by
  obtain ⟨h, s, hr, hlabels, -, -, hmade, -⟩ := session_run
  exact ⟨h, s, hr, hlabels, (waits_for_ending_iff hr).mpr hmade⟩

/-! ## Starting again -/

/-- The client can go on so that `ThreadClient` is started. -/
def CanStart (s : TlsClient) : Prop :=
  ∃ t, Relation.ReflTransGen (fun s t => ∃ a, Step s a t) s t ∧ t.phase = .starting

section CanStart

variable {s t : TlsClient} {a : Act}

theorem CanStart.of_step (hst : Step s a t) (ht : t.CanStart) : s.CanStart := by
  obtain ⟨u, hsteps, hu⟩ := ht
  exact ⟨u, .head ⟨a, hst⟩ hsteps, hu⟩

/-- What every step keeps, and is not the start of the thread, keeps the client from it. -/
theorem not_canStart {J : TlsClient → Prop} (hkept : ∀ s a t, J s → Step s a t → J t)
    (hphase : ∀ s, J s → s.phase ≠ .starting) (h : J s) : ¬ s.CanStart := by
  rintro ⟨t, hsteps, ht⟩
  refine hphase t ?_ ht
  clear ht
  induction hsteps with
  | refl => exact h
  | tail _ hst ih =>
      obtain ⟨a, hst⟩ := hst
      exact hkept _ _ _ ih hst

theorem Stuck.not_canStart (h : s.Stuck) : ¬ s.CanStart :=
  TlsClient.not_canStart (fun _ _ _ hs hst => hs.step hst) (fun _ hs => hs.phase_ne.1) h

theorem Blocked.not_canStart (h : s.Blocked) : ¬ s.CanStart := by
  refine TlsClient.not_canStart (fun _ _ _ hs hst => hs.step hst) (fun s hs => ?_) h
  rw [hs.1]
  decide

theorem exists_ends_connectToServer (hs : s.Usable) (habsent : s.phase = .absent) :
    ∃ t, Ends connectToServer s true t ∧ t.lost = false := by
  by_cases hhas : s.hasTlsConnection
  · refine ⟨s, (ends_bind ..).mpr ⟨s, s, ⟨rfl, rfl⟩, ?_⟩, hs habsent hhas⟩
    rw [if_pos hhas]
    exact ⟨rfl, rfl⟩
  · have hends : ∃ t, exec (granting .loginOk) tlsConnectToServer s = .done true t
        ∧ t.lost = false := ⟨_, rfl, rfl⟩
    obtain ⟨t, hends, hlost⟩ := hends
    refine ⟨t, (ends_bind ..).mpr ⟨s, s, ⟨rfl, rfl⟩, ?_⟩, hlost⟩
    rw [if_neg hhas]
    exact ends_of_exec hends

/-- A client without a thread connects. -/
theorem Tidy.canStart_absent (h : s.Tidy) (hs : s.Usable) (habsent : s.phase = .absent) :
    s.CanStart := by
  have hstopping : s.stopping = false := by
    rw [Bool.eq_false_iff]
    exact fun hstopping => h.stopping hstopping habsent
  have hthread : ¬ s.isClientConnected = true := by
    rw [h.isClientConnected, habsent]
    exact Bool.false_ne_true
  obtain ⟨t, hends, hlost⟩ := exists_ends_connectToServer hs habsent
  have hlogin : Ends login t LoginState.loginOk.word t := by
    refine (ends_bind ..).mpr ⟨t, t, ⟨rfl, rfl⟩, ?_⟩
    rw [if_neg (Bool.eq_false_iff.mp hlost)]
    exact ⟨_, rfl, rfl⟩
  have hstart : Ends onConnect s () { t with
      handles := t.handles.acquire .hThreadClient
      phase := .starting } := by
    refine (ends_bind ..).mpr ⟨s, s, ⟨rfl, rfl⟩, ?_⟩
    rw [if_neg hthread]
    refine (ends_bind ..).mpr ⟨true, t, hends, ?_⟩
    rw [if_pos rfl]
    refine (ends_bind ..).mpr ⟨_, t, hlogin, ?_⟩
    rw [if_pos rfl]
    exact ⟨rfl, rfl⟩
  exact .of_step (.connect hstopping hstart) ⟨_, .refl, rfl⟩

/-- `OnDisconnect` comes to its wait. -/
theorem exists_ends_onDisconnect (hthread : s.isClientConnected = true) :
    ∃ t, Ends onDisconnect s () t ∧ t.phase = s.phase ∧ t.stopping = true := by
  have hset : ∃ t, Ends clientSetExitEvent s () t ∧ t.phase = s.phase := by
    by_cases hevent : (s.handles.slot .hEndClientEvent).isSome
    · refine ⟨{ s with endEvent := true }, (ends_bind ..).mpr ⟨s, s, ⟨rfl, rfl⟩, ?_⟩, rfl⟩
      rw [if_pos hevent]
      exact ⟨rfl, rfl⟩
    · refine ⟨s, (ends_bind ..).mpr ⟨s, s, ⟨rfl, rfl⟩, ?_⟩, rfl⟩
      rw [if_neg hevent]
      exact ⟨rfl, rfl⟩
  obtain ⟨t, hends, hphase⟩ := hset
  refine ⟨{ t with stopping := true }, (ends_bind ..).mpr ⟨s, s, ⟨rfl, rfl⟩, ?_⟩, hphase, rfl⟩
  rw [if_pos hthread]
  exact (ends_bind ..).mpr ⟨(), t, hends, ⟨rfl, rfl⟩⟩

/-- The wait for a thread that is over ends, and then there is none. -/
theorem Tidy.canStart_stopping (h : s.Tidy) (hended : s.phase = .ended)
    (hstopping : s.stopping = true) : s.CanStart := by
  have hends : ∃ t, exec (granting .loginOk) stopped s = .done () t ∧ t.phase = .absent :=
    ⟨_, rfl, rfl⟩
  obtain ⟨t, hends, habsent⟩ := hends
  have hst : Step s .stopped t := .stopped hstopping hended (ends_of_exec hends)
  have husable : s.Usable := by
    intro hphase
    rw [hended] at hphase
    cases hphase
  have hnext : t.Usable := h.usable_step husable hst nofun fun hlose => Act.noConfusion hlose.1
  exact .of_step hst ((h.step hst nofun).canStart_absent hnext habsent)

/-- A thread that is over can be waited for. -/
theorem Tidy.canStart_ended (h : s.Tidy) (hended : s.phase = .ended) : s.CanStart := by
  cases hstopping : s.stopping with
  | true => exact h.canStart_stopping hended hstopping
  | false =>
      have hthread : s.isClientConnected = true := by
        rw [h.isClientConnected, hended]
        rfl
      obtain ⟨t, hends, hphase, hstops⟩ := exists_ends_onDisconnect hthread
      have hst : Step s .disconnect t := .disconnect hstopping hends
      exact .of_step hst ((h.step hst nofun).canStart_stopping (hphase.trans hended) hstops)

/-- A thread that can leave its loop comes to its end: at the end event, or, if it reads, at a
    closed connection. -/
theorem Tidy.canStart_leaving (h : s.Tidy) (hphase : s.phase = .running)
    (hleaves : s.place = .waiting ∧ s.endEvent = true ∨ s.place = .reading) : s.CanStart := by
  have hends : ∃ t, exec (granting .loginOk) threadEnd s = .done () t ∧ t.phase = .ended :=
    ⟨_, rfl, rfl⟩
  obtain ⟨t, hends, hended⟩ := hends
  have hst : Step s .finish t := .finish hphase hleaves (ends_of_exec hends)
  exact .of_step hst ((h.step hst nofun).canStart_ended hended)

/-- A thread in its loop comes to its end, unless it prints to a window that waits. -/
theorem Tidy.canStart_running (h : s.Tidy) (hb : ¬ s.Blocked) (hphase : s.phase = .running) :
    s.CanStart := by
  cases hplace : s.place with
  | waiting =>
      by_cases hevent : s.endEvent = true
      · exact h.canStart_leaving hphase (Or.inl ⟨hplace, hevent⟩)
      · have hst : Step s .wake _ := .wake hphase hplace (Bool.eq_false_iff.mpr hevent)
        exact .of_step hst ((h.step hst nofun).canStart_leaving hphase (Or.inr rfl))
  | reading => exact h.canStart_leaving hphase (Or.inr hplace)
  | printing =>
      have hstopping : s.stopping = false :=
        Bool.eq_false_iff.mpr fun hwaits => hb ⟨hphase, hplace, hwaits⟩
      have hst : Step s .printed _ := .printed hphase hplace hstopping
      exact .of_step hst ((h.step hst nofun).canStart_leaving hphase (Or.inr rfl))

/-- In order, and neither stuck nor blocked, the client can start its thread again. -/
theorem Tidy.canStart (h : s.Tidy) (hs : s.Usable) (hb : ¬ s.Blocked) : s.CanStart := by
  cases hphase : s.phase with
  | absent => exact h.canStart_absent hs hphase
  | starting => exact ⟨s, .refl, hphase⟩
  | ended => exact h.canStart_ended hphase
  | running => exact h.canStart_running hb hphase

end CanStart

/-- **When the client can connect again**: in any run, from every state it can still come to
    start `ThreadClient`, exactly if `WSAEventSelect` has never failed, the server has never
    closed a connection that no thread reads from, and `ThreadClient` has never printed a
    text while the window waits for it.  After a login that was refused there is a connection
    without a thread; once it is closed the client keeps it, and all further logins go to
    it. -/
theorem starts_again_iff {h : List (TlsClient × Act)} {s : TlsClient} (hr : ClientRun h s) :
    EveryState CanStart h s
      ↔ EveryStep (fun _ s a _ => a ≠ .start false ∧ ¬ s.LosesUnread a ∧ ¬ s.PrintsToWaiting a)
        h s := by
  have husable : Usable {} := fun _ _ => rfl
  have hblocked : ¬ Blocked {} := fun hb => ClientPhase.noConfusion hb.1
  refine Run.everyState_iff
    (ψ := fun s a => a ≠ .start false ∧ ¬ s.LosesUnread a ∧ ¬ s.PrintsToWaiting a)
    (fun s => s.Tidy ∧ s.Usable ∧ ¬ s.Blocked) ⟨tidy_start, husable, hblocked⟩
    (tidy_start.canStart husable hblocked) ?_ ?_ hr
  · rintro s a t ⟨hs, -, -⟩ hst ht
    by_cases ha : a = .start false
    · subst ha
      exact absurd ht (hs.step_failed hst).2.1.not_canStart
    · refine ⟨hs.step hst ha, ?_, fun hb => hb.not_canStart ht⟩
      by_contra hnot
      exact (stuck_of_not_usable (hs.step hst ha) hnot).not_canStart ht
  · rintro s a t ⟨hs, husable, hb⟩ hst
    constructor
    · intro ht
      have ha : a ≠ .start false := by
        rintro rfl
        exact (hs.step_failed hst).2.1.not_canStart ht
      refine ⟨ha, ?_, fun hprints => ?_⟩
      · rintro ⟨rfl, habsent, hhas⟩
        cases hst
        have hstuck : Stuck { s with lost := true } :=
          ⟨hhas, rfl, Or.inl habsent, hs.isClientConnected⟩
        exact hstuck.not_canStart ht
      · exact Blocked.not_canStart ((hs.blocked_step_iff hb hst ha).mpr hprints) ht
    · rintro ⟨ha, hlose, hprints⟩
      exact (hs.step hst ha).canStart (hs.usable_step husable hst ha hlose)
        (mt (hs.blocked_step_iff hb hst ha).mp hprints)

/-- The session goes well; a refused login behind which the server closes the connection does
    not, nor a text that comes when the window has disconnected. -/
theorem starts_again_iff_session :
    (∃ h s, ClientRun h s ∧ h.map Prod.snd = session ∧ EveryState CanStart h s)
    ∧ (∃ h s, ClientRun h s ∧ h.map Prod.snd = [.lose, .connect] ∧ ¬ EveryState CanStart h s)
    ∧ ∃ h s, ClientRun h s
      ∧ h.map Prod.snd = [.text, .disconnect, .wake, .start true, .connect]
      ∧ ¬ EveryState CanStart h s := by
  obtain ⟨h, s, hr, hlabels, -, -, -, hkept⟩ := session_run
  obtain ⟨h', s', hr', hlabels', hlost⟩ := refused_run
  obtain ⟨h'', s'', hr'', hlabels'', hprints⟩ := printing_run
  exact ⟨⟨h, s, hr, hlabels, (starts_again_iff hr).mpr hkept⟩,
    ⟨h', s', hr', hlabels', fun hall => hlost ((starts_again_iff hr').mp hall)⟩,
    ⟨h'', s'', hr'', hlabels'', fun hall => hprints ((starts_again_iff hr'').mp hall)⟩⟩

end TlsClient

end DemoCannon
