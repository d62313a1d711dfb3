import DemoCannon.Sending
import DemoCannon.Shutdown
import DemoCannon.ThreadClient

/-! # One connection, from the senders to `ProcessMessage`

    The process on one side, `ThreadClient` on the other, and the bytes on the way
    between them.  A `WriteDataTcp` is here one `SSL_write` after the other, and the
    client reads while it goes on.

    Since every sender holds `TCP_Mutex` for a whole frame, the bytes put on the
    connection are at any time those of the frames in the order in which the mutex
    was acquired, the last one perhaps not yet all of it (`Carries`).  No frame
    begins another, so the messages that the client reads off them are the first
    of these frames (`processed_prefix_sent`). -/

namespace DemoCannon

open Interaction Interaction.Program

/-! ## Writing in chunks -/

/-- How far an answer of `SSL_write` takes a `WriteDataTcp`. -/
def wrote (length total : Nat) : SslRet → Nat
  | .bytes n => total + min (n + 1) (min (8 * 1024) (length - total))
  | _ => total

/-- `total_bytes_written` after some answers. -/
def written (length : Nat) (script : List SslRet) : Nat := script.foldl (wrote length) 0

/-- The bytes that an answer puts on the connection. -/
def chunk (data : Bytes) (script : List SslRet) (r : SslRet) : Bytes :=
  let total := written data.length script
  (data.drop total).take (wrote data.length total r - total)

section Chunks

variable {data : Bytes} {length total : Nat} {script : List SslRet}

theorem le_wrote (length total : Nat) (r : SslRet) : total ≤ wrote length total r := by
  cases r with
  | bytes n => exact Nat.le_add_right ..
  | wantRead | wantWrite | syscall | error => exact Nat.le_refl _

theorem wrote_le (h : total ≤ length) (r : SslRet) : wrote length total r ≤ length := by
  cases r with
  | bytes n => rw [wrote]; omega
  | wantRead | wantWrite | syscall | error => exact h

theorem written_concat (length : Nat) (script : List SslRet) (r : SslRet) :
    written length (script ++ [r]) = wrote length (written length script) r :=
  List.foldl_concat ..

/-- The bytes that are through, one more answer later. -/
theorem take_written_concat (data : Bytes) (script : List SslRet) (r : SslRet) :
    data.take (written data.length (script ++ [r]))
      = data.take (written data.length script) ++ chunk data script r := by
  rw [written_concat, chunk, ← List.take_add, Nat.add_sub_of_le (le_wrote ..)]

/-- A write whose answers take it to its end returns. -/
theorem writeDataTcp_of_wrote (hmoves : ∀ r ∈ script, r.Moves) (hle : total ≤ length)
    (h : script.foldl (wrote length) total = length) :
    writeDataTcp length script total = .returned length := by
  induction script generalizing total with
  | nil =>
      obtain rfl : total = length := h
      rw [writeDataTcp, if_neg (Nat.lt_irrefl _)]
  | cons r script ih =>
      have hhead : r.Moves := hmoves r (List.mem_cons_self ..)
      have hrest : ∀ r ∈ script, r.Moves := fun q hq => hmoves q (List.mem_cons_of_mem r hq)
      rw [writeDataTcp.eq_def]
      by_cases hlt : total < length
      · simp only [hlt, if_true]
        cases r with
        | bytes n => exact ih hrest (wrote_le hle (.bytes n)) h
        | wantRead | wantWrite => exact ih hrest hle h
        | syscall | error => exact hhead.elim
      · simp only [hlt, if_false]
        rw [Nat.le_antisymm hle (Nat.not_lt.mp hlt)]

theorem complete_of_written (hmoves : ∀ r ∈ script, r.Moves)
    (h : written data.length script = data.length) : Complete data script :=
  writeDataTcp_of_wrote hmoves (Nat.zero_le _) h

end Chunks

/-! ## The connection -/

/-- What a thread has given to the `WriteDataTcp` it is in. -/
def Process.writing (p : Process) (i : Tid) : Option Bytes :=
  match p.pool.threads i with
  | .running (.call (.sslWrite data) _) => some data
  | _ => none

/-- The step is that of a thread that acquires `TCP_Mutex`. -/
def Process.acquires (p : Process) : Tick → Bool
  | .step (.call _ (.lock .tcp) _) => (p.pool.locks .tcp).isNone
  | _ => false

/-- The server, the client, and what is between them. -/
structure Link where
  process : Process
  /-- What `SSL_write` has answered in the `WriteDataTcp` that a thread is in. -/
  answers : Tid → List SslRet
  /-- The bytes on the way. -/
  connection : Bytes
  client : ThreadClient

namespace Link

/-- `ThreadClient` starts, with nothing on the way to it. -/
def start (p : Process) : Link where
  process := p
  answers _ := []
  connection := []
  client := {}

/-- What can happen. -/
inductive Tick where
  /-- The server does something else than to write. -/
  | process (a : DemoCannon.Tick)
  /-- An `SSL_write` of a thread is answered. -/
  | sslWrite (i : Tid) (r : SslRet)
  /-- The `WriteDataTcp` of a thread returns. -/
  | written (i : Tid)
  /-- An `SSL_read` of the client returns bytes. -/
  | sslRead (got : Bytes)
  /-- An `SSL_read` of the client wants to be called again. -/
  | wantRead
  /-- A `ReadDataTls` of no bytes returns. -/
  | noBytes
  /-- `ThreadClient` is told to end, or that the connection is closed. -/
  | stop

/-- A step: no call of OpenSSL fails. -/
inductive Step (P : Platform) (l : Link) : Tick → Link → Prop where
  | process {a : DemoCannon.Tick} {q : Process}
      (ha : ∀ i data script, a ≠ .step (.call i (.sslWrite data) script))
      (hst : Process.Step P l.process a q) :
      Step P l (.process a) { l with process := q }
  | sslWrite {i : Tid} {r : SslRet} {data : Bytes} (hrun : l.process.ended = none)
      (hi : l.process.writing i = some data)
      (hmore : DemoCannon.written data.length (l.answers i) < data.length) (hr : r.Moves) :
      Step P l (.sslWrite i r)
        { l with
          answers := Function.update l.answers i (l.answers i ++ [r])
          connection := l.connection ++ chunk data (l.answers i) r }
  | written {i : Tid} {data : Bytes} {q : Process}
      (hdone : DemoCannon.written data.length (l.answers i) = data.length)
      (hst : Process.Step P l.process (.step (.call i (.sslWrite data) (l.answers i))) q) :
      Step P l (.written i)
        { l with process := q, answers := Function.update l.answers i [] }
  | sslRead {got rest : Bytes} (hleft : l.client.left = false) (hgot : got ≠ [])
      (hle : got.length ≤ l.client.length - l.client.totalBytesRead)
      (hconnection : l.connection = got ++ rest) :
      Step P l (.sslRead got) { l with connection := rest, client := l.client.read got }
  | wantRead (hleft : l.client.left = false) : Step P l .wantRead l
  | noBytes (hleft : l.client.left = false) (hnone : l.client.length = 0) :
      Step P l .noBytes { l with client := l.client.received 0 }
  | stop (hbetween : l.client.totalBytesRead = 0) :
      Step P l .stop { l with client := { l.client with left := true } }

/-! ## What is sent -/

/-- With its first answer the bytes of a write are on their way. -/
def send (data : Bytes) : List SslRet → List Bytes → List Bytes
  | [], f :: fs => (f ++ data) :: fs
  | _, fs => fs

/-- What a step adds to what was written each time that `TCP_Mutex` was acquired,
    the last time first. -/
def note (l : Link) : Tick → List Bytes → List Bytes
  | .process a, fs => if l.process.acquires a then [] :: fs else fs
  | .sslWrite i _, fs =>
      match l.process.writing i with
      | some data => send data (l.answers i) fs
      | none => fs
  | _, fs => fs

/-- What was written each time that `TCP_Mutex` was acquired, the last time first. -/
def sections (h : List (Link × Tick)) : List Bytes := h.foldr (fun x => x.1.note x.2) []

/-- What has been sent, in the order in which `TCP_Mutex` was acquired. -/
def sent (h : List (Link × Tick)) : List Bytes := (sections h).reverse.filter (· ≠ [])

end Link

/-- The header announces from 1 to `2^31 - 1` bytes, and the payload is no longer. -/
def InRange (f : Bytes) : Prop :=
  1 ≤ (ntohl f).toNat ∧ (ntohl f).toNat < 0x80000000
    ∧ f.length < sizeofHeader + 0x80000000

instance (f : Bytes) : Decidable (InRange f) := inferInstanceAs (Decidable (_ ∧ _))

/-! ## The server's side -/

namespace Sending

/-- What a monitor that has seen no failure says is so. -/
def Sound : Sending → Prop
  | .part f => f.length = sizeofHeader
  | .whole f => IsFrame f
  | .failed => False
  | _ => True

variable {w v : Sending} {data : Bytes}

/-- A write is added to what has been written with `TCP_Mutex`. -/
theorem write_spec (h : w.write data = some v) :
    w.Inside ∧ v.Inside ∧ v.Sound ∧ v.content = w.content ++ data := by
  cases w with
  | fresh =>
      rw [write] at h
      by_cases hlen : data.length = sizeofHeader
      · rw [if_pos hlen] at h
        cases h
        exact ⟨trivial, trivial, hlen, rfl⟩
      · rw [if_neg hlen] at h
        by_cases hframe : IsFrame data
        · rw [if_pos hframe] at h
          cases h
          exact ⟨trivial, trivial, hframe, rfl⟩
        · rw [if_neg hframe] at h
          cases h
  | part f =>
      rw [write] at h
      by_cases hframe : IsFrame (f ++ data)
      · rw [if_pos hframe] at h
        cases h
        exact ⟨trivial, trivial, hframe, rfl⟩
      · rw [if_neg hframe] at h
        cases h
  | outside | whole f | failed | closed => cases h

/-- With `TCP_Mutex` unlocked a whole frame has been written, or nothing. -/
theorem unlock_spec (hw : w.Sound) (h : w.unlock .tcp = some v) :
    w.Inside ∧ v = .outside ∧ (w.content = [] ∨ IsFrame w.content) := by
  cases w with
  | fresh => cases h; exact ⟨trivial, rfl, Or.inl rfl⟩
  | whole f => cases h; exact ⟨trivial, rfl, Or.inr hw⟩
  | failed => exact hw.elim
  | outside | part f | closed => cases h

theorem lock_spec (h : w.lock .tcp = some v) : w = .outside ∧ v = .fresh := by
  cases w with
  | outside => cases h; exact ⟨rfl, rfl⟩
  | fresh | part f | whole f | failed | closed => cases h

/-- The other mutexes do not matter. -/
theorem lock_other {m : Mutex} (hm : m ≠ .tcp) (w : Sending) : w.lock m = some w := by
  cases m with
  | tcp => exact absurd rfl hm
  | gpio | i2c | engmnt => cases w <;> rfl

theorem unlock_other {m : Mutex} (hm : m ≠ .tcp) (w : Sending) : w.unlock m = some w := by
  cases m with
  | tcp => exact absurd rfl hm
  | gpio | i2c | engmnt => cases w <;> rfl

end Sending

/-- At its end `main` stays where it is. -/
theorem Sending.closed_of_call {c : Call} {r : c.Answer} {v : Sending}
    (h : sendingWatch.call .closed c r = some v) : v = .closed := by
  cases c with
  | lock m => cases m <;> cases h <;> rfl
  | unlock m => cases m <;> cases h <;> rfl
  | sslWrite data => cases h
  | sslRead | auditLine | condSignal | pthreadCreate | fopenIni | fopenLog | never =>
      cases h
      rfl

namespace Process

variable {P : Platform} {p q : Process} {a : Tick} {i : Tid} {w w' : Tid → Sending}

/-- The threads write as the monitor has it; at its end `main` does not. -/
structure Senders (p : Process) (w : Tid → Sending) : Prop where
  guarded : p.Guarded sendingWatch .outside sendingIdle (· = .tcp) (fun w _ => w.Inside) w
  closed (cause : Cause) : p.phase = .switchingOff cause → w .main = .closed

theorem senders_accepted (P : Platform) (c : Config) :
    (accepted c).Senders fun _ => .outside where
  guarded := guarded_accepted (rounds_sending P) (fun _ _ h => h) c
  closed _ h := by cases h

theorem Senders.step (hp : p.Senders w) (hst : Step P p a q) :
    q.Senders (p.advance sendingWatch .closed w a) := by
  constructor
  · refine Guarded.step (rounds_sending P) tracks_sending hp.guarded hst ?_ fun _ => trivial
    cases a with
    | step l => cases l <;> trivial
    | halt | goOn | heartBeat | spuriousWakeup | controlC | cancelled | joined => trivial
  · intro cause hphase
    cases hst with
    | halt hrun hi | heartBeat hrun hcreated hi | spuriousWakeup hrun hi hwaiting
    | cancelled hrun hphase' => exact hp.closed cause hphase
    | controlC hrun hjoining hoff => cases hphase
    | @step l pool hrun hst =>
        have hclosed := hp.closed cause hphase
        change p.pool.advance sendingWatch w l .main = .closed
        by_cases hl : Tid.main = l.thread
        · cases hst with
          | @atom j f k hj =>
              obtain rfl : Tid.main = j := hl
              rw [Pool.advance_atom hj, Function.update_self]
              exact hclosed
          | @call j c k locks r hj hlocks =>
              obtain rfl : Tid.main = j := hl
              obtain ⟨v, hcall, -⟩ :=
                hp.guarded.watched.of_running hj (by rintro _ ⟨⟩) r trivial
              rw [Pool.advance_call hcall, Function.update_self]
              rw [hclosed] at hcall
              exact Sending.closed_of_call hcall
        · rw [Pool.advance_of_ne hl]
          exact hclosed
    | @joined _ j hrun hphase' hj =>
        cases j with
        | network | engagement => cases hphase
        | heartBeat | main =>
            change Function.update w Tid.main .closed Tid.main = .closed
            exact Function.update_self ..
    | @goOn j again _ input hrun hj hq =>
        -- going on does not lead there
        cases j with
        | main =>
            rw [Process.goOn] at hq
            split at hq
            · cases hq; cases hphase
            · cases hq; cases hphase
            · cases hq; cases hphase
            · split at hq
              · cases hq; exact hp.closed cause hphase
              · cases hq; cases hphase
            · cases hq
            · cases hq; exact hp.closed cause hphase
        | network =>
            rw [Process.goOn] at hq
            split at hq
            · cases hq; exact hp.closed cause hphase
            · cases hq; exact hp.closed cause hphase
        | engagement =>
            rw [Process.goOn] at hq
            split at hq
            · cases hq
            · cases hq; exact hp.closed cause hphase
        | heartBeat => cases hq; exact hp.closed cause hphase

theorem senders_of_run {c : Config} {h : List (Process × Tick)} (hr : ProcessRun P c h p) :
    ∃ w, p.Senders w :=
  (hr.invariant (fun p => ∃ w, p.Senders w) ⟨_, senders_accepted P c⟩
    (by rintro p a q ⟨w, hp⟩ hst; exact ⟨_, hp.step hst⟩)).last

/-- The thread has not been stopped, and `main` not been taken away from its work. -/
def Live (p : Process) (i : Tid) : Prop :=
  p.pool.threads i ≠ .stopped ∧ (i = .main → ¬ p.phase.Closing)

/-- A live thread that writes holds `TCP_Mutex`. -/
theorem Senders.holder (hp : p.Senders w) (hi : p.Live i) :
    (w i).Inside ↔ p.pool.locks .tcp = some (i, 1) := by
  refine Iff.trans ?_ (hp.guarded.agree i hi.2 .tcp 1 rfl).symm
  exact (and_iff_right rfl).symm

end Process

/-- Of a write under way: what has been given to `WriteDataTcp`, once some of it may
    be through. -/
def started : Option Bytes → List SslRet → Bytes
  | some data, _ :: _ => data
  | _, _ => []

/-- Of a write under way: what is through. -/
def through : Option Bytes → List SslRet → Bytes
  | some data, script => data.take (written data.length script)
  | none, _ => []

@[simp] theorem started_nil (data : Option Bytes) : started data [] = [] := by
  cases data <;> rfl

@[simp] theorem through_nil (data : Option Bytes) : through data [] = [] := by
  cases data <;> rfl

/-- What a section comes to that has been left. -/
def Done (f : Bytes) : Prop := f = [] ∨ IsFrame f

theorem Sending.Sound.content {w : Sending} (hw : w.Sound) :
    Done w.content ∨ w.content.length = sizeofHeader := by
  cases w with
  | outside | fresh | closed => exact Or.inl (Or.inl rfl)
  | part f => exact Or.inr hw
  | whole f => exact Or.inl (Or.inr hw)
  | failed => exact hw.elim

namespace Process

/-- **The invariant of the server's side.**  `w` are the monitors of the threads,
    `fs` the sections, the last one first, and `put` is what is on the connection. -/
structure Carries (p : Process) (answers : Tid → List SslRet) (w : Tid → Sending)
    (fs : List Bytes) (put : Bytes) : Prop where
  senders : p.Senders w
  sound (i : Tid) : p.Live i → (w i).Sound
  moves (i : Tid) : ∀ r ∈ answers i, r.Moves
  between (i : Tid) : p.Live i → p.writing i = none → answers i = []
  olds : ∀ f ∈ fs.tail, Done f
  newest : ∀ f ∈ fs.head?, Done f ∨ f.length = sizeofHeader
  isPrefix : put <+: fs.reverse.flatten
  free : p.pool.locks .tcp = none → put = fs.reverse.flatten ∧ ∀ f ∈ fs, Done f
  held (i : Tid) : p.Live i → (w i).Inside → ∃ olds,
    fs = ((w i).content ++ started (p.writing i) (answers i)) :: olds
      ∧ put = olds.reverse.flatten ++ ((w i).content ++ through (p.writing i) (answers i))

variable {P : Platform} {p q : Process} {a : Tick} {i : Tid} {w w' : Tid → Sending}
  {answers : Tid → List SslRet} {fs : List Bytes} {put : Bytes}

/-- Where nobody holds `TCP_Mutex` a connection may begin. -/
theorem Senders.carries (hp : p.Senders w) (hfree : p.pool.locks .tcp = none) :
    p.Carries (fun _ => []) w [] [] := by
  have houtside : ∀ i, p.Live i → ¬ (w i).Inside := by
    intro i hi hinside
    cases hfree.symm.trans ((hp.holder hi).mp hinside)
  refine ⟨hp, ?_, ?_, ?_, ?_, ?_, List.prefix_rfl, ?_, ?_⟩
  · intro i hi
    have h := houtside i hi
    cases hw : w i with
    | outside | closed | fresh => trivial
    | part f | whole f | failed => rw [hw] at h; exact absurd trivial h
  · rintro i r ⟨⟩
  · intros; rfl
  · rintro f ⟨⟩
  · rintro f ⟨⟩
  · intro _
    exact ⟨rfl, List.forall_mem_nil _⟩
  · intro i hi hinside
    exact absurd hinside (houtside i hi)

theorem Carries.between_of (hc : p.Carries answers w fs put)
    (hlive : ∀ i, q.Live i → p.Live i)
    (hwriting : ∀ i, q.Live i → q.writing i = p.writing i ∨ p.writing i = none)
    (i : Tid) (hi : q.Live i) (hnone : q.writing i = none) : answers i = [] := by
  rcases hwriting i hi with h | h
  · exact hc.between i (hlive i hi) (h.symm.trans hnone)
  · exact hc.between i (hlive i hi) h

/-- Threads that leave `TCP_Mutex` alone and put nothing on the connection. -/
theorem Carries.move (hc : p.Carries answers w fs put) (hq : q.Senders w')
    (hfree : q.pool.locks .tcp = none → p.pool.locks .tcp = none)
    (hlive : ∀ i, q.Live i → p.Live i)
    (hwriting : ∀ i, q.Live i → q.writing i = p.writing i ∨ p.writing i = none)
    (hw : ∀ i, q.Live i → w' i = w i ∨ w' i = .outside) :
    q.Carries answers w' fs put := by
  refine ⟨hq, ?_, hc.moves, hc.between_of hlive hwriting, hc.olds, hc.newest, hc.isPrefix,
    fun h => hc.free (hfree h), ?_⟩
  · intro i hi
    rcases hw i hi with h | h
    · rw [h]
      exact hc.sound i (hlive i hi)
    · rw [h]
      trivial
  · intro i hi hinside
    rcases hw i hi with h | h
    · rw [h] at hinside ⊢
      obtain ⟨olds, hfs, hput⟩ := hc.held i (hlive i hi) hinside
      rcases hwriting i hi with hsame | hnone
      · rw [hsame]
        exact ⟨olds, hfs, hput⟩
      · rw [hc.between i (hlive i hi) hnone, started_nil] at hfs ⊢
        rw [hc.between i (hlive i hi) hnone, through_nil] at hput
        rw [through_nil]
        exact ⟨olds, hfs, hput⟩
    · rw [h] at hinside
      exact hinside.elim

/-- Outside a step of a program a live thread goes on as it was, or begins something
    outside the mutex. -/
theorem Senders.moved (hp : p.Senders w) (hst : Step P p a q) (ha : ∀ l, a ≠ .step l)
    (hi : q.Live i) :
    (q.pool.threads i = p.pool.threads i ∧ p.advance sendingWatch .closed w a i = w i)
      ∨ ((p.pool.threads i = .notCreated ∨ ∃ again, p.pool.threads i = .running (.ret again))
        ∧ p.advance sendingWatch .closed w a i = .outside) := by
  have hq := hp.step hst
  obtain ⟨-, hcreated⟩ := hst.frame ha
  cases hthread : q.pool.threads i with
  | stopped => exact absurd hthread hi.1
  | notCreated =>
      have hfirst := hq.guarded.watched.first i hthread
      exact Or.inr ⟨Or.inl (hcreated i hthread), hfirst⟩
  | running rest =>
      cases hp.guarded.watched.began hst ha hthread with
      | same h hw => exact Or.inl ⟨h.symm, hw⟩
      | done again hmain hclosing _ => exact absurd hclosing (hi.2 hmain)
      | first h hw => exact Or.inr ⟨Or.inl h, hw⟩
      | off hmain hclosing _ => exact absurd hclosing (hi.2 hmain)
      | idle again h hw => exact Or.inr ⟨Or.inr ⟨again, h⟩, hw⟩

/-- It was live before, and in the same write or in none. -/
theorem Senders.before (hp : p.Senders w) (hst : Step P p a q) (ha : ∀ l, a ≠ .step l)
    (hi : q.Live i) : p.Live i ∧ (q.writing i = p.writing i ∨ p.writing i = none) := by
  have hclosing : i = .main → ¬ p.phase.Closing := fun hmain h => hi.2 hmain (hst.closing h)
  rcases hp.moved hst ha hi with ⟨h, -⟩ | ⟨h | ⟨again, h⟩, -⟩
  · exact ⟨⟨h ▸ hi.1, hclosing⟩, Or.inl (by rw [writing, h, writing])⟩
  · exact ⟨⟨by rw [h]; rintro ⟨⟩, hclosing⟩, Or.inr (by rw [writing, h])⟩
  · exact ⟨⟨by rw [h]; rintro ⟨⟩, hclosing⟩, Or.inr (by rw [writing, h])⟩

/-- What is not a step of a program leaves the mutexes and the connection alone. -/
theorem Carries.elsewhere (hc : p.Carries answers w fs put) (hst : Step P p a q)
    (ha : ∀ l, a ≠ .step l) :
    q.Carries answers (p.advance sendingWatch .closed w a) fs put := by
  obtain ⟨hlocks, -⟩ := hst.frame ha
  refine hc.move (hc.senders.step hst) (fun h => hlocks ▸ h)
    (fun i hi => (hc.senders.before hst ha hi).1) (fun i hi => (hc.senders.before hst ha hi).2) ?_
  intro i hi
  rcases hc.senders.moved hst ha hi with ⟨-, h⟩ | ⟨-, h⟩
  · exact Or.inl h
  · exact Or.inr h

/-- A thread acquires `TCP_Mutex`. -/
theorem Carries.lock (hc : p.Carries answers w fs put)
    (hq : q.Senders (Function.update w i .fresh)) (hlive : ∀ j, q.Live j ↔ p.Live j)
    (hwriting : ∀ j, q.writing j = p.writing j ∨ p.writing j = none)
    (hi : p.Live i) (hnone : p.writing i = none) (hfree : p.pool.locks .tcp = none) :
    q.Carries answers (Function.update w i .fresh) ([] :: fs) put := by
  obtain ⟨hput, hdone⟩ := hc.free hfree
  have hheld : q.pool.locks .tcp = some (i, 1) := by
    refine (hq.holder ((hlive i).mpr hi)).mp ?_
    rw [Function.update_self]
    trivial
  have hflat : ([] :: fs).reverse.flatten = fs.reverse.flatten := by
    rw [List.reverse_cons, List.flatten_append, List.flatten_singleton, List.append_nil]
  refine ⟨hq, ?_, hc.moves, hc.between_of (fun j => (hlive j).mp) (fun j _ => hwriting j),
    hdone, ?_, ?_, ?_, ?_⟩
  · intro j hj
    by_cases hji : j = i
    · subst hji
      rw [Function.update_self]
      trivial
    · rw [Function.update_of_ne hji]
      exact hc.sound j ((hlive j).mp hj)
  · rintro f ⟨⟩
    exact Or.inl (Or.inl rfl)
  · exact ⟨[], by rw [List.append_nil, hflat, hput]⟩
  · intro h
    cases h.symm.trans hheld
  · intro j hj hinside
    have hholder := hheld.symm.trans ((hq.holder hj).mp hinside)
    obtain rfl : i = j := by
      cases hholder
      rfl
    rw [Function.update_self, hc.between i hi hnone, started_nil, through_nil]
    refine ⟨fs, rfl, ?_⟩
    rw [hput]
    exact (List.append_nil _).symm

/-- A thread gives `TCP_Mutex` up. -/
theorem Carries.unlock (hc : p.Carries answers w fs put)
    (hq : q.Senders (Function.update w i .outside)) (hlive : ∀ j, q.Live j ↔ p.Live j)
    (hwriting : ∀ j, q.writing j = p.writing j ∨ p.writing j = none)
    (hi : p.Live i) (hnone : p.writing i = none) (hinside : (w i).Inside)
    (hdone : Done (w i).content) (hfree : q.pool.locks .tcp = none) :
    q.Carries answers (Function.update w i .outside) fs put := by
  obtain ⟨olds, hfs, hput⟩ := hc.held i hi hinside
  rw [hc.between i hi hnone, started_nil, List.append_nil] at hfs
  rw [hc.between i hi hnone, through_nil, List.append_nil] at hput
  refine ⟨hq, ?_, hc.moves, hc.between_of (fun j => (hlive j).mp) (fun j _ => hwriting j),
    hc.olds, hc.newest, hc.isPrefix, ?_, ?_⟩
  · intro j hj
    by_cases hji : j = i
    · subst hji
      rw [Function.update_self]
      trivial
    · rw [Function.update_of_ne hji]
      exact hc.sound j ((hlive j).mp hj)
  · intro _
    have holds := hc.olds
    rw [hfs] at holds ⊢
    refine ⟨?_, ?_⟩
    · rw [hput, List.reverse_cons, List.flatten_append, List.flatten_singleton]
    · intro f hf
      rcases List.mem_cons.mp hf with rfl | hf
      · exact hdone
      · exact holds f hf
  · intro j hj hin
    cases hfree.symm.trans ((hq.holder hj).mp hin)

/-- An answer of `SSL_write` puts a chunk on the connection. -/
theorem Carries.answer (hc : p.Carries answers w fs put) {data : Bytes} {r : SslRet}
    {v : Sending} (hi : p.Live i) (hdata : p.writing i = some data)
    (hv : (w i).write data = some v) (hr : r.Moves) :
    p.Carries (Function.update answers i (answers i ++ [r])) w
      (Link.send data (answers i) fs) (put ++ chunk data (answers i) r) := by
  obtain ⟨hinside, -, hsound, hcontent⟩ := Sending.write_spec hv
  have hheld := (hc.senders.holder hi).mp hinside
  obtain ⟨olds, hfs, hput⟩ := hc.held i hi hinside
  rw [hdata] at hfs hput
  -- the bytes of the write are among what is sent, and one more chunk is through
  have hfs' : Link.send data (answers i) fs = v.content :: olds := by
    rw [hfs, hcontent]
    cases answers i with
    | nil =>
        change ((w i).content ++ [] ++ data) :: olds = _
        rw [List.append_nil]
    | cons r rs => rfl
  have hthrough : put ++ chunk data (answers i) r = olds.reverse.flatten
      ++ ((w i).content ++ through (some data) (answers i ++ [r])) := by
    rw [hput, through, through, take_written_concat]
    simp only [List.append_assoc]
  have hstarted : ∀ script, started (some data) (script ++ [r]) = data := by
    intro script
    cases script <;> rfl
  rw [hfs', hthrough]
  refine ⟨hc.senders, hc.sound, ?_, ?_, ?_, ?_, ?_, ?_, ?_⟩
  · intro j r' hr'
    by_cases hji : j = i
    · subst hji
      rw [Function.update_self] at hr'
      rcases List.mem_append.mp hr' with h | h
      · exact hc.moves j r' h
      · rw [List.mem_singleton.mp h]
        exact hr
    · rw [Function.update_of_ne hji] at hr'
      exact hc.moves j r' hr'
  · intro j hj hnone
    have hji : j ≠ i := by
      rintro rfl
      cases hnone.symm.trans hdata
    rw [Function.update_of_ne hji]
    exact hc.between j hj hnone
  · have holds := hc.olds
    rw [hfs] at holds
    exact holds
  · rintro f ⟨⟩
    exact hsound.content
  · rw [List.reverse_cons, List.flatten_append, List.flatten_singleton,
      List.prefix_append_right_inj, hcontent, List.prefix_append_right_inj]
    exact List.take_prefix _ data
  · intro h
    cases h.symm.trans hheld
  · intro j hj hin
    have hholder := hheld.symm.trans ((hc.senders.holder hj).mp hin)
    obtain rfl : i = j := by
      cases hholder
      rfl
    rw [Function.update_self, hdata, hstarted]
    exact ⟨olds, by rw [hcontent], rfl⟩

/-- A `WriteDataTcp` whose bytes are all through returns. -/
theorem Carries.written (hc : p.Carries answers w fs put) {data : Bytes} {v : Sending}
    (hq : q.Senders (Function.update w i v)) (hlive : ∀ j, q.Live j ↔ p.Live j)
    (hwriting : ∀ j, j ≠ i → q.writing j = p.writing j)
    (hi : p.Live i) (hdata : p.writing i = some data) (hv : (w i).write data = some v)
    (hdone : DemoCannon.written data.length (answers i) = data.length) :
    q.Carries (Function.update answers i []) (Function.update w i v) fs put := by
  obtain ⟨hinside, hinside', hsound, hcontent⟩ := Sending.write_spec hv
  have hheld : q.pool.locks .tcp = some (i, 1) := by
    refine (hq.holder ((hlive i).mpr hi)).mp ?_
    rw [Function.update_self]
    exact hinside'
  obtain ⟨olds, hfs, hput⟩ := hc.held i hi hinside
  -- with no answer at all there was nothing to write
  have hstarted : started (some data) (answers i) = data := by
    cases hans : answers i with
    | nil =>
        rw [hans] at hdone
        exact (List.eq_nil_of_length_eq_zero hdone.symm).symm
    | cons r rs => rfl
  rw [hdata, hstarted, ← hcontent] at hfs
  rw [hdata, through, hdone, List.take_length, ← hcontent] at hput
  refine ⟨hq, ?_, ?_, ?_, hc.olds, hc.newest, hc.isPrefix, ?_, ?_⟩
  · intro j hj
    by_cases hji : j = i
    · subst hji
      rw [Function.update_self]
      exact hsound
    · rw [Function.update_of_ne hji]
      exact hc.sound j ((hlive j).mp hj)
  · intro j r hr
    by_cases hji : j = i
    · subst hji
      rw [Function.update_self] at hr
      cases hr
    · rw [Function.update_of_ne hji] at hr
      exact hc.moves j r hr
  · intro j hj hnone
    by_cases hji : j = i
    · subst hji
      exact Function.update_self ..
    · rw [Function.update_of_ne hji]
      rw [hwriting j hji] at hnone
      exact hc.between j ((hlive j).mp hj) hnone
  · intro h
    cases h.symm.trans hheld
  · intro j hj hin
    have hholder := hheld.symm.trans ((hq.holder hj).mp hin)
    obtain rfl : i = j := by
      cases hholder
      rfl
    rw [Function.update_self, Function.update_self, started_nil, through_nil,
      List.append_nil]
    exact ⟨olds, hfs, hput⟩

section Steps

variable {l : Pool.Label Tid Call Call.Answer} {pool : Threads}

/-- A step of a program stops no thread and takes none back to life. -/
theorem live_iff (hst : Pool.Step Locks.grant p.pool l pool) :
    Live { p with pool := pool } i ↔ p.Live i := by
  refine and_congr_left' ?_
  obtain ⟨rest, rest', hrest, hrest', -⟩ := hst.program
  by_cases hi : i = l.thread
  · subst hi
    change pool.threads _ ≠ _ ↔ _
    rw [hrest, hrest']
    exact iff_of_true (by rintro ⟨⟩) (by rintro ⟨⟩)
  · change pool.threads _ ≠ _ ↔ _
    rw [hst.others hi]

theorem writing_of_ne (hst : Pool.Step Locks.grant p.pool l pool) (hi : i ≠ l.thread) :
    writing { p with pool := pool } i = p.writing i := by
  rw [writing, writing]
  change (match pool.threads i with | _ => _) = _
  rw [hst.others hi]

/-- A thread whose call the monitor knows of at work is live. -/
theorem Senders.live (hp : p.Senders w) {c : Call} {k : c.Answer → Prog Bool}
    (hi : p.pool.threads i = .running (.call c k)) (hw : w i ≠ .closed) : p.Live i := by
  refine ⟨by rw [hi]; rintro ⟨⟩, ?_⟩
  rintro rfl hclosing
  cases hphase : p.phase with
  | starting | creatingNetwork | creatingEngagement | looping =>
      rw [hphase] at hclosing
      exact hclosing
  | joining cause j =>
      obtain ⟨again, h⟩ := hp.guarded.watched.joining _ ⟨cause, j, hphase⟩ hi
      cases h
  | switchingOff cause => exact hw (hp.closed cause hphase)

theorem writing_of_call {c : Call} {k : c.Answer → Prog Bool}
    (hi : p.pool.threads i = .running (.call c k)) (hc : ∀ data, c ≠ .sslWrite data) :
    p.writing i = none := by
  rw [writing, hi]
  cases c with
  | sslWrite data => exact absurd rfl (hc data)
  | lock | unlock | sslRead | auditLine | condSignal | pthreadCreate | fopenIni | fopenLog
  | never => rfl

/-- The answer of a call that is not a write. -/
theorem Carries.call (hc : p.Carries answers w fs put) {c : Call}
    {k : c.Answer → Prog Bool} {r : c.Answer} {locks : Locks}
    (hi : p.pool.threads i = .running (.call c k))
    (hlocks : Locks.grant p.pool.locks i c = some locks) (hno : ∀ data, c ≠ .sslWrite data)
    (hq : Senders { p with pool := { p.pool.set i (.running (k r)) with locks := locks } }
      (p.pool.advance sendingWatch w (.call i c r))) :
    Carries { p with pool := { p.pool.set i (.running (k r)) with locks := locks } } answers
      (p.pool.advance sendingWatch w (.call i c r))
      (if p.acquires (.step (.call i c r)) then [] :: fs else fs) put := by
  have hst : Pool.Step Locks.grant p.pool (.call i c r)
      { p.pool.set i (.running (k r)) with locks := locks } := .call r hi hlocks
  obtain ⟨v, hcall, -⟩ := hc.senders.guarded.watched.of_running hi (by rintro _ ⟨⟩) r trivial
  have hnone := writing_of_call hi hno
  have hwriting : ∀ j, writing
      { p with pool := { p.pool.set i (.running (k r)) with locks := locks } } j = p.writing j
        ∨ p.writing j = none := by
    intro j
    by_cases hji : j = i
    · exact Or.inr (hji ▸ hnone)
    · exact Or.inl (writing_of_ne hst hji)
  rw [Pool.advance_call hcall] at hq ⊢
  -- most calls have nothing to do with `TCP_Mutex`
  have hother : v = w i → locks .tcp = p.pool.locks .tcp →
      p.acquires (.step (.call i c r)) = false →
      Carries { p with pool := { p.pool.set i (.running (k r)) with locks := locks } } answers
        (Function.update w i v)
        (if p.acquires (.step (.call i c r)) then [] :: fs else fs) put := by
    intro hv htcp hacquires
    rw [hacquires, if_neg Bool.false_ne_true]
    refine hc.move hq (fun h => htcp.symm.trans h) (fun j => (live_iff hst).mp)
      (fun j _ => hwriting j) fun j _ => Or.inl ?_
    rw [hv, Function.update_eq_self]
  cases c with
  | sslWrite data => exact absurd rfl (hno data)
  | sslRead | auditLine | condSignal | pthreadCreate | fopenIni | fopenLog | never =>
      cases hcall
      cases hlocks
      exact hother rfl rfl rfl
  | lock m =>
      obtain ⟨hsame, htcp⟩ := Locks.grant_lock hlocks
      by_cases hm : m = .tcp
      · subst hm
        obtain ⟨hw, rfl⟩ := Sending.lock_spec hcall
        have hlive : p.Live i := hc.senders.live hi (by rw [hw]; rintro ⟨⟩)
        have hfree : p.pool.locks .tcp = none := by
          rcases htcp with ⟨hfree, -⟩ | ⟨n, hbefore, hafter⟩
          · exact hfree
          · have hagree := (hc.senders.guarded.agree i hlive.2 .tcp n rfl).mp hbefore
            rw [hw] at hagree
            exact hagree.2.elim
        have hacquires : p.acquires (.step (.call i (.lock .tcp) r)) = true := by
          rw [acquires, hfree]
          rfl
        rw [hacquires, if_pos rfl]
        exact hc.lock hq (fun j => live_iff hst) hwriting hlive hnone hfree
      · refine hother ?_ (hsame .tcp (Ne.symm hm)) ?_
        · exact Option.some.inj (hcall.symm.trans (Sending.lock_other hm (w i)))
        · cases m <;> first | exact absurd rfl hm | rfl
  | unlock m =>
      obtain ⟨hsame, htcp⟩ := Locks.grant_unlock hlocks
      by_cases hm : m = .tcp
      · subst hm
        have hopen : w i ≠ .closed := by
          intro h
          rw [h] at hcall
          cases hcall
        have hlive : p.Live i := hc.senders.live hi hopen
        obtain ⟨hinside, rfl, hdone⟩ := Sending.unlock_spec (hc.sound i hlive) hcall
        have hheld := (hc.senders.holder hlive).mp hinside
        have hfree : locks .tcp = none := by
          rcases htcp with ⟨hnot, -⟩ | ⟨n, hbefore, hafter⟩
          · exact absurd hheld (hnot 1)
          · cases hheld.symm.trans hbefore
            exact hafter
        exact hc.unlock hq (fun j => live_iff hst) hwriting hlive hnone hinside hdone hfree
      · refine hother ?_ (hsame .tcp (Ne.symm hm)) rfl
        exact Option.some.inj (hcall.symm.trans (Sending.unlock_other hm (w i)))

/-- **The step lemma**, for what is not a write. -/
theorem Carries.step (hc : p.Carries answers w fs put) (hst : Step P p a q)
    (ha : ∀ i data script, a ≠ .step (.call i (.sslWrite data) script)) :
    q.Carries answers (p.advance sendingWatch .closed w a)
      (if p.acquires a then [] :: fs else fs) put := by
  by_cases hstep : ∃ l, a = .step l
  · obtain ⟨l, rfl⟩ := hstep
    have hq := hc.senders.step hst
    cases hst with
    | @step _ pool hrun hst =>
        cases hst with
        | @atom i f k hi =>
            have hmoved : p.pool.advance sendingWatch w (.atom i) = w := by
              rw [Pool.advance_atom hi]
              exact Function.update_eq_self ..
            change Senders _ (p.pool.advance sendingWatch w (.atom i)) at hq
            change Carries _ _ (p.pool.advance sendingWatch w (.atom i)) _ _
            rw [hmoved] at hq ⊢
            refine hc.move hq (fun h => h) (fun j => (live_iff (.atom hi)).mp) ?_
              fun _ _ => Or.inl rfl
            intro j _
            by_cases hji : j = i
            · right
              rw [hji, writing, hi]
            · exact Or.inl (writing_of_ne (.atom hi) hji)
        | @call i c k locks r hi hlocks =>
            refine hc.call hi hlocks ?_ hq
            rintro data rfl
            exact ha i data r rfl
  · have hno : ∀ l, a ≠ .step l := fun l h => hstep ⟨l, h⟩
    have hacquires : p.acquires a = false := by
      cases a with
      | step l => exact absurd rfl (hno l)
      | halt | goOn | heartBeat | spuriousWakeup | controlC | cancelled | joined => rfl
    rw [hacquires, if_neg Bool.false_ne_true]
    exact hc.elsewhere hst hno

end Steps

end Process

namespace Link

variable {P : Platform} {p₀ : Process} {l l' : Link} {a : Tick} {h : List (Link × Tick)}
  {w : Tid → Sending} {fs : List Bytes} {bytes : Bytes}

/-- The bytes that a step puts on the connection. -/
def puts (l : Link) : Tick → Bytes
  | .sslWrite i r =>
      match l.process.writing i with
      | some data => chunk data (l.answers i) r
      | none => []
  | _ => []

/-- All bytes put on the connection. -/
def put (h : List (Link × Tick)) : Bytes := h.foldr (fun x bytes => bytes ++ x.1.puts x.2) []

theorem writing_iff {p : Process} {i : Tid} {data : Bytes} (h : p.writing i = some data) :
    ∃ k, p.pool.threads i = .running (.call (.sslWrite data) k) := by
  rw [Process.writing] at h
  split at h
  · rename_i data' k hi
    cases h
    exact ⟨k, hi⟩
  · cases h

/-- What the monitor says of a thread in a `WriteDataTcp`. -/
theorem carries_writing (hc : l.process.Carries l.answers w fs bytes) {i : Tid} {data : Bytes}
    {k : List SslRet → Prog Bool}
    (hi : l.process.pool.threads i = .running (.call (.sslWrite data) k)) :
    l.process.Live i ∧ ∃ v, (w i).write data = some v := by
  obtain ⟨v, hcall, -⟩ :=
    hc.senders.guarded.watched.of_running hi (by rintro _ ⟨⟩) ([] : List SslRet) trivial
  obtain ⟨v, hv, -⟩ := Option.map_eq_some_iff.mp hcall
  refine ⟨hc.senders.live hi ?_, v, hv⟩
  intro h
  rw [h] at hv
  cases hv

/-- The step of the server that a step is. -/
def serverTick (l : Link) : Tick → Option DemoCannon.Tick
  | .process a => some a
  | .written i =>
      (l.process.writing i).map fun data => .step (.call i (.sslWrite data) (l.answers i))
  | _ => none

/-- Where a step takes the monitors of the writes. -/
def advance (l : Link) (w : Tid → Sending) (a : Tick) : Tid → Sending :=
  match l.serverTick a with
  | some b => l.process.advance sendingWatch .closed w b
  | none => w

/-- **The step lemma of the server's side.** -/
theorem Step.carries (hst : Step P l a l') (hc : l.process.Carries l.answers w fs bytes) :
    l'.process.Carries l'.answers (l.advance w a) (l.note a fs) (bytes ++ l.puts a) := by
  have hnothing : ∀ a, l.puts a = [] → bytes ++ l.puts a = bytes := by
    intro a h
    rw [h, List.append_nil]
  cases hst with
  | wantRead | noBytes | stop | sslRead =>
      rw [hnothing _ rfl]
      exact hc
  | process ha hst =>
      rw [hnothing _ rfl]
      exact hc.step hst ha
  | @sslWrite i r data hrun hi hmore hr =>
      obtain ⟨k, hk⟩ := writing_iff hi
      obtain ⟨hlive, v, hv⟩ := carries_writing hc hk
      rw [note, puts, hi]
      exact hc.answer hlive hi hv hr
  | @written i data q hdone hst =>
      rw [hnothing _ rfl]
      have hq := hc.senders.step hst
      cases hst with
      | step hrun hst =>
          cases hst with
          | @call _ _ k locks _ hi hlocks =>
              obtain ⟨hlive, v, hv⟩ := carries_writing hc hi
              have hcomplete := complete_of_written (hc.moves i) hdone
              have hcall : sendingWatch.call (w i) (.sslWrite data) (l.answers i) = some v := by
                change (w i).answered data (l.answers i) = some v
                rw [Sending.answered, hv, Option.map_some, if_pos hcomplete]
              change Process.Senders _ (l.process.pool.advance sendingWatch w
                (.call i (.sslWrite data) (l.answers i))) at hq
              have hwriting : l.process.writing i = some data := by
                rw [Process.writing, hi]
              have hadvance : l.advance w (.written i) = Function.update w i v := by
                rw [advance, serverTick, hwriting]
                exact Pool.advance_call (p := l.process.pool) hcall
              rw [Pool.advance_call hcall] at hq
              rw [hadvance]
              refine hc.written hq (fun j => Process.live_iff (.call _ hi hlocks)) ?_ hlive
                hwriting hv hdone
              intro j hj
              exact Process.writing_of_ne (.call _ hi hlocks) hj

theorem carries_of_run (hstart : ∃ w, p₀.Senders w) (hfree : p₀.pool.locks .tcp = none)
    (hr : Run (Step P) (start p₀) h l) :
    ∃ w, l.process.Carries l.answers w (sections h) (put h) := by
  induction hr with
  | start =>
      obtain ⟨w, hw⟩ := hstart
      exact ⟨w, hw.carries hfree⟩
  | snoc _ hst ih =>
      obtain ⟨w, hc⟩ := ih
      exact ⟨_, hst.carries hc⟩

/-! ## The client's side -/

/-- What has been sent is in range. -/
def Ranged (fs : List Bytes) : Prop := ∀ f ∈ fs, f ≠ [] → InRange f

theorem framed_of_isFrame {f : Bytes} (hf : IsFrame f) (hrange : InRange f) :
    ThreadClient.Framed f := by
  obtain ⟨hlen, hannounced⟩ := hf
  obtain ⟨hone, hmax, hlt⟩ := hrange
  have hpayload : (ntohl f).toNat = f.length - sizeofHeader := by
    rw [hannounced, BitVec.toNat_ofNat]
    refine Nat.mod_eq_of_lt ?_
    omega
  refine ⟨?_, hone, hmax⟩
  rw [hpayload, Nat.add_sub_of_le hlen]

theorem isFrame_of_framed {f : Bytes} (hf : ThreadClient.Framed f) : IsFrame f := by
  obtain ⟨hlen, -, -⟩ := hf
  refine ⟨hlen ▸ Nat.le_add_right .., ?_⟩
  rw [hlen, Nat.add_sub_cancel_left, BitVec.ofNat_toNat, BitVec.setWidth_eq]

/-- What begins with a header that is in range. -/
theorem inRange_of_append {f data : Bytes} (hlen : sizeofHeader ≤ f.length)
    (h : InRange (f ++ data)) : InRange f := by
  have hsame : ntohl (f ++ data) = ntohl f :=
    ntohl_of_take (Nat.le_refl 4) (List.take_append_of_le_length (Nat.le_trans (by decide) hlen))
  obtain ⟨hone, hmax, hlt⟩ := h
  rw [hsame] at hone hmax
  rw [List.length_append] at hlt
  exact ⟨hone, hmax, Nat.lt_of_le_of_lt (Nat.le_add_right ..) hlt⟩

section Sections

variable {p : Process} {answers : Tid → List SslRet}

/-- Of a frame the header at least is written at once. -/
theorem header_le (hc : p.Carries answers w fs bytes) {f : Bytes} (hf : f ∈ fs)
    (hne : f ≠ []) : sizeofHeader ≤ f.length := by
  have hdone : ∀ {f : Bytes}, f ≠ [] → Done f → sizeofHeader ≤ f.length :=
    fun hne h => (h.resolve_left hne).1
  have holds := hc.olds
  have hnewest := hc.newest
  cases fs with
  | nil => cases hf
  | cons g olds =>
      rcases List.mem_cons.mp hf with rfl | hf
      · rcases hnewest f rfl with h | h
        · exact hdone hne h
        · exact Nat.le_of_eq h.symm
      · exact hdone hne (holds f hf)

/-- What is in range was so before the last step. -/
theorem Ranged.before (hc : l.process.Carries l.answers w fs bytes) (h : Ranged (l.note a fs)) :
    Ranged fs := by
  cases a with
  | process a =>
      intro f hf hne
      rw [Ranged, note] at h
      split at h
      · exact h f (List.mem_cons_of_mem _ hf) hne
      · exact h f hf hne
  | sslWrite i r =>
      rw [Ranged, note] at h
      split at h
      · rename_i data hdata
        rw [send.eq_def] at h
        split at h
        · rename_i f olds _
          intro g hg hne
          rcases List.mem_cons.mp hg with rfl | hg
          · have hlonger := h (g ++ data) (List.mem_cons_self ..) (by simp [hne])
            exact inRange_of_append (header_le hc (List.mem_cons_self ..) hne) hlonger
          · exact h g (List.mem_cons_of_mem _ hg) hne
        · exact h
      · exact h
  | written | sslRead | wantRead | noBytes | stop => exact h

/-- Frames at the beginning of the connection are the first that were sent. -/
theorem isPrefix_sent (hc : p.Carries answers w fs bytes) (hrange : Ranged fs)
    {words : List Bytes} (hwords : ∀ x ∈ words, ThreadClient.Framed x)
    (h : words.flatten <+: bytes) : words <+: fs.reverse.filter (· ≠ []) := by
  have hlong : ∀ {x y : Bytes}, y.length ≤ sizeofHeader → ThreadClient.Framed x → ¬ x <+: y := by
    rintro x y hy ⟨hlen, hone, -⟩ hxy
    have := hxy.length_le
    omega
  have hframed : ∀ {fs : List Bytes}, (∀ f ∈ fs, Done f) → Ranged fs →
      ∀ x ∈ fs.reverse.filter (· ≠ []), ThreadClient.Framed x := by
    intro fs hdone hrange x hx
    obtain ⟨hmem, hne⟩ := List.mem_filter.mp hx
    have hne := of_decide_eq_true hne
    have hmem := List.mem_reverse.mp hmem
    exact framed_of_isFrame ((hdone x hmem).resolve_left hne) (hrange x hmem hne)
  have hflat := h.trans hc.isPrefix
  by_cases hall : ∀ f ∈ fs, Done f
  · refine ThreadClient.prefixFree_framed.isPrefix [] hwords (hframed hall hrange)
      (fun x hx => hlong (Nat.zero_le _) hx) ?_
    rw [List.append_nil, List.flatten_filter_ne_nil]
    exact hflat
  · have holds := hc.olds
    have hnewest := hc.newest
    cases fs with
    | nil => exact absurd (List.forall_mem_nil _) hall
    | cons f olds =>
        -- of the last frame there is only the header
        have hnot : ¬ Done f := fun h => hall (List.forall_mem_cons.mpr ⟨h, holds⟩)
        have hheader : f.length = sizeofHeader := (hnewest f rfl).resolve_left hnot
        have hprefix : words <+: olds.reverse.filter (· ≠ []) := by
          refine ThreadClient.prefixFree_framed.isPrefix f hwords
            (hframed holds fun g hg => hrange g (List.mem_cons_of_mem _ hg))
            (fun x hx => hlong (Nat.le_of_eq hheader) hx) ?_
          rw [List.flatten_filter_ne_nil]
          rw [List.reverse_cons, List.flatten_append, List.flatten_singleton] at hflat
          exact hflat
        rw [List.reverse_cons, List.filter_append]
        exact hprefix.trans (List.prefix_append ..)

/-- The header of the next frame is in range. -/
theorem header_inRange {more : List Bytes} {hdr : Bytes}
    (hmore : ∀ f ∈ more, sizeofHeader ≤ f.length ∧ InRange f) (h : hdr <+: more.flatten)
    (hlen : hdr.length = sizeofHeader) :
    1 ≤ (ntohl hdr).toNat ∧ (ntohl hdr).toNat < 0x80000000 := by
  cases more with
  | nil =>
      rw [List.prefix_nil.mp h] at hlen
      cases hlen
  | cons f more =>
      obtain ⟨hle, hone, hmax, -⟩ := hmore f (List.mem_cons_self ..)
      have hhdr : hdr = f.take sizeofHeader := by
        rw [List.prefix_iff_eq_take.mp h, hlen, List.flatten_cons,
          List.take_append_of_le_length hle]
      have hsame : ntohl hdr = ntohl f := by
        refine ntohl_of_take (Nat.le_refl 4) ?_
        rw [hhdr, List.take_take]
        rfl
      rw [hsame]
      exact ⟨hone, hmax⟩

end Sections

/-- **The step lemma of the client's side.** -/
theorem Step.reading (hst : Step P l a l') (hc : l.process.Carries l.answers w fs bytes)
    (hrange : Ranged fs) (hread : l.client.Reading)
    (hbytes : l.client.bytes ++ l.connection = bytes) :
    l'.client.Reading ∧ l'.client.bytes ++ l'.connection = bytes ++ l.puts a := by
  have hnothing : ∀ a, l.puts a = [] → bytes ++ l.puts a = bytes := by
    intro a h
    rw [h, List.append_nil]
  cases hst with
  | process | written | wantRead =>
      rw [hnothing _ rfl]
      exact ⟨hread, hbytes⟩
  | stop =>
      rw [hnothing _ rfl]
      exact ⟨⟨hread.processed, hread.size, hread.room, hread.short, hread.needed, hread.header,
        hread.msg⟩, hbytes⟩
  | noBytes hleft hnone =>
      have hneeded : l.client.length = l.client.inputBytesNeeded := if_pos hread.needed
      have hshort := hread.short
      omega
  | @sslWrite i r data hrun hi hmore hr =>
      rw [puts, hi, ← hbytes, List.append_assoc]
      exact ⟨hread, rfl⟩
  | @sslRead got rest hleft hgot hle hconnection =>
      rw [hnothing _ rfl]
      rw [hconnection, ← List.append_assoc] at hbytes
      have hprocessed : l.client.processed.flatten <+: bytes := by
        rw [← hbytes, ThreadClient.bytes, List.append_assoc, List.append_assoc]
        exact List.prefix_append ..
      obtain ⟨more, hmore⟩ := isPrefix_sent hc hrange hread.processed hprocessed
      have hlater : ∀ f ∈ more, sizeofHeader ≤ f.length ∧ InRange f := by
        intro f hf
        have hmem : f ∈ fs.reverse.filter (· ≠ []) := hmore ▸ List.mem_append_right _ hf
        obtain ⟨hmem, hne⟩ := List.mem_filter.mp hmem
        have hne := of_decide_eq_true hne
        have hmem := List.mem_reverse.mp hmem
        exact ⟨header_le hc hmem hne, hrange f hmem hne⟩
      have hheader : ∀ hdr : Bytes,
          l.client.bytes ++ got = l.client.processed.flatten ++ hdr →
          hdr.length = sizeofHeader →
          1 ≤ (ntohl hdr).toNat ∧ (ntohl hdr).toNat < 0x80000000 := by
        intro hdr hhdr hlen
        refine header_inRange hlater ?_ hlen
        have hflat : fs.reverse.flatten = l.client.processed.flatten ++ more.flatten := by
          rw [← List.flatten_append, hmore, List.flatten_filter_ne_nil]
        have hprefix : l.client.processed.flatten ++ hdr <+: fs.reverse.flatten := by
          rw [← hhdr]
          exact (hbytes ▸ List.prefix_append ..).trans hc.isPrefix
        rw [hflat] at hprefix
        exact (List.prefix_append_right_inj _).mp hprefix
      obtain ⟨hread', hbytes'⟩ := hread.read hle hheader
      refine ⟨hread', ?_⟩
      rw [hbytes']
      exact hbytes

theorem reading_of_run (hstart : ∃ w, p₀.Senders w) (hfree : p₀.pool.locks .tcp = none)
    (hr : Run (Step P) (start p₀) h l) (hrange : Ranged (sections h)) :
    l.client.Reading ∧ l.client.bytes ++ l.connection = put h := by
  induction hr with
  | start => exact ⟨ThreadClient.reading_start, rfl⟩
  | snoc hr hst ih =>
      obtain ⟨w, hc⟩ := carries_of_run hstart hfree hr
      have hbefore := hrange.before hc
      obtain ⟨hread, hbytes⟩ := ih hbefore
      exact hst.reading hc hbefore hread hbytes

end Link

/-- **Frames arrive whole, once and in order.**  From any moment on at which nobody
    holds `TCP_Mutex`, as after the answer to a login, the messages that the client
    has processed are the first of the frames that have been sent, in the order in
    which the senders acquired the mutex. -/
theorem processed_prefix_sent {P : Platform} {c : Config} {h₀ : List (Process × Tick)}
    {p₀ : Process} (hp₀ : ProcessRun P c h₀ p₀) (hfree : p₀.pool.locks .tcp = none)
    {h : List (Link × Link.Tick)} {l : Link} (hr : Run (Link.Step P) (Link.start p₀) h l)
    (hrange : ∀ f ∈ Link.sent h, InRange f) :
    l.client.processed <+: Link.sent h ∧ ∀ f ∈ l.client.processed, IsFrame f := by
  have hranged : Link.Ranged (Link.sections h) := by
    intro f hf hne
    exact hrange f (List.mem_filter.mpr ⟨List.mem_reverse.mpr hf, decide_eq_true hne⟩)
  have hstart := Process.senders_of_run hp₀
  obtain ⟨w, hc⟩ := Link.carries_of_run hstart hfree hr
  obtain ⟨hread, hbytes⟩ := Link.reading_of_run hstart hfree hr hranged
  have hprocessed : l.client.processed.flatten <+: Link.put h := by
    rw [← hbytes, ThreadClient.bytes, List.append_assoc]
    exact List.prefix_append ..
  refine ⟨Link.isPrefix_sent hc hranged hread.processed hprocessed, fun f hf => ?_⟩
  exact Link.isFrame_of_framed (hread.processed f hf)

/-! ## A session with its client -/

namespace Link

variable {P : Platform} {p₀ : Process} {l l' : Link} {a : Tick}

/-- A step of a thread with a fixed environment, in which an `SSL_write` takes all
    that it is given. -/
def next (P : Platform) (env : (c : Call) → Option c.Answer) (i : Tid) (l : Link) :
    Option (Tick × Link) :=
  match l.process.ended, l.process.pool.threads i with
  | none, .running (.call (.sslWrite data) k) =>
      let r := SslRet.bytes data.length
      if DemoCannon.written data.length (l.answers i) < data.length then
        some (.sslWrite i r, { l with
          answers := Function.update l.answers i (l.answers i ++ [r])
          connection := l.connection ++ chunk data (l.answers i) r })
      else if DemoCannon.written data.length (l.answers i) = data.length then
        let pool := l.process.pool.set i (.running (k (l.answers i)))
        some (.written i, { l with
          process := { l.process with pool := { pool with locks := l.process.pool.locks } }
          answers := Function.update l.answers i [] })
      else none
  | _, _ => (l.process.next P env {} i).map fun q =>
      (.process (l.process.nextTick env i), { l with process := q })

theorem step_of_next {env : (c : Call) → Option c.Answer} {i : Tid}
    (hn : l.next P env i = some (a, l')) : Step P l a l' := by
  rw [next] at hn
  split at hn
  · rename_i data k hrun hi
    have hwriting : l.process.writing i = some data := by
      rw [Process.writing, hi]
    split at hn
    · rename_i hmore
      cases hn
      exact .sslWrite hrun hwriting hmore trivial
    · split at hn
      · rename_i hdone
        cases hn
        exact .written hdone (.step hrun (.call (l.answers i) hi rfl))
      · cases hn
  · rename_i hno
    obtain ⟨q, hq, heq⟩ := Option.map_eq_some_iff.mp hn
    obtain ⟨htick, hst⟩ := Process.step_of_next hq
    cases heq
    refine .process ?_ hst
    intro j data script ha
    obtain rfl : j = i := htick _ ha
    rw [ha] at hst
    cases hst with
    | step hrun hst =>
        cases hst with
        | call _ hj _ => exact hno _ _ hrun hj

/-- At most `fuel` steps of a thread. -/
def round (P : Platform) (env : (c : Call) → Option c.Answer) (i : Tid) :
    Nat → List (Link × Tick) × Link → List (Link × Tick) × Link
  | 0, x => x
  | fuel + 1, x =>
      match x.2.next P env i with
      | none => x
      | some (a, l') => round P env i fuel ((x.2, a) :: x.1, l')

/-- The client reads at most `n` bytes. -/
def hear (n : Nat) (x : List (Link × Tick) × Link) : List (Link × Tick) × Link :=
  let got := x.2.connection.take (min n (x.2.client.length - x.2.client.totalBytesRead))
  if got ≠ [] ∧ x.2.client.left = false then
    ((x.2, .sslRead got) :: x.1,
      { x.2 with connection := x.2.connection.drop got.length, client := x.2.client.read got })
  else x

variable {x : List (Link × Tick) × Link}

theorem run_round {env : (c : Call) → Option c.Answer} {i : Tid} (fuel : Nat)
    (hr : Run (Step P) (start p₀) x.1 x.2) :
    Run (Step P) (start p₀) (round P env i fuel x).1 (round P env i fuel x).2 := by
  induction fuel generalizing x with
  | zero => exact hr
  | succ fuel ih =>
      rw [round]
      split
      · exact hr
      · rename_i hn
        exact ih (hr.snoc (step_of_next hn))

theorem run_hear (n : Nat) (hr : Run (Step P) (start p₀) x.1 x.2) :
    Run (Step P) (start p₀) (hear n x).1 (hear n x).2 := by
  rw [hear]
  split
  · rename_i h
    refine hr.snoc (.sslRead h.2 h.1 ?_ (take_append_drop_taken ..).symm)
    exact Nat.le_trans (List.length_take_le ..) (Nat.min_le_right ..)
  · exact hr

end Link

namespace Session

open SystemState

/-- The server in `ARMED_MANUAL`, with its client logged in. -/
def armedServer : Process := toArmedManual.foldl (Process.obey platform) (accepted config)

/-- The server answers two requests, and the client reads the answers five bytes at a
    time. -/
def answered : List (Link × Link.Tick) × Link :=
  Link.hear 5 (Link.hear 5 (Link.hear 5 (Link.hear 5
    (Link.round platform (sends (request safe)) .network 100 ([], .start armedServer)))))

end Session

/-- The client has read the first answer, and a part of the second. -/
theorem processed_prefix_sent_answered :
    ∃ h₀ h l, ProcessRun Session.platform Session.config h₀ Session.armedServer
      ∧ Run (Link.Step Session.platform) (Link.start Session.armedServer) h l
      ∧ l.client.processed = [wordMessage mtState SystemState.safe]
      ∧ l.client.totalBytesRead = 5
      ∧ l.client.processed <+: Link.sent h ∧ ∀ f ∈ l.client.processed, IsFrame f := by
  obtain ⟨h₀, hr₀⟩ : ∃ h₀,
      ProcessRun Session.platform Session.config h₀ Session.armedServer :=
    Process.exists_run_of_orders Session.toArmedManual .start
  have hr : Run (Link.Step Session.platform) (Link.start Session.armedServer)
      Session.answered.1 Session.answered.2 := by
    refine Link.run_hear 5 (Link.run_hear 5 (Link.run_hear 5 (Link.run_hear 5 ?_)))
    exact Link.run_round 100 .start
  have hend : Session.armedServer.pool.locks .tcp = none
      ∧ (∀ f ∈ Link.sent Session.answered.1, InRange f)
      ∧ Session.answered.2.client.processed = [wordMessage mtState SystemState.safe]
      ∧ Session.answered.2.client.totalBytesRead = 5 := by decide +kernel
  obtain ⟨hfree, hrange, hprocessed, htotal⟩ := hend
  exact ⟨h₀, _, _, hr₀, hr, hprocessed, htotal, processed_prefix_sent hr₀ hfree hr hrange⟩

end DemoCannon
