import Mathlib.Data.List.Forall2
import DemoCannon.NetworkInput

/-! # Inbound framing — what reaches the dispatch

    The reader of `NetworkInputThread` is a loop inside a loop over answers
    that split the stream anywhere.  One round on a stream that starts with a
    message has three outcomes only (`receive_encode`): the message is
    dispatched, it is refused by the length check, or its last byte is not
    there yet.  Both results are inductions over the messages on that lemma:
    messages that fit come through exactly (`inbound_framing`), and a message
    that does not fit puts the reader out of step (`oversized_recovers_iff`).
    That the stream is read at all is `networkInputLoop_unread`. -/

namespace DemoCannon

/-- `m` passes the length check. -/
def TMessage.Fits (m : TMessage) : Prop := m.payload.length ≤ sizeofData

instance (m : TMessage) : Decidable m.Fits :=
  inferInstanceAs (Decidable (m.payload.length ≤ sizeofData))

/-! ## One round on a message -/

/-- The outcomes of a round on a stream that starts with `m`. -/
inductive Round (m : TMessage) (rest : Bytes) (answers : Nat) :
    Receive → Prop where
  | dispatch {script : List SslRet} : m.Fits → (∀ r ∈ script, r.Moves) →
      script.length < answers → Round m rest answers (.dispatch m.buffer script rest)
  | oversized {script : List SslRet} : ¬ m.Fits → (∀ r ∈ script, r.Moves) →
      script.length < answers →
      Round m rest answers (.oversized script (m.payload ++ rest))
  | stopped {headerRead : Bool} {unread : Bytes} : rest.length < unread.length →
      Round m rest answers (.stopped headerRead .waiting unread)

/-- The eight header bytes of a message, and what is behind them. -/
theorem encode_append (m : TMessage) (rest : Bytes) :
    m.encode ++ rest = (htonl m.len ++ htonl m.type) ++ (m.payload ++ rest) := by
  simp only [TMessage.encode, List.append_assoc]

/-- **One round.**  On a stream that starts with a message, a round dispatches
    exactly that message, refuses it for its length alone, or waits for a byte
    of it. -/
theorem receive_encode (m : TMessage) (rest : Bytes) {script : List SslRet}
    (hscript : ∀ r ∈ script, r.Moves) :
    Round m rest script.length (receive script (m.encode ++ rest)) := by
  have hmoved := readDataTcp_moved hscript [] (m.encode ++ rest)
    (Nat.zero_le sizeofHeader)
  rw [List.nil_append] at hmoved
  rw [receive]
  cases hread : readDataTcp sizeofHeader script [] (m.encode ++ rest) with
  | returned hdr script' stream =>
      rw [hread] at hmoved
      cases hmoved with
      | returned hlen hbytes hmoves =>
          -- the eight bytes read are the header of `m`
          rw [encode_append] at hbytes
          obtain ⟨rfl, rfl⟩ := List.append_inj hbytes (by rw [hlen]; rfl)
          have hlt : script'.length < script.length :=
            readDataTcp_script_lt (by decide) hread
          have htype : ntohl ((htonl m.len ++ htonl m.type).drop 4) = m.type := by
            rw [List.drop_left' (htonl_length m.len)]
            simpa using ntohl_htonl m.type []
          simp only [ntohl_htonl, htype, TMessage.len_toNat]
          by_cases hfit : m.Fits
          · rw [if_neg (Nat.not_lt.mpr hfit)]
            have hbody := readDataTcp_moved hmoves [] (m.payload ++ rest)
              (Nat.zero_le m.payload.length)
            rw [List.nil_append] at hbody
            cases hpay : readDataTcp m.payload.length script' []
                (m.payload ++ rest) with
            | returned payload script'' stream' =>
                rw [hpay] at hbody
                cases hbody with
                | returned hplen hpbytes hpmoves =>
                    -- and the next `Len` bytes its payload
                    obtain ⟨rfl, rfl⟩ := List.append_inj hpbytes hplen
                    exact .dispatch hfit hpmoves
                      (Nat.lt_of_le_of_lt (readDataTcp_script_le hpay) hlt)
            | waiting unread =>
                rw [hpay] at hbody
                cases hbody with
                | waiting hplen hpbytes =>
                    have htotal := congrArg List.length hpbytes
                    simp only [List.length_append] at htotal
                    exact .stopped (by omega)
            | failed unread => rw [hpay] at hbody; cases hbody
            | exited unread => rw [hpay] at hbody; cases hbody
          · rw [if_pos (Nat.not_le.mp hfit)]
            exact .oversized hfit hmoves hlt
  | waiting unread =>
      rw [hread] at hmoved
      cases hmoved with
      | waiting hlen hbytes =>
          have htotal := congrArg List.length hbytes
          simp only [List.length_append, TMessage.encode_length] at htotal
          have hhdr : sizeofHeader = 8 := rfl
          exact .stopped (by omega)
  | failed unread => rw [hread] at hmoved; cases hmoved
  | exited unread => rw [hread] at hmoved; cases hmoved

/-- A round on an empty stream waits for its first byte. -/
theorem receive_nil {script : List SslRet} (hscript : ∀ r ∈ script, r.Moves) :
    receive script [] = .stopped false .waiting [] := by
  have hmoved := readDataTcp_moved hscript [] [] (Nat.zero_le sizeofHeader)
  rw [receive]
  cases hread : readDataTcp sizeofHeader script [] [] with
  | returned hdr script' stream =>
      rw [hread] at hmoved
      cases hmoved with
      | returned hlen hbytes _ =>
          obtain ⟨rfl, -⟩ := List.append_eq_nil_iff.mp hbytes
          cases hlen
  | waiting unread =>
      rw [hread] at hmoved
      cases hmoved with
      | waiting _ hbytes =>
          obtain ⟨-, rfl⟩ := List.append_eq_nil_iff.mp hbytes
          rfl
  | failed unread => rw [hread] at hmoved; cases hmoved
  | exited unread => rw [hread] at hmoved; cases hmoved

/-! ## The loop reads on

    A round that stops for lack of answers has used up a positive one for each byte, so the
    loop reads any stream to its end, whatever is in it. -/

/-- As `ReadEnd.behind`, for a round. -/
def Receive.behind : Receive → Nat
  | .dispatch _ script stream | .oversized script stream => stream.length - reads script
  | .stopped _ _ stream => stream.length

/-- What is left of the answers after a round. -/
def Receive.Leaves (script : List SslRet) : Receive → Prop
  | .dispatch _ script' _ | .oversized script' _ =>
      script'.length < script.length ∧ ∀ r ∈ script', r.Moves
  | .stopped _ _ _ => True

/-- A round reads on, on any stream. -/
theorem receive_behind {script : List SslRet} (hscript : ∀ r ∈ script, r.Moves)
    (stream : Bytes) :
    (receive script stream).behind ≤ stream.length - reads script
      ∧ (receive script stream).Leaves script := by
  have hmoved := readDataTcp_moved hscript [] stream (Nat.zero_le sizeofHeader)
  have hbehind : (readDataTcp sizeofHeader script [] stream).behind
      ≤ stream.length - reads script := readDataTcp_behind hscript [] stream
  rw [receive]
  cases hread : readDataTcp sizeofHeader script [] stream with
  | returned hdr script' stream' =>
      rw [hread] at hmoved hbehind
      have hlt : script'.length < script.length := readDataTcp_script_lt (by decide) hread
      cases hmoved with
      | returned _ _ hmoves =>
          dsimp only
          by_cases hfit : sizeofData < (ntohl hdr).toNat
          · rw [if_pos hfit]
            exact ⟨hbehind, hlt, hmoves⟩
          rw [if_neg hfit]
          have hpayload : (readDataTcp (ntohl hdr).toNat script' [] stream').behind
              ≤ stream.length - reads script :=
            Nat.le_trans (readDataTcp_behind hmoves [] stream') hbehind
          have hbody := readDataTcp_moved hmoves [] stream'
            (Nat.zero_le (ntohl hdr).toNat)
          cases hpay : readDataTcp (ntohl hdr).toNat script' [] stream' with
          | returned payload script'' stream'' =>
              rw [hpay] at hpayload hbody
              cases hbody with
              | returned _ _ hmoves' =>
                  exact ⟨hpayload,
                    Nat.lt_of_le_of_lt (readDataTcp_script_le hpay) hlt, hmoves'⟩
          | waiting unread => rw [hpay] at hpayload; exact ⟨hpayload, trivial⟩
          | failed unread => rw [hpay] at hpayload; exact ⟨hpayload, trivial⟩
          | exited unread => rw [hpay] at hpayload; exact ⟨hpayload, trivial⟩
  | waiting unread => rw [hread] at hbehind; exact ⟨hbehind, trivial⟩
  | failed unread => rw [hread] at hbehind; exact ⟨hbehind, trivial⟩
  | exited unread => rw [hread] at hbehind; exact ⟨hbehind, trivial⟩

/-- **Progress of the loop.**  For every positive answer a byte is read, on any stream. -/
theorem networkInputLoop_unread {fuel : Nat} {script : List SslRet}
    (hscript : ∀ r ∈ script, r.Moves) (hfuel : script.length < fuel) (stream : Bytes) :
    (networkInputLoop fuel script stream).2.length ≤ stream.length - reads script := by
  -- the rounds use the answers up, so the fuel lasts
  induction fuel generalizing script stream with
  | zero => exact absurd hfuel (Nat.not_lt_zero _)
  | succ fuel ih =>
      obtain ⟨hbehind, hleaves⟩ := receive_behind hscript stream
      rw [networkInputLoop_succ]
      cases hr : receive script stream with
      | dispatch buffer script' stream' =>
          rw [hr] at hbehind hleaves
          exact Nat.le_trans (ih hleaves.2 (by have := hleaves.1; omega) stream') hbehind
      | oversized script' stream' =>
          rw [hr] at hbehind hleaves
          exact Nat.le_trans (ih hleaves.2 (by have := hleaves.1; omega) stream') hbehind
      | stopped headerRead why unread =>
          rw [hr] at hbehind
          exact hbehind

/-- With an answer for each byte, the whole stream is read. -/
theorem networkInputThread_reads {script : List SslRet} (hscript : ∀ r ∈ script, r.Moves)
    {stream : Bytes} (hreads : stream.length ≤ reads script) :
    (networkInputThread script stream).2 = [] := by
  have hunread : (networkInputThread script stream).2.length ≤ stream.length - reads script :=
    networkInputLoop_unread hscript (Nat.lt_succ_self script.length) stream
  exact List.eq_nil_of_length_eq_zero (by omega)

/-! ## Messages that fit come through exactly -/

/-- `buffer` holds `m`: header in host order, payload, and the fill byte
    everywhere behind it. -/
def Holds (m : TMessage) (buffer : TBuffer) : Prop :=
  buffer.len.toNat = m.payload.length ∧ buffer.type = m.type
    ∧ buffer.data
      = m.payload ++ List.replicate (sizeofData - m.payload.length) 0xFF

theorem holds_buffer {m : TMessage} (h : m.Fits) : Holds m m.buffer :=
  ⟨m.len_toNat, rfl, TMessage.buffer_data h⟩

@[simp] theorem dispatched_header (n : Nat) (es : List Event) :
    dispatched (.header n :: es) = dispatched es := rfl

@[simp] theorem dispatched_dispatch (b : TBuffer) (es : List Event) :
    dispatched (.dispatch b :: es) = b :: dispatched es := rfl

/-- The loop on messages that fit: it has dispatched a prefix of them, and of
    the next one at least a byte is unread. -/
theorem networkInputLoop_framing {ms : List TMessage}
    (hms : ∀ m ∈ ms, m.Fits) {fuel : Nat} {script : List SslRet}
    (hscript : ∀ r ∈ script, r.Moves) (hfuel : script.length < fuel) :
    ∃ delivered rest, ms = delivered ++ rest
      ∧ List.Forall₂ Holds delivered
          (dispatched (networkInputLoop fuel script (encodeAll ms)).1)
      ∧ ∀ m tail, rest = m :: tail → (encodeAll tail).length
          < (networkInputLoop fuel script (encodeAll ms)).2.length := by
  -- a round for each message; it uses up an answer, so the fuel lasts
  induction ms generalizing fuel script with
  | nil =>
      refine ⟨[], [], rfl, ?_, by rintro _ _ ⟨⟩⟩
      cases fuel with
      | zero => exact .nil
      | succ fuel =>
          rw [networkInputLoop_succ, show encodeAll [] = [] from rfl,
            receive_nil hscript]
          exact .nil
  | cons m ms ih =>
      cases fuel with
      | zero => exact absurd hfuel (Nat.not_lt_zero _)
      | succ fuel =>
          have hround := receive_encode m (encodeAll ms) hscript
          rw [encodeAll_cons, networkInputLoop_succ]
          cases hr : receive script (m.encode ++ encodeAll ms) with
          | dispatch buffer script' stream =>
              rw [hr] at hround
              cases hround with
              | dispatch hfit hmoves hlt =>
                  obtain ⟨delivered, rest, hsplit, hholds, hnext⟩ :=
                    ih (fun q hq => hms q (List.mem_cons_of_mem m hq)) hmoves
                      (by omega : script'.length < fuel)
                  refine ⟨m :: delivered, rest, ?_, ?_, hnext⟩
                  · rw [hsplit, List.cons_append]
                  · exact .cons (holds_buffer hfit) hholds
          | oversized script' stream =>
              rw [hr] at hround
              cases hround with
              | oversized hfit =>
                  exact absurd (hms m (List.mem_cons_self ..)) hfit
          | stopped headerRead why unread =>
              rw [hr] at hround
              cases hround with
              | stopped hunread =>
                  -- nothing of `m` or behind it is delivered
                  refine ⟨[], m :: ms, rfl, ?_, ?_⟩
                  · cases headerRead <;> exact .nil
                  · rintro m' tail heq
                    obtain ⟨-, rfl⟩ := List.cons.inj heq
                    exact hunread

/-- Once the stream is read nothing is left to be delivered. -/
theorem rest_eq_nil {rest : List TMessage} {unread : Bytes}
    (hnext : ∀ m tail, rest = m :: tail → (encodeAll tail).length < unread.length)
    (hall : unread = []) : rest = [] := by
  cases rest with
  | nil => rfl
  | cons m tail =>
      have hlt := hnext m tail rfl
      rw [hall] at hlt
      exact absurd hlt (Nat.not_lt_zero _)

/-- **Inbound framing is exact.**  For every list of messages that fit and
    every way the stream is split, at every moment the buffers that reached
    the dispatch hold the delivered messages one for one, in order; a message
    counts as delivered as soon as its last byte was read, every positive
    answer reads a byte, and so with as many of them as there are bytes all
    messages are delivered. -/
theorem inbound_framing (ms : List TMessage) (hms : ∀ m ∈ ms, m.Fits)
    (script : List SslRet) (hscript : ∀ r ∈ script, r.Moves) :
    ∃ delivered rest, ms = delivered ++ rest
      ∧ List.Forall₂ Holds delivered
          (dispatched (networkInputThread script (encodeAll ms)).1)
      ∧ (∀ m tail, rest = m :: tail → (encodeAll tail).length
          < (networkInputThread script (encodeAll ms)).2.length)
      ∧ (networkInputThread script (encodeAll ms)).2.length
          ≤ (encodeAll ms).length - reads script
      ∧ ((networkInputThread script (encodeAll ms)).2 = [] → delivered = ms)
      ∧ ((encodeAll ms).length ≤ reads script →
          (networkInputThread script (encodeAll ms)).2 = [] ∧ delivered = ms) := by
  obtain ⟨delivered, rest, hsplit, hholds, hnext⟩ :=
    networkInputLoop_framing hms hscript (Nat.lt_succ_self script.length)
  have hdelivered : (networkInputThread script (encodeAll ms)).2 = [] → delivered = ms := by
    intro hall
    rw [hsplit, rest_eq_nil hnext hall, List.append_nil]
  refine ⟨delivered, rest, hsplit, hholds, hnext,
    networkInputLoop_unread hscript (Nat.lt_succ_self script.length) _, hdelivered,
    fun hreads => ?_⟩
  have hall := networkInputThread_reads hscript hreads
  exact ⟨hall, hdelivered hall⟩

/-- Two commands and a pre-arm code in one stream, read in odd pieces with
    retries in between. -/
def splitExample : List TMessage :=
  [⟨mtCommands, [0x10], by decide⟩, ⟨mtStateChangeReq, [], by decide⟩,
    ⟨mtPrearm, [0x31, 0x32, 0x00], by decide⟩]

/-- In odd pieces at first, then byte by byte. -/
def splitScript : List SslRet :=
  [.wantRead, .bytes 2, .bytes 9, .wantWrite, .bytes 0, .bytes 6, .bytes 0,
    .wantRead, .bytes 20, .bytes 20] ++ List.replicate 300 (.bytes 0)

theorem splitScript_moves : ∀ r ∈ splitScript, r.Moves := by decide +kernel

/-- All three reach the dispatch. -/
theorem inbound_framing_splitExample :
    (networkInputThread splitScript (encodeAll splitExample)).2 = []
      ∧ List.Forall₂ Holds splitExample (dispatched
          (networkInputThread splitScript (encodeAll splitExample)).1) := by
  obtain ⟨delivered, rest, -, hholds, -, -, -, hall⟩ :=
    inbound_framing splitExample (by decide) splitScript splitScript_moves
  obtain ⟨hend, rfl⟩ := hall (by decide +kernel)
  exact ⟨hend, hholds⟩

/-! ## A message that does not fit

    The length check of `NetworkInputThread` leaves the payload of a refused
    message on the stream, and the next round takes its first eight bytes for
    a header. -/

/-- Where headers were read, as unread bytes counted before each. -/
def headersAt (events : List Event) : List Nat :=
  events.filterMap fun
    | .header unread => some unread
    | .dispatch _ => none

@[simp] theorem headersAt_header (n : Nat) (es : List Event) :
    headersAt (.header n :: es) = n :: headersAt es := rfl

@[simp] theorem headersAt_dispatch (b : TBuffer) (es : List Event) :
    headersAt (.dispatch b :: es) = headersAt es := rfl

/-- Where the headers of `ms` start, in the same count. -/
def headerPositions : List TMessage → List Nat
  | [] => []
  | m :: ms => (encodeAll (m :: ms)).length :: headerPositions ms

/-- Recovery as it is meant: the messages that fit are dispatched, in order
    and nothing else, and every header read is the header of a message. -/
def Recovers (ms : List TMessage) (events : List Event) : Prop :=
  dispatched events = (ms.filter fun m => decide m.Fits).map TMessage.buffer
    ∧ headersAt events = headerPositions ms

instance (ms : List TMessage) (events : List Event) :
    Decidable (Recovers ms events) :=
  inferInstanceAs (Decidable (_ ∧ _))

/-- On a stream that is read to its end, the first round reads a header at the
    very start. -/
theorem headersAt_starts {fuel : Nat} {script : List SslRet}
    (hscript : ∀ r ∈ script, r.Moves) {stream : Bytes}
    (hlen : sizeofHeader ≤ stream.length)
    (hall : (networkInputLoop fuel script stream).2 = []) :
    ∃ later, headersAt (networkInputLoop fuel script stream).1
      = stream.length :: later := by
  cases fuel with
  | zero =>
      change stream = [] at hall
      rw [hall] at hlen
      exact absurd hlen (by decide)
  | succ fuel =>
      have hmoved := readDataTcp_moved hscript [] stream
        (Nat.zero_le sizeofHeader)
      rw [List.nil_append] at hmoved
      rw [networkInputLoop_succ] at hall ⊢
      cases hr : receive script stream with
      | dispatch buffer script' stream' => exact ⟨_, rfl⟩
      | oversized script' stream' => exact ⟨_, rfl⟩
      | stopped headerRead why unread =>
          cases headerRead with
          | true => exact ⟨[], rfl⟩
          | false =>
              exfalso
              rw [hr] at hall
              change unread = [] at hall
              subst hall
              -- Without a header the read itself stopped, with bytes missing.
              rw [receive] at hr
              cases hread : readDataTcp sizeofHeader script [] stream with
              | returned hdr script' stream' =>
                  simp only [hread] at hr
                  split at hr
                  · cases hr
                  · split at hr <;> cases hr
              | waiting unread =>
                  rw [hread] at hmoved
                  simp only [hread, Receive.stopped.injEq] at hr
                  cases hmoved with
                  | waiting hshort hbytes =>
                      have htotal := congrArg List.length hbytes
                      rw [hr.2.2] at htotal
                      simp only [List.length_append, List.length_nil] at htotal
                      omega
              | failed unread => rw [hread] at hmoved; cases hmoved
              | exited unread => rw [hread] at hmoved; cases hmoved

/-- The loop read to its end recovers exactly when there was nothing to
    recover from. -/
theorem networkInputLoop_recovers_iff (ms : List TMessage) {fuel : Nat}
    {script : List SslRet} (hscript : ∀ r ∈ script, r.Moves)
    (hfuel : script.length < fuel)
    (hall : (networkInputLoop fuel script (encodeAll ms)).2 = []) :
    Recovers ms (networkInputLoop fuel script (encodeAll ms)).1
      ↔ ∀ m ∈ ms, m.Fits := by
  induction ms generalizing fuel script with
  | nil =>
      refine ⟨fun _ => List.forall_mem_nil _, fun _ => ?_⟩
      cases fuel with
      | zero => exact ⟨rfl, rfl⟩
      | succ fuel =>
          rw [networkInputLoop_succ, show encodeAll [] = [] from rfl,
            receive_nil hscript]
          exact ⟨rfl, rfl⟩
  | cons m ms ih =>
      cases fuel with
      | zero => exact absurd hfuel (Nat.not_lt_zero _)
      | succ fuel =>
          have hround := receive_encode m (encodeAll ms) hscript
          rw [encodeAll_cons, networkInputLoop_succ] at hall ⊢
          cases hr : receive script (m.encode ++ encodeAll ms) with
          | dispatch buffer script' stream =>
              rw [hr] at hround hall
              cases hround with
              | dispatch hfit hmoves hlt =>
                  have ih' := ih hmoves (by omega : script'.length < fuel) hall
                  rw [List.forall_mem_cons, ← ih']
                  simp only [Recovers, dispatched_header, dispatched_dispatch,
                    headersAt_header, headersAt_dispatch, headerPositions,
                    encodeAll_cons, hfit, decide_true, List.filter_cons_of_pos,
                    List.map_cons, List.cons.injEq, true_and]
          | oversized script' stream =>
              rw [hr] at hround hall
              cases hround with
              | oversized hfit hmoves hlt =>
                  -- The next header is read inside the refused payload.
                  have hlong : sizeofHeader
                      ≤ (m.payload ++ encodeAll ms).length := by
                    rw [TMessage.Fits, Nat.not_le] at hfit
                    have h1 : sizeofHeader = 8 := rfl
                    have h2 : sizeofData = 504 := rfl
                    rw [List.length_append]
                    omega
                  obtain ⟨later, hlater⟩ := headersAt_starts hmoves hlong hall
                  refine ⟨fun hrec => absurd hrec.2 ?_,
                    fun h => absurd (h m (List.mem_cons_self ..)) hfit⟩
                  rw [headersAt_header, hlater, headerPositions]
                  intro heq
                  obtain ⟨-, heq'⟩ := List.cons.inj heq
                  cases ms with
                  | nil => cases heq'
                  | cons m' ms' =>
                      have hpos := (List.cons.inj heq').1
                      rw [TMessage.Fits, Nat.not_le] at hfit
                      rw [List.length_append] at hpos
                      omega
          | stopped headerRead why unread =>
              rw [hr] at hround hall
              cases hround with
              | stopped hunread =>
                  -- the stream was read to its end, so no byte was waited for
                  rw [show unread = [] from hall] at hunread
                  exact absurd hunread (Nat.not_lt_zero _)

/-- **Recovery from an oversized message.**  Every stream of well-formed
    messages, of any lengths, is read to its end when OpenSSL gives a positive
    answer for each of its bytes; and whenever it has been, the reader has
    dispatched exactly the messages that fit and read headers only where
    messages start, if and only if all messages fit: a single message beyond
    the room of `Buffer` puts the reader out of step. -/
theorem oversized_recovers_iff (ms : List TMessage) (script : List SslRet)
    (hscript : ∀ r ∈ script, r.Moves) :
    ((encodeAll ms).length ≤ reads script →
        (networkInputThread script (encodeAll ms)).2 = [])
      ∧ ((networkInputThread script (encodeAll ms)).2 = [] →
        (Recovers ms (networkInputThread script (encodeAll ms)).1
          ↔ ∀ m ∈ ms, m.Fits)) :=
  ⟨networkInputThread_reads hscript,
    networkInputLoop_recovers_iff ms hscript (Nat.lt_succ_self script.length)⟩

theorem oversized_recovers_iff_splitExample :
    Recovers splitExample
        (networkInputThread splitScript (encodeAll splitExample)).1
      ↔ ∀ m ∈ splitExample, m.Fits := by
  obtain ⟨hend, hiff⟩ :=
    oversized_recovers_iff splitExample splitScript splitScript_moves
  exact hiff (hend (by decide +kernel))

/-- `FIRE_START` as a message of its own. -/
def fireStartMessage : TMessage := ⟨mtCommands, [0x10], by decide⟩

/-- A message of 513 payload bytes that starts with another message. -/
def smuggled : TMessage :=
  ⟨mtText, fireStartMessage.encode ++ List.replicate 504 0xFF, by
    decide +kernel⟩

/-- Reads that return all they are asked for. -/
def wholeReads : List SslRet := List.replicate 80 (.bytes 511)

/-- The refused payload is executed: the one message on the stream does not
    fit, and yet the fire command inside it reaches the dispatch. -/
theorem oversized_dispatches_payload :
    (networkInputThread wholeReads (encodeAll [smuggled])).2 = []
      ∧ dispatched (networkInputThread wholeReads (encodeAll [smuggled])).1
        = [fireStartMessage.buffer]
      ∧ ¬ Recovers [smuggled]
          (networkInputThread wholeReads (encodeAll [smuggled])).1 := by
  decide +kernel

end DemoCannon
