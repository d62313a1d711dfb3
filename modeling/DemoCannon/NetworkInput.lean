import DemoCannon.NetworkTcp

/-! # The reading half of `NetworkInputThread`

    Each round of the thread's loop fills its 512-byte `Buffer` with `0xFF`,
    reads a header into it, turns the header to host order, refuses a length
    that does not fit, reads the payload behind the header and dispatches.
    This file is the loop up to the dispatch; the handlers come later. -/

namespace DemoCannon

/-- `sizeof(TMesssageHeader)`. -/
def sizeofHeader : Nat := 8

/-- `sizeof(Buffer) - sizeof(TMesssageHeader)`, the room for a payload. -/
def sizeofData : Nat := 504

/-- Write `new` over the start of `mem`, without leaving it. -/
def overwrite (mem new : Bytes) : Bytes :=
  (new ++ mem.drop new.length).take mem.length

@[simp] theorem overwrite_length (mem new : Bytes) :
    (overwrite mem new).length = mem.length := by
  rw [overwrite, List.length_take, List.length_append, List.length_drop]
  omega

/-- What fits is written whole and the rest of the memory is kept. -/
theorem overwrite_of_le {mem new : Bytes} (h : new.length ≤ mem.length) :
    overwrite mem new = new ++ mem.drop new.length := by
  rw [overwrite]
  apply List.take_of_length_le
  rw [List.length_append, List.length_drop]
  omega

/-- `Buffer` as the dispatch sees it: the header in host order and the 504
    bytes behind it. -/
structure TBuffer where
  len : BitVec 32
  type : BitVec 32
  data : Bytes
  data_length : data.length = sizeofData
  deriving DecidableEq

/-- `memset(Buffer, 0xFF, sizeof(Buffer))` behind the header. -/
def memsetData : Bytes := List.replicate sizeofData 0xFF

/-- The buffer after header and payload have been read into it. -/
def TBuffer.fill (len type : BitVec 32) (payload : Bytes) : TBuffer where
  len := len
  type := type
  data := overwrite memsetData payload
  data_length := by
    rw [overwrite_length, memsetData, List.length_replicate]

/-- The buffer with `bytes` written at an offset behind the header. -/
def TBuffer.put (b : TBuffer) (offset : Nat) (bytes : Bytes) : TBuffer :=
  { b with
    data := b.data.take offset ++ overwrite (b.data.drop offset) bytes
    data_length := by
      rw [List.length_append, overwrite_length, ← List.length_append,
        List.take_append_drop, b.data_length] }

/-- Why the loop does not go on to another round. -/
inductive Stop where
  /-- It is waiting for bytes. -/
  | waiting
  /-- A read failed and the loop is left. -/
  | lost
  /-- The process has ended. -/
  | exited
  deriving DecidableEq, Repr

/-- What a round of the loop comes to. -/
inductive Receive where
  | dispatch (buffer : TBuffer) (script : List SslRet) (stream : Bytes)
  /-- The length check failed: `continue`. -/
  | oversized (script : List SslRet) (stream : Bytes)
  /-- No further round; `headerRead` says whether a header was complete. -/
  | stopped (headerRead : Bool) (why : Stop) (stream : Bytes)
  deriving DecidableEq

/-- A round of the loop of `NetworkInputThread`, up to the dispatch. -/
def receive (script : List SslRet) (stream : Bytes) : Receive :=
  match readDataTcp sizeofHeader script [] stream with
  | .returned hdr script stream =>
      let len := ntohl hdr
      let type := ntohl (hdr.drop 4)
      -- the payload of a refused message stays on the stream
      if sizeofData < len.toNat then .oversized script stream
      else
        match readDataTcp len.toNat script [] stream with
        | .returned payload script stream =>
            .dispatch (.fill len type payload) script stream
        | .failed stream => .stopped true .lost stream
        | .exited stream => .stopped true .exited stream
        | .waiting stream => .stopped true .waiting stream
  | .failed stream => .stopped false .lost stream
  | .exited stream => .stopped false .exited stream
  | .waiting stream => .stopped false .waiting stream

/-- What is observed of the loop. -/
inductive Event where
  /-- Eight bytes were taken for a header, `unread` bytes of the stream being
      unread before them. -/
  | header (unread : Nat)
  /-- A buffer reached the dispatch. -/
  | dispatch (buffer : TBuffer)
  deriving DecidableEq

/-- The loop of `NetworkInputThread` for at most `fuel` rounds: its events and
    the bytes still unread when it stops. -/
def networkInputLoop : Nat → List SslRet → Bytes → List Event × Bytes
  | 0, _, stream => ([], stream)
  | fuel + 1, script, stream =>
      match receive script stream with
      | .dispatch buffer script' stream' =>
          let rest := networkInputLoop fuel script' stream'
          (.header stream.length :: .dispatch buffer :: rest.1, rest.2)
      | .oversized script' stream' =>
          let rest := networkInputLoop fuel script' stream'
          (.header stream.length :: rest.1, rest.2)
      | .stopped headerRead _ stream' =>
          (if headerRead then [.header stream.length] else [], stream')

theorem networkInputLoop_succ (fuel : Nat) (script : List SslRet)
    (stream : Bytes) :
    networkInputLoop (fuel + 1) script stream
      = match receive script stream with
        | .dispatch buffer script' stream' =>
            (.header stream.length :: .dispatch buffer
              :: (networkInputLoop fuel script' stream').1,
              (networkInputLoop fuel script' stream').2)
        | .oversized script' stream' =>
            (.header stream.length :: (networkInputLoop fuel script' stream').1,
              (networkInputLoop fuel script' stream').2)
        | .stopped headerRead _ stream' =>
            (if headerRead then [.header stream.length] else [], stream') := rfl

/-- `NetworkInputThread` on the bytes of a connection.  A round that is not
    the last uses up an answer of OpenSSL, so there are no more rounds than
    answers. -/
def networkInputThread (script : List SslRet) (stream : Bytes) :
    List Event × Bytes :=
  networkInputLoop (script.length + 1) script stream

/-- The buffers among the events. -/
def dispatched (events : List Event) : List TBuffer :=
  events.filterMap fun
    | .header _ => none
    | .dispatch buffer => some buffer

/-- A message as a client puts it on the connection. -/
structure TMessage where
  type : BitVec 32
  payload : Bytes
  /-- The length field can hold the length. -/
  payload_lt : payload.length < UInt32.size

/-- The `Len` field. -/
def TMessage.len (m : TMessage) : BitVec 32 := .ofNat 32 m.payload.length

/-- Header in network order, then the payload. -/
def TMessage.encode (m : TMessage) : Bytes :=
  htonl m.len ++ (htonl m.type ++ m.payload)

/-- The bytes of a list of messages. -/
def encodeAll (ms : List TMessage) : Bytes := ms.flatMap TMessage.encode

/-- The buffer that holds exactly `m`. -/
def TMessage.buffer (m : TMessage) : TBuffer := .fill m.len m.type m.payload

@[simp] theorem TMessage.len_toNat (m : TMessage) :
    m.len.toNat = m.payload.length := by
  rw [len, BitVec.toNat_ofNat]
  exact Nat.mod_eq_of_lt m.payload_lt

@[simp] theorem TMessage.encode_length (m : TMessage) :
    m.encode.length = 8 + m.payload.length := by
  simp [encode]
  omega

@[simp] theorem encodeAll_cons (m : TMessage) (ms : List TMessage) :
    encodeAll (m :: ms) = m.encode ++ encodeAll ms := List.flatMap_cons

/-- Behind a payload that fits, the buffer holds nothing but the fill
    bytes. -/
theorem TMessage.buffer_data {m : TMessage} (h : m.payload.length ≤ sizeofData) :
    m.buffer.data
      = m.payload ++ List.replicate (sizeofData - m.payload.length) 0xFF := by
  have hfit : m.payload.length ≤ memsetData.length := by
    rw [memsetData, List.length_replicate]
    exact h
  have hdrop : memsetData.drop m.payload.length
      = List.replicate (sizeofData - m.payload.length) 0xFF := by
    rw [memsetData, List.drop_replicate]
  simp only [buffer, TBuffer.fill, overwrite_of_le hfit, hdrop]

end DemoCannon
