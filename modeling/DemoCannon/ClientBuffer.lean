import DemoCannon.Lib.Run
import DemoCannon.ThreadClient

/-! # The client's receive buffer

    The bytes that are still needed and the size of the buffer are unsigned,
    the sum that is compared with the size and the new size are of the width of
    `size_t`, and the length that `ReadDataTls` is called with is an `int`.  For
    a header that announces less than 2 GiB none of these wraps, and for any
    other the length is negative and nothing is read (`sslRead_within`). -/

namespace DemoCannon

open Interaction

/-- The width of `size_t`. -/
inductive SizeT where
  | bits32
  | bits64
  deriving DecidableEq, Repr

def SizeT.bits : SizeT → Nat
  | .bits32 => 32
  | .bits64 => 64

/-- `InputBytesNeeded + sizeof(TMesssageHeader)`. -/
def SizeT.withHeader (w : SizeT) (inputBytesNeeded : BitVec 32) : BitVec w.bits :=
  inputBytesNeeded.setWidth w.bits + BitVec.ofNat w.bits sizeofHeader

/-- What `CurrentInputBufferSize` becomes for a message that does not fit. -/
def SizeT.newSize (w : SizeT) (inputBytesNeeded : BitVec 32) : BitVec 32 :=
  (w.withHeader inputBytesNeeded + BitVec.ofNat w.bits (10 * 1024)).setWidth 32

section Widths

variable {w : SizeT} {len : BitVec 32}

theorem withHeader_bits64 (len : BitVec 32) :
    (SizeT.bits64.withHeader len).toNat = len.toNat + sizeofHeader := by
  have hlen := len.isLt
  rw [SizeT.withHeader, BitVec.toNat_add, BitVec.toNat_setWidth, BitVec.toNat_ofNat,
    sizeofHeader, SizeT.bits]
  omega

/-- For less than 2 GiB the sum wraps in neither width. -/
theorem withHeader_of_int (w : SizeT) (h : len.toNat < 0x80000000) :
    (w.withHeader len).toNat = len.toNat + sizeofHeader := by
  cases w with
  | bits32 =>
      rw [SizeT.withHeader, BitVec.toNat_add, BitVec.toNat_setWidth, BitVec.toNat_ofNat,
        sizeofHeader, SizeT.bits]
      omega
  | bits64 => exact withHeader_bits64 len

/-- The comparison with the size is one of numbers where the sum does not wrap. -/
theorem setWidth_lt_withHeader_iff (size : BitVec 32)
    (hw : (w.withHeader len).toNat = len.toNat + sizeofHeader) :
    size.setWidth w.bits < w.withHeader len ↔ size.toNat < len.toNat + sizeofHeader := by
  have hsize : (size.setWidth w.bits).toNat = size.toNat := by
    rw [BitVec.toNat_setWidth]
    refine Nat.mod_eq_of_lt (Nat.lt_of_lt_of_le size.isLt ?_)
    cases w <;> decide
  rw [BitVec.lt_def, hsize, hw]

/-- The new size is cut to 32 bits, whatever the width of the sum. -/
theorem toNat_newSize (w : SizeT) (len : BitVec 32) :
    (w.newSize len).toNat = (len.toNat + sizeofHeader + 10 * 1024) % UInt32.size := by
  rw [SizeT.newSize, SizeT.withHeader, BitVec.toNat_setWidth, BitVec.toNat_add,
    BitVec.toNat_add, BitVec.toNat_setWidth, BitVec.toNat_ofNat, BitVec.toNat_ofNat,
    sizeofHeader, UInt32.size]
  cases w with
  | bits32 =>
      rw [SizeT.bits]
      omega
  | bits64 =>
      rw [SizeT.bits]
      omega

example : SizeT.bits64.newSize 0xffffd7f8 = 0 := by decide

/-- What is taken off the bytes needed does not wrap. -/
theorem toNat_sub_ofNat {n : Nat} (h : n ≤ len.toNat) :
    (len - BitVec.ofNat 32 n).toNat = len.toNat - n := by
  have hn : (BitVec.ofNat 32 n).toNat = n := by
    rw [BitVec.toNat_ofNat]
    exact Nat.mod_eq_of_lt (Nat.lt_of_le_of_lt h len.isLt)
  have hle : BitVec.ofNat 32 n ≤ len := by
    rw [BitVec.le_def, hn]
    exact h
  rw [BitVec.toNat_sub_of_le hle, hn]

end Widths

/-- Where `ThreadClient` is. -/
inductive ClientPc where
  /-- In `WaitForMultipleObjects`. -/
  | waiting
  /-- At the `SSL_read` of `ReadDataTls`. -/
  | reading (totalBytesRead : Nat)
  /-- At the `realloc` of the loop. -/
  | reallocating
  /-- The loop has been left. -/
  | left
  /-- `ExitProcess`. -/
  | exited
  deriving DecidableEq, Repr

/-- The variables of `ThreadClient`, and the block at `InputBuffer`. -/
structure ClientBuffer where
  mode : InputMode := .msgHeader
  inputBytesNeeded : BitVec 32 := BitVec.ofNat 32 sizeofHeader
  currentInputBufferSize : BitVec 32 := BitVec.ofNat 32 (1024 * 10)
  /-- The memory that was last allocated. -/
  inputBuffer : Bytes := List.replicate (1024 * 10) 0
  /-- `InputBufferWithOffset - InputBuffer`. -/
  offset : Nat := 0
  pc : ClientPc := .waiting
  /-- Header and message in the buffer at each call of `ProcessMessage`. -/
  processed : List Bytes := []

/-- What the thread meets outside. -/
inductive ClientEvent where
  /-- `FD_READ` is signalled. -/
  | fdRead
  /-- Anything else that the loop goes on after. -/
  | other
  /-- `hEndClientEvent` or `FD_CLOSE`. -/
  | endClient
  /-- `SSL_read` writes `got` and returns its length. -/
  | sslRead (got : Bytes)
  /-- `SSL_read` fails with `SSL_ERROR_WANT_READ`. -/
  | wantRead
  /-- `SSL_read` fails with any other error. -/
  | sslError
  /-- `realloc` returns a block of the size it is asked for, or `NULL`. -/
  | realloc (succeeds : Bool)

namespace ClientBuffer

/-- The first `realloc` of the thread succeeds, or ends the process. -/
def start (succeeds : Bool) : ClientBuffer :=
  { pc := if succeeds then .waiting else .exited }

/-- `(int)InputBytesNeeded`, the `length` of `ReadDataTls`. -/
def length (b : ClientBuffer) : Int := b.inputBytesNeeded.toInt

/-- What the thread does when `realloc` has not returned `NULL`. -/
def reallocated (b : ClientBuffer) : ClientBuffer :=
  { b with
    inputBuffer := realloc b.inputBuffer b.currentInputBufferSize.toNat
    offset := sizeofHeader
    pc := .waiting }

/-- What the thread does with a header. -/
def receivedHeader (w : SizeT) (b : ClientBuffer) : ClientBuffer :=
  let len := ntohl b.inputBuffer
  let b := { b with offset := sizeofHeader, inputBytesNeeded := len, mode := .msg }
  if b.currentInputBufferSize.setWidth w.bits < w.withHeader len then
    { b with currentInputBufferSize := w.newSize len, pc := .reallocating }
  else { b with pc := .waiting }

/-- What the thread does with a message. -/
def receivedMsg (b : ClientBuffer) : ClientBuffer :=
  -- the message is as long as the header in the buffer says
  let len := (ntohl b.inputBuffer).toNat
  { b with
    processed := b.processed ++ [b.inputBuffer.take (sizeofHeader + len)]
    mode := .msgHeader
    inputBytesNeeded := BitVec.ofNat 32 sizeofHeader
    offset := 0
    pc := .waiting }

/-- What the thread does when `ReadData` has returned `iResult`. -/
def received (w : SizeT) (b : ClientBuffer) (iResult : Nat) : ClientBuffer :=
  if iResult = 0 then
    { b with
      mode := .msgHeader
      inputBytesNeeded := BitVec.ofNat 32 sizeofHeader
      offset := 0
      pc := .left }
  else
    let b := { b with
      inputBytesNeeded := b.inputBytesNeeded - BitVec.ofNat 32 iResult
      offset := b.offset + iResult }
    if b.inputBytesNeeded = 0 then
      match b.mode with
      | .msgHeader => b.receivedHeader w
      | .msg => b.receivedMsg
    else { b with pc := .waiting }

/-- `ReadDataTls` at the head of its loop. -/
def readDataTls (w : SizeT) (b : ClientBuffer) (totalBytesRead : Nat) : ClientBuffer :=
  if (totalBytesRead : Int) < b.length then { b with pc := .reading totalBytesRead }
  else b.received w totalBytesRead

/-- A step of the thread. -/
inductive Step (w : SizeT) (b : ClientBuffer) : ClientEvent → ClientBuffer → Prop where
  | fdRead (hpc : b.pc = .waiting) : Step w b .fdRead (b.readDataTls w 0)
  | other (hpc : b.pc = .waiting) : Step w b .other b
  | endClient (hpc : b.pc = .waiting) : Step w b .endClient { b with pc := .left }
  | sslRead {totalBytesRead : Nat} {got : Bytes} (hpc : b.pc = .reading totalBytesRead)
      (hgot : got ≠ []) (hle : (got.length : Int) ≤ b.length - totalBytesRead) :
      Step w b (.sslRead got)
        ({ b with inputBuffer := store b.inputBuffer (b.offset + totalBytesRead) got }.readDataTls
          w (totalBytesRead + got.length))
  | wantRead {totalBytesRead : Nat} (hpc : b.pc = .reading totalBytesRead) :
      Step w b .wantRead b
  | sslError {totalBytesRead : Nat} (hpc : b.pc = .reading totalBytesRead) :
      -- what has been read is not counted
      Step w b .sslError { b with pc := .waiting }
  | reallocated (hpc : b.pc = .reallocating) : Step w b (.realloc true) b.reallocated
  | noMemory (hpc : b.pc = .reallocating) : Step w b (.realloc false) { b with pc := .exited }

/-- The step that an event leads to. -/
def next (w : SizeT) (b : ClientBuffer) (e : ClientEvent) : Option ClientBuffer :=
  match b.pc, e with
  | .waiting, .fdRead => some (b.readDataTls w 0)
  | .waiting, .other => some b
  | .waiting, .endClient => some { b with pc := .left }
  | .reading totalBytesRead, .sslRead got =>
      if got ≠ [] ∧ (got.length : Int) ≤ b.length - totalBytesRead then
        let inputBuffer := store b.inputBuffer (b.offset + totalBytesRead) got
        some ({ b with inputBuffer := inputBuffer }.readDataTls w (totalBytesRead + got.length))
      else none
  | .reading _, .wantRead => some b
  | .reading _, .sslError => some { b with pc := .waiting }
  | .reallocating, .realloc true => some b.reallocated
  | .reallocating, .realloc false => some { b with pc := .exited }
  | _, _ => none

theorem step_of_next {w : SizeT} {b b' : ClientBuffer} {e : ClientEvent}
    (h : b.next w e = some b') : Step w b e b' := by
  unfold next at h
  split at h
  case h_1 hpc => cases h; exact .fdRead hpc
  case h_2 hpc => cases h; exact .other hpc
  case h_3 hpc => cases h; exact .endClient hpc
  case h_4 hpc =>
    split at h
    case isTrue hgot => cases h; exact .sslRead hpc hgot.1 hgot.2
    case isFalse => cases h
  case h_5 hpc => cases h; exact .wantRead hpc
  case h_6 hpc => cases h; exact .sslError hpc
  case h_7 hpc => cases h; exact .reallocated hpc
  case h_8 hpc => cases h; exact .noMemory hpc
  case h_9 => cases h

/-! ## What `SSL_read` may write -/

/-- The bytes of `InputBuffer` that `SSL_read` is let write: the first, and how many. -/
def mayWrite (b : ClientBuffer) : Option (Nat × Int) :=
  match b.pc with
  | .reading totalBytesRead => some (b.offset + totalBytesRead, b.length - totalBytesRead)
  | _ => none

/-- The block that was last allocated is as large as the thread believes. -/
def Allocated (b : ClientBuffer) : Prop :=
  b.inputBuffer.length = b.currentInputBufferSize.toNat

/-- What may be written lies in the block. -/
def Within (b : ClientBuffer) : Prop :=
  ∀ first num, b.mayWrite = some (first, num) →
    b.Allocated ∧ first + num ≤ b.currentInputBufferSize.toNat

/-- There is room for what is needed, unless it is too long to be read at all. -/
structure Ready (b : ClientBuffer) : Prop where
  header : b.mode = .msgHeader →
    b.offset = 0 ∧ b.inputBytesNeeded = BitVec.ofNat 32 sizeofHeader
  msg : b.mode = .msg → b.offset = sizeofHeader
  room : b.inputBytesNeeded.toNat < 0x80000000 →
    10 * 1024 ≤ b.currentInputBufferSize.toNat
      ∧ b.offset + b.inputBytesNeeded.toNat ≤ b.currentInputBufferSize.toNat

/-- The invariant of the thread. -/
def Sound (b : ClientBuffer) : Prop :=
  match b.pc with
  | .waiting => b.Allocated ∧ b.Ready
  | .reading totalBytesRead => b.Allocated ∧ b.Ready ∧ (totalBytesRead : Int) < b.length
  -- `CurrentInputBufferSize` is the size asked for
  | .reallocating => b.Ready ∧ b.mode = .msg
  | .left | .exited => True

variable {w : SizeT} {b b' : ClientBuffer} {e : ClientEvent}

theorem sound_start (succeeds : Bool) : (start succeeds).Sound := by
  cases succeeds with
  | true =>
      refine ⟨List.length_replicate, fun _ => ⟨rfl, rfl⟩, by rintro ⟨⟩, fun _ => ?_⟩
      decide
  | false => trivial

theorem Ready.goto (h : b.Ready) (pc : ClientPc) : { b with pc := pc }.Ready :=
  ⟨h.header, h.msg, h.room⟩

/-- A length that is not negative is the number of bytes needed. -/
theorem length_eq (h : 0 ≤ b.length) :
    b.inputBytesNeeded.toNat < 0x80000000 ∧ b.length = b.inputBytesNeeded.toNat := by
  rw [length, BitVec.toInt_eq_toNat_cond] at *
  split at h <;> split <;> omega

theorem Sound.within (h : b.Sound) : b.Within := by
  intro first num hwrite
  rw [Sound] at h
  rw [mayWrite] at hwrite
  cases hpc : b.pc with
  | reading totalBytesRead =>
      rw [hpc] at h hwrite
      obtain ⟨hallocated, hready, htotal⟩ := h
      obtain ⟨hneeded, hlength⟩ := length_eq (b := b) (by omega)
      have hroom := (hready.room hneeded).2
      cases hwrite
      exact ⟨hallocated, by omega⟩
  | waiting | reallocating | left | exited =>
      rw [hpc] at hwrite
      cases hwrite

/-- After a header there is room for the message, or it is asked for. -/
theorem sound_receivedHeader (hallocated : b.Allocated)
    (hsize : 10 * 1024 ≤ b.currentInputBufferSize.toNat) : (b.receivedHeader w).Sound := by
  rw [receivedHeader]
  by_cases hgrow : b.currentInputBufferSize.setWidth w.bits < w.withHeader (ntohl b.inputBuffer)
  · rw [if_pos hgrow]
    refine ⟨⟨by rintro ⟨⟩, fun _ => rfl, fun hlen => ?_⟩, rfl⟩
    dsimp only at hlen ⊢
    have hnew : (w.newSize (ntohl b.inputBuffer)).toNat
        = (ntohl b.inputBuffer).toNat + sizeofHeader + 10 * 1024 := by
      rw [toNat_newSize, sizeofHeader, UInt32.size]
      omega
    omega
  · rw [if_neg hgrow]
    refine ⟨hallocated, by rintro ⟨⟩, fun _ => rfl, fun hlen => ⟨hsize, ?_⟩⟩
    dsimp only at hlen ⊢
    have hfits := mt (setWidth_lt_withHeader_iff _ (withHeader_of_int w hlen)).mpr hgrow
    omega

theorem sound_receivedMsg (hallocated : b.Allocated)
    (hsize : 10 * 1024 ≤ b.currentInputBufferSize.toNat) : b.receivedMsg.Sound := by
  refine ⟨hallocated, fun _ => ⟨rfl, rfl⟩, by rintro ⟨⟩, fun _ => ⟨hsize, ?_⟩⟩
  change 0 + sizeofHeader ≤ b.currentInputBufferSize.toNat
  rw [sizeofHeader]
  omega

theorem sound_readDataTls {totalBytesRead : Nat} (hallocated : b.Allocated) (hready : b.Ready)
    (htotal : (totalBytesRead : Int) ≤ b.length ∨ totalBytesRead = 0) :
    (b.readDataTls w totalBytesRead).Sound := by
  rw [readDataTls]
  by_cases hmore : (totalBytesRead : Int) < b.length
  · rw [if_pos hmore]
    exact ⟨hallocated, hready.goto _, hmore⟩
  · rw [if_neg hmore, received]
    by_cases hzero : totalBytesRead = 0
    · -- nothing is needed, or a negative length
      rw [if_pos hzero]
      trivial
    · rw [if_neg hzero]
      have hle : (totalBytesRead : Int) ≤ b.length := htotal.resolve_right hzero
      obtain ⟨hneeded, hlength⟩ := length_eq (b := b) (by omega)
      have hall : b.inputBytesNeeded - BitVec.ofNat 32 totalBytesRead = 0 := by
        refine BitVec.eq_of_toNat_eq ((toNat_sub_ofNat (by omega)).trans ?_)
        change b.inputBytesNeeded.toNat - totalBytesRead = 0
        omega
      have hsize := (hready.room hneeded).1
      dsimp only
      rw [if_pos hall]
      cases hmode : b.mode with
      | msgHeader => exact sound_receivedHeader hallocated hsize
      | msg => exact sound_receivedMsg hallocated hsize

theorem Ready.reallocated (h : b.Ready) (hmode : b.mode = .msg) : b.reallocated.Ready where
  header hheader := by cases hmode.symm.trans hheader
  msg _ := rfl
  room hneeded := by
    have hroom := h.room hneeded
    rw [h.msg hmode] at hroom
    exact hroom

/-- **The step lemma.** -/
theorem Step.sound (hst : Step w b e b') (hb : b.Sound) : b'.Sound := by
  cases hst with
  | fdRead hpc =>
      rw [Sound, hpc] at hb
      exact sound_readDataTls hb.1 hb.2 (Or.inr rfl)
  | other => exact hb
  | endClient => trivial
  | @sslRead totalBytesRead got hpc hgot hle =>
      rw [Sound, hpc] at hb
      obtain ⟨hallocated, hready, -⟩ := hb
      refine sound_readDataTls ((store_length ..).trans hallocated)
        ⟨hready.header, hready.msg, hready.room⟩ (Or.inl ?_)
      change ((totalBytesRead + got.length : Nat) : Int) ≤ b.length
      omega
  | wantRead => exact hb
  | sslError hpc =>
      rw [Sound, hpc] at hb
      exact ⟨hb.1, hb.2.1.goto _⟩
  | reallocated hpc =>
      rw [Sound, hpc] at hb
      exact ⟨realloc_length .., hb.1.reallocated hb.2⟩
  | noMemory => trivial

/-- The invariant holds throughout a run. -/
theorem sound_of_run {succeeds : Bool} {h : List (ClientBuffer × ClientEvent)}
    (hr : Run (Step w) (start succeeds) h b) : EveryState Sound h b :=
  hr.invariant Sound (sound_start succeeds) fun _ _ _ hb hst => hst.sound hb

/-! ## The thread and its stream -/

/-- The thread as a reader of its stream. -/
def client (b : ClientBuffer) : ThreadClient where
  mode := b.mode
  inputBytesNeeded := b.inputBytesNeeded.toNat
  inputBuffer := b.inputBuffer
  offset := b.offset
  totalBytesRead :=
    match b.pc with
    | .reading totalBytesRead => totalBytesRead
    | _ => 0
  left := b.pc = .left
  processed := b.processed

/-- The thread with the block that it waits for. -/
def settled (b : ClientBuffer) : ClientBuffer :=
  if b.pc = .reallocating then b.reallocated else b

theorem client_receivedHeader (hallocated : b.Allocated) :
    (b.receivedHeader .bits64).settled.client =
      { b.client with
        mode := .msg
        inputBytesNeeded := (ntohl b.inputBuffer).toNat
        offset := sizeofHeader
        totalBytesRead := 0
        left := false
        inputBuffer :=
          if b.inputBuffer.length < (ntohl b.inputBuffer).toNat + sizeofHeader then
            realloc b.inputBuffer
              (((ntohl b.inputBuffer).toNat + sizeofHeader + 10 * 1024) % UInt32.size)
          else b.inputBuffer } := by
  have hcompare := setWidth_lt_withHeader_iff b.currentInputBufferSize
    (withHeader_bits64 (ntohl b.inputBuffer))
  rw [← hallocated] at hcompare
  rw [receivedHeader]
  by_cases hgrow : b.inputBuffer.length < (ntohl b.inputBuffer).toNat + sizeofHeader
  · rw [if_pos (hcompare.mpr hgrow), if_pos hgrow, ← toNat_newSize .bits64]
    rfl
  · rw [if_neg (mt hcompare.mp hgrow), if_neg hgrow]
    rfl

/-- What the thread makes of the bytes of one `ReadDataTls`. -/
theorem client_received {iResult : Nat} (hallocated : b.Allocated)
    (hle : iResult ≤ b.inputBytesNeeded.toNat) :
    (b.received .bits64 iResult).settled.client
      = { b.client with totalBytesRead := 0, left := false }.received iResult := by
  rw [received, ThreadClient.received]
  by_cases hzero : iResult = 0
  · rw [if_pos hzero, if_pos hzero]
    rfl
  · rw [if_neg hzero, if_neg hzero]
    have hsub : (b.inputBytesNeeded - BitVec.ofNat 32 iResult).toNat
        = b.client.inputBytesNeeded - iResult := toNat_sub_ofNat hle
    by_cases hall : b.inputBytesNeeded - BitVec.ofNat 32 iResult = 0
    · have hall' : b.client.inputBytesNeeded - iResult = 0 :=
        hsub.symm.trans (congrArg BitVec.toNat hall)
      dsimp only
      rw [if_pos hall, if_pos hall']
      cases hmode : b.mode with
      | msgHeader =>
          rw [show b.client.mode = .msgHeader from hmode]
          exact client_receivedHeader hallocated
      | msg =>
          rw [show b.client.mode = .msg from hmode]
          rfl
    · have hmore : ¬ b.client.inputBytesNeeded - iResult = 0 := fun hall' =>
        hall (BitVec.eq_of_toNat_eq (hsub.trans hall'))
      dsimp only
      rw [if_neg hall, if_neg hmore, ← hsub]
      rfl

theorem length_client (b : ClientBuffer) : (b.client.length : Int) = max b.length 0 := by
  rw [ThreadClient.length, length, BitVec.toInt_eq_toNat_cond]
  change ((if b.inputBytesNeeded.toNat < 0x80000000 then b.inputBytesNeeded.toNat else 0 : Nat)
    : Int) = _
  have hneeded := b.inputBytesNeeded.isLt
  split <;> split <;> omega

theorem client_readDataTls {totalBytesRead : Nat} (hallocated : b.Allocated)
    (hle : totalBytesRead ≤ b.client.length) :
    (b.readDataTls .bits64 totalBytesRead).settled.client =
      if totalBytesRead < b.client.length then
        { b.client with totalBytesRead := totalBytesRead, left := false }
      else { b.client with totalBytesRead := 0, left := false }.received totalBytesRead := by
  have hlength := length_client b
  rw [readDataTls]
  by_cases hmore : (totalBytesRead : Int) < b.length
  · rw [if_pos hmore, if_pos (by omega)]
    rfl
  · rw [if_neg hmore, if_neg (by omega)]
    refine client_received hallocated (Nat.le_trans hle ?_)
    rw [ThreadClient.length]
    split
    · exact Nat.le_refl _
    · exact Nat.zero_le _

/-- A read is one of the reader of the stream. -/
theorem client_sslRead {got : Bytes} (hb : b.Sound) (hst : Step .bits64 b (.sslRead got) b') :
    b'.settled.client = b.client.read got := by
  cases hst with
  | @sslRead totalBytesRead _ hpc hgot hle =>
      have hle' : totalBytesRead + got.length ≤ b.client.length := by
        have hlength := length_client b
        omega
      obtain ⟨mode, needed, size, buffer, offset, pc, processed⟩ := b
      cases hpc
      exact client_readDataTls ((store_length ..).trans hb.1) hle'

/-- At the first `SSL_read` nothing has been read yet. -/
theorem client_reading (hpc : b.pc = .waiting) :
    { b with pc := .reading 0 }.settled.client = b.client := by
  obtain ⟨mode, needed, size, buffer, offset, pc, processed⟩ := b
  cases hpc
  rfl

/-- Everything goes well, and the thread is not told to end. -/
def GoesOn (_ : List (ClientBuffer × ClientEvent)) (_ : ClientBuffer) (e : ClientEvent)
    (_ : ClientBuffer) : Prop :=
  e ≠ .sslError ∧ e ≠ .endClient ∧ e ≠ .realloc false

/-- What `SSL_read` has handed out, piece by piece. -/
def pieces : List (ClientBuffer × ClientEvent) → List Bytes
  | [] => []
  | (_, .sslRead got) :: h => pieces h ++ [got]
  | _ :: h => pieces h

/-- **With 64 bits the thread reads its stream**, as long as nothing fails. -/
theorem client_of_run {h : List (ClientBuffer × ClientEvent)}
    (hr : Run (Step .bits64) (start true) h b) (hgoes : EveryStep GoesOn h b)
    (hleft : b.pc ≠ .left) : b.settled.client = (pieces h).foldl ThreadClient.read {} := by
  induction hr with
  | start => rfl
  | @snoc h b b' e hr hst ih =>
      obtain ⟨⟨herror, hend, hmemory⟩, hrest⟩ := hgoes
      have hsound : b.Sound := (sound_of_run hr).last
      have hsame : ∀ {pc : ClientPc}, b.pc = pc → pc ≠ .reallocating → b.settled = b := by
        rintro pc rfl hpc
        exact if_neg hpc
      cases hst with
      | fdRead hpc =>
          have hclient := ih hrest (by rw [hpc]; nofun)
          rw [hsame hpc nofun] at hclient
          rw [readDataTls] at hleft ⊢
          by_cases hmore : ((0 : Nat) : Int) < b.length
          · rw [if_pos hmore]
            exact (client_reading hpc).trans hclient
          · -- a read of nothing ends the loop
            rw [if_neg hmore, received, if_pos rfl] at hleft
            exact absurd rfl hleft
      | other hpc => exact ih hrest (by rw [hpc]; nofun)
      | endClient => exact absurd rfl hend
      | sslRead hpc hgot hle =>
          have hclient := ih hrest (by rw [hpc]; nofun)
          rw [hsame hpc nofun] at hclient
          rw [client_sslRead hsound (.sslRead hpc hgot hle), pieces, List.foldl_append, ← hclient]
          rfl
      | wantRead hpc => exact ih hrest (by rw [hpc]; nofun)
      | sslError => exact absurd rfl herror
      | reallocated hpc =>
          have hclient := ih hrest (by rw [hpc]; nofun)
          rw [settled, if_pos hpc] at hclient
          exact hclient
      | noMemory => exact absurd rfl hmemory

end ClientBuffer

/-- **The receive buffer is never overrun**: in every run, whatever is sent and in whatever
    pieces it is read, `SSL_read` may only write inside the block that was last allocated. -/
theorem sslRead_within (w : SizeT) (succeeds : Bool) {h : List (ClientBuffer × ClientEvent)}
    {b : ClientBuffer} (hr : Run (ClientBuffer.Step w) (ClientBuffer.start succeeds) h b) :
    EveryState ClientBuffer.Within h b :=
  (ClientBuffer.sound_of_run hr).mono fun _ hb => hb.within

/-- A header that announces 20000 bytes comes in two pieces, and then the first byte. -/
theorem sslRead_within_grown :
    ∃ h b, Run (ClientBuffer.Step .bits32) (ClientBuffer.start true) h b
      ∧ b.mayWrite = some (9, 19999) ∧ EveryState ClientBuffer.Within h b := by
  have hnext : ∀ b e b', ClientBuffer.next .bits32 b e = some b' →
      ClientBuffer.Step .bits32 b e b' := fun _ _ _ => ClientBuffer.step_of_next
  have hgrown : ∃ h b, Run (ClientBuffer.Step .bits32) (ClientBuffer.start true) h b
      ∧ decide (b.mayWrite = some (9, 19999)) = true :=
    exists_run_of_follow hnext
      [.sslRead [7], .fdRead, .realloc true, .sslRead [0x20, 0, 0, 0, 0], .wantRead,
        .sslRead [0, 0, 0x4e], .fdRead] _ (by decide +kernel)
  obtain ⟨h, b, hr, hb⟩ := hgrown
  exact ⟨h, b, hr, of_decide_eq_true hb, sslRead_within .bits32 true hr⟩

end DemoCannon
