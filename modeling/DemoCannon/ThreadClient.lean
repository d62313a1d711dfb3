import DemoCannon.Lib.PrefixCode
import DemoCannon.NetworkInput

/-! # The client's `ThreadClient`

    The thread reads headers and messages in turn into one growing buffer, each
    with a `ReadDataTls` that goes on until all bytes asked for are there, and
    hands every message to `ProcessMessage`.  Whatever the sizes in which the
    bytes come, what it has processed and what it has in its buffer is what it
    has read (`Reading.read`). -/

namespace DemoCannon

/-! ## The buffer -/

/-- Write `new` at an offset of `mem`. -/
def store (mem : Bytes) (offset : Nat) (new : Bytes) : Bytes :=
  mem.take offset ++ overwrite (mem.drop offset) new

/-- `std::realloc`; what is new is not initialized. -/
def realloc (mem : Bytes) (size : Nat) : Bytes :=
  mem.take size ++ List.replicate (size - mem.length) 0

section Buffer

variable {mem new : Bytes} {offset size : Nat}

@[simp] theorem store_length (mem : Bytes) (offset : Nat) (new : Bytes) :
    (store mem offset new).length = mem.length := by
  rw [store, List.length_append, overwrite_length, ← List.length_append,
    List.take_append_drop]

/-- What is in the buffer after a write that fits. -/
theorem take_store (h : offset + new.length ≤ mem.length) :
    (store mem offset new).take (offset + new.length) = mem.take offset ++ new := by
  have hlen : (mem.take offset).length = offset := List.length_take_of_le (by omega)
  have hfit : new.length ≤ (mem.drop offset).length := by
    rw [List.length_drop]
    omega
  rw [store, overwrite_of_le hfit, ← List.append_assoc]
  refine List.take_left' ?_
  rw [List.length_append, hlen]

theorem ntohl_of_take {n : Nat} (hn : 4 ≤ n) (h : mem.take n = new.take n) :
    ntohl mem = ntohl new := by
  have h4 : mem.take 4 = new.take 4 := by
    have := congrArg (List.take 4) h
    rwa [List.take_take, List.take_take, Nat.min_eq_left hn] at this
  rw [← ntohl_take mem, h4, ntohl_take]

/-- A write behind the header leaves it alone. -/
theorem ntohl_store (hoffset : 4 ≤ offset) (hle : offset ≤ mem.length) :
    ntohl (store mem offset new) = ntohl mem := by
  refine ntohl_of_take hoffset ?_
  rw [store, List.take_left' (List.length_take_of_le hle)]

@[simp] theorem realloc_length (mem : Bytes) (size : Nat) :
    (realloc mem size).length = size := by
  rw [realloc, List.length_append, List.length_take, List.length_replicate]
  omega

theorem take_realloc {n : Nat} (h : mem.length ≤ size) (hn : n ≤ mem.length) :
    (realloc mem size).take n = mem.take n := by
  rw [realloc, List.take_of_length_le h, List.take_append_of_le_length hn]

end Buffer

/-! ## The thread -/

/-- `InputMode`. -/
inductive InputMode where
  | msgHeader
  | msg
  deriving DecidableEq, Repr

/-- The variables of `ThreadClient`, and what it has handed on. -/
structure ThreadClient where
  mode : InputMode := .msgHeader
  inputBytesNeeded : Nat := sizeofHeader
  /-- The memory at `InputBuffer`, `CurrentInputBufferSize` bytes. -/
  inputBuffer : Bytes := List.replicate (1024 * 10) 0
  /-- `InputBufferWithOffset - InputBuffer`. -/
  offset : Nat := 0
  /-- `total_bytes_read` of the `ReadDataTls` it is in. -/
  totalBytesRead : Nat := 0
  /-- The loop has been left. -/
  left : Bool := false
  /-- Header and message in the buffer at each call of `ProcessMessage`. -/
  processed : List Bytes := []

namespace ThreadClient

/-- `(int)InputBytesNeeded`, as the bytes that `ReadDataTls` reads: a negative
    `length` asks for none. -/
def length (c : ThreadClient) : Nat :=
  if c.inputBytesNeeded < 0x80000000 then c.inputBytesNeeded else 0

/-- What the thread does when `ReadData` has returned `iResult`. -/
def received (c : ThreadClient) (iResult : Nat) : ThreadClient :=
  if iResult = 0 then
    { c with mode := .msgHeader, inputBytesNeeded := sizeofHeader, offset := 0, left := true }
  else
    let inputBytesNeeded := c.inputBytesNeeded - iResult
    let offset := c.offset + iResult
    if inputBytesNeeded = 0 then
      match c.mode with
      | .msgHeader =>
          let len := (ntohl c.inputBuffer).toNat
          let size := (len + sizeofHeader + 10 * 1024) % UInt32.size
          { c with
            mode := .msg
            inputBytesNeeded := len
            offset := sizeofHeader
            inputBuffer :=
              if c.inputBuffer.length < len + sizeofHeader then realloc c.inputBuffer size
              else c.inputBuffer }
      | .msg =>
          -- the message is as long as the header in the buffer says
          let len := (ntohl c.inputBuffer).toNat
          { c with
            processed := c.processed ++ [c.inputBuffer.take (sizeofHeader + len)]
            mode := .msgHeader
            inputBytesNeeded := sizeofHeader
            offset := 0 }
    else { c with inputBytesNeeded := inputBytesNeeded, offset := offset }

/-- An `SSL_read` in `ReadDataTls` hands out `got`. -/
def read (c : ThreadClient) (got : Bytes) : ThreadClient :=
  let inputBuffer := store c.inputBuffer (c.offset + c.totalBytesRead) got
  let totalBytesRead := c.totalBytesRead + got.length
  if totalBytesRead < c.length then
    { c with inputBuffer := inputBuffer, totalBytesRead := totalBytesRead }
  else
    { c with inputBuffer := inputBuffer, totalBytesRead := 0 }.received totalBytesRead

/-! ## What it has read -/

/-- A header and the message that it announces, at least a byte and no longer
    than an `int` can say. -/
def Framed (f : Bytes) : Prop :=
  f.length = sizeofHeader + (ntohl f).toNat ∧ 1 ≤ (ntohl f).toNat
    ∧ (ntohl f).toNat < 0x80000000

theorem prefixFree_framed : Interaction.PrefixFree Framed := by
  rintro x y ⟨hx, -, -⟩ ⟨hy, -, -⟩ ⟨z, rfl⟩
  have hsame : ntohl (x ++ z) = ntohl x := by
    refine ntohl_of_take (Nat.le_refl 4) ?_
    have h4 : 4 ≤ x.length := by rw [hx, sizeofHeader]; omega
    exact List.take_append_of_le_length h4
  rw [hsame, ← hx, List.length_append] at hy
  have hz : z = [] := List.eq_nil_of_length_eq_zero (by omega)
  rw [hz, List.append_nil]

/-- All bytes read so far. -/
def bytes (c : ThreadClient) : Bytes :=
  c.processed.flatten ++ c.inputBuffer.take (c.offset + c.totalBytesRead)

/-- The thread is reading a header or a message, with room for it. -/
structure Reading (c : ThreadClient) : Prop where
  processed : ∀ m ∈ c.processed, Framed m
  size : 10 * 1024 ≤ c.inputBuffer.length
  room : c.offset + c.inputBytesNeeded ≤ c.inputBuffer.length
  short : c.totalBytesRead < c.inputBytesNeeded
  needed : c.inputBytesNeeded < 0x80000000
  header : c.mode = .msgHeader → c.offset = 0 ∧ c.inputBytesNeeded = sizeofHeader
  msg : c.mode = .msg →
    c.offset = sizeofHeader ∧ c.inputBytesNeeded = (ntohl c.inputBuffer).toNat

theorem reading_start : Reading {} where
  processed _ h := by cases h
  size := Nat.le_of_eq List.length_replicate.symm
  room := by
    rw [show ({} : ThreadClient).inputBuffer.length = 1024 * 10 from List.length_replicate]
    decide
  short := by decide
  needed := by decide
  header _ := ⟨rfl, rfl⟩
  msg := by rintro ⟨⟩

variable {c : ThreadClient} {got : Bytes}

/-- What the thread does with a header. -/
theorem received_header (hmode : c.mode = .msgHeader)
    (hneeded : c.inputBytesNeeded = sizeofHeader) :
    c.received sizeofHeader =
      { c with
        mode := .msg
        inputBytesNeeded := (ntohl c.inputBuffer).toNat
        offset := sizeofHeader
        inputBuffer :=
          if c.inputBuffer.length < (ntohl c.inputBuffer).toNat + sizeofHeader then
            realloc c.inputBuffer
              (((ntohl c.inputBuffer).toNat + sizeofHeader + 10 * 1024) % UInt32.size)
          else c.inputBuffer } := by
  rw [received, if_neg (by decide)]
  simp only [hneeded, Nat.sub_self, if_true, hmode]

/-- What the thread does with a message. -/
theorem received_msg (hmode : c.mode = .msg) (hneeded : c.inputBytesNeeded ≠ 0) :
    c.received c.inputBytesNeeded =
      { c with
        processed := c.processed
          ++ [c.inputBuffer.take (sizeofHeader + (ntohl c.inputBuffer).toNat)]
        mode := .msgHeader
        inputBytesNeeded := sizeofHeader
        offset := 0 } := by
  rw [received, if_neg hneeded]
  simp only [Nat.sub_self, if_true, hmode]

/-- With its header read the thread reads the message, in a buffer that is large
    enough. -/
theorem reading_header (hprocessed : ∀ m ∈ c.processed, Framed m)
    (hsize : 10 * 1024 ≤ c.inputBuffer.length) (hmode : c.mode = .msgHeader)
    (hneeded : c.inputBytesNeeded = sizeofHeader) (htotal : c.totalBytesRead = 0)
    (hone : 1 ≤ (ntohl c.inputBuffer).toNat)
    (hmax : (ntohl c.inputBuffer).toNat < 0x80000000) :
    (c.received sizeofHeader).Reading
      ∧ (c.received sizeofHeader).bytes
        = c.processed.flatten ++ c.inputBuffer.take sizeofHeader := by
  rw [received_header hmode hneeded]
  generalize hlen : (ntohl c.inputBuffer).toNat = len at *
  have hmod : (len + sizeofHeader + 10 * 1024) % UInt32.size
      = len + sizeofHeader + 10 * 1024 := by
    refine Nat.mod_eq_of_lt ?_
    rw [sizeofHeader, UInt32.size]
    omega
  rw [hmod]
  have hheader : sizeofHeader ≤ c.inputBuffer.length := by
    rw [sizeofHeader]
    omega
  -- the header stays where it is, and there is room behind it
  have hbuffer : ∃ buffer, (if c.inputBuffer.length < len + sizeofHeader then
        realloc c.inputBuffer (len + sizeofHeader + 10 * 1024) else c.inputBuffer) = buffer
      ∧ buffer.take sizeofHeader = c.inputBuffer.take sizeofHeader
      ∧ 10 * 1024 ≤ buffer.length ∧ sizeofHeader + len ≤ buffer.length := by
    refine ⟨_, rfl, ?_⟩
    by_cases hgrow : c.inputBuffer.length < len + sizeofHeader
    · rw [if_pos hgrow, take_realloc (by omega) hheader, realloc_length]
      exact ⟨rfl, by omega, by omega⟩
    · rw [if_neg hgrow]
      exact ⟨rfl, hsize, by omega⟩
  obtain ⟨buffer, hbuffer, htake, hsize', hroom⟩ := hbuffer
  rw [hbuffer]
  refine ⟨⟨hprocessed, hsize', hroom, ?_, hmax, by rintro ⟨⟩, ?_⟩, ?_⟩
  · rw [htotal]
    exact hone
  · intro _
    refine ⟨rfl, ?_⟩
    rw [← hlen, ntohl_of_take (by decide) htake]
  · rw [bytes, htotal, Nat.add_zero, htake]

/-- With its message read the thread processes it and reads the next header. -/
theorem reading_msg (hprocessed : ∀ m ∈ c.processed, Framed m)
    (hsize : 10 * 1024 ≤ c.inputBuffer.length) (hmode : c.mode = .msg)
    (hneeded : c.inputBytesNeeded = (ntohl c.inputBuffer).toNat)
    (htotal : c.totalBytesRead = 0)
    (hroom : sizeofHeader + c.inputBytesNeeded ≤ c.inputBuffer.length)
    (hone : 1 ≤ c.inputBytesNeeded) (hmax : c.inputBytesNeeded < 0x80000000) :
    (c.received c.inputBytesNeeded).Reading
      ∧ (c.received c.inputBytesNeeded).bytes
        = c.processed.flatten ++ c.inputBuffer.take (sizeofHeader + c.inputBytesNeeded) := by
  rw [received_msg hmode (by omega), ← hneeded]
  have hframed : Framed (c.inputBuffer.take (sizeofHeader + c.inputBytesNeeded)) := by
    have hsame : ntohl (c.inputBuffer.take (sizeofHeader + c.inputBytesNeeded))
        = ntohl c.inputBuffer := by
      refine ntohl_of_take (Nat.le_refl 4) ?_
      rw [List.take_take, Nat.min_eq_left]
      rw [sizeofHeader]
      omega
    rw [Framed, hsame, ← hneeded, List.length_take_of_le hroom]
    exact ⟨rfl, hone, hmax⟩
  have hheader : (sizeofHeader : Nat) < 0x80000000 := by decide
  refine ⟨⟨?_, hsize, ?_, ?_, hheader, fun _ => ⟨rfl, rfl⟩, by rintro ⟨⟩⟩, ?_⟩
  · intro m hm
    rcases List.mem_append.mp hm with h | h
    · exact hprocessed m h
    · rw [List.mem_singleton.mp h]
      exact hframed
  · change 0 + sizeofHeader ≤ c.inputBuffer.length
    rw [sizeofHeader]
    omega
  · change c.totalBytesRead < sizeofHeader
    rw [htotal, sizeofHeader]
    omega
  · change (c.processed ++ [_]).flatten ++ c.inputBuffer.take (0 + c.totalBytesRead) = _
    rw [htotal, List.take_zero, List.append_nil, List.flatten_append, List.flatten_singleton]

section Read

variable (hc : c.Reading) (hle : c.totalBytesRead + got.length ≤ c.inputBytesNeeded)

include hc hle

/-- The bytes handed out are behind those that were there. -/
theorem Reading.bytes_append :
    c.bytes ++ got = c.processed.flatten
      ++ (store c.inputBuffer (c.offset + c.totalBytesRead) got).take
        (c.offset + c.totalBytesRead + got.length) := by
  have hroom := hc.room
  have hfit : c.offset + c.totalBytesRead + got.length ≤ c.inputBuffer.length := by omega
  rw [bytes, List.append_assoc, take_store hfit]

/-- The header of a message stays where it is. -/
theorem Reading.ntohl_store (hoffset : c.offset = sizeofHeader) :
    ntohl (store c.inputBuffer (c.offset + c.totalBytesRead) got) = ntohl c.inputBuffer := by
  have hroom := hc.room
  refine DemoCannon.ntohl_store ?_ (by omega)
  rw [hoffset, sizeofHeader]
  omega

/-- `ReadDataTls` goes on. -/
theorem Reading.goesOn (hmore : c.totalBytesRead + got.length < c.inputBytesNeeded) :
    { c with
      inputBuffer := store c.inputBuffer (c.offset + c.totalBytesRead) got
      totalBytesRead := c.totalBytesRead + got.length }.Reading where
  processed := hc.processed
  size := (store_length ..).symm ▸ hc.size
  room := (store_length ..).symm ▸ hc.room
  short := hmore
  needed := hc.needed
  header := hc.header
  msg hmode := by
    obtain ⟨hoffset, hneeded⟩ := hc.msg hmode
    exact ⟨hoffset, hneeded.trans (congrArg BitVec.toNat (hc.ntohl_store hle hoffset).symm)⟩

/-- The last piece of a header. -/
theorem Reading.endHeader (hmode : c.mode = .msgHeader)
    (hdone : c.totalBytesRead + got.length = c.inputBytesNeeded)
    (hheader : ∀ hdr : Bytes, c.bytes ++ got = c.processed.flatten ++ hdr →
      hdr.length = sizeofHeader → 1 ≤ (ntohl hdr).toNat ∧ (ntohl hdr).toNat < 0x80000000) :
    let c' := { c with
      inputBuffer := store c.inputBuffer (c.offset + c.totalBytesRead) got
      totalBytesRead := 0 }
    (c'.received c.inputBytesNeeded).Reading
      ∧ (c'.received c.inputBytesNeeded).bytes = c.bytes ++ got := by
  obtain ⟨hoffset, hneeded⟩ := hc.header hmode
  have hbytes := hc.bytes_append hle
  have hstored := store_length c.inputBuffer (c.offset + c.totalBytesRead) got
  generalize hbuffer : store c.inputBuffer (c.offset + c.totalBytesRead) got = buffer at *
  have hhdr : c.bytes ++ got = c.processed.flatten ++ buffer.take sizeofHeader := by
    rw [hbytes, hoffset, Nat.zero_add, hdone, hneeded]
  have hlen : (buffer.take sizeofHeader).length = sizeofHeader := by
    have hroom := hc.room
    refine List.length_take_of_le ?_
    omega
  have hsame : ntohl (buffer.take sizeofHeader) = ntohl buffer := by
    refine ntohl_of_take (Nat.le_refl 4) ?_
    rw [List.take_take]
    rfl
  obtain ⟨hone, hmax⟩ := hheader _ hhdr hlen
  rw [hsame] at hone hmax
  have hnext := reading_header (c := { c with inputBuffer := buffer, totalBytesRead := 0 })
    hc.processed (hstored ▸ hc.size) hmode hneeded rfl hone hmax
  rw [← hneeded] at hnext hhdr
  rw [hhdr]
  exact hnext

/-- The last piece of a message. -/
theorem Reading.endMsg (hmode : c.mode = .msg)
    (hdone : c.totalBytesRead + got.length = c.inputBytesNeeded) :
    let c' := { c with
      inputBuffer := store c.inputBuffer (c.offset + c.totalBytesRead) got
      totalBytesRead := 0 }
    (c'.received c.inputBytesNeeded).Reading
      ∧ (c'.received c.inputBytesNeeded).bytes = c.bytes ++ got := by
  obtain ⟨hoffset, hneeded⟩ := hc.msg hmode
  have hbytes := hc.bytes_append hle
  have hsame := hc.ntohl_store hle hoffset
  have hstored := store_length c.inputBuffer (c.offset + c.totalBytesRead) got
  generalize hbuffer : store c.inputBuffer (c.offset + c.totalBytesRead) got = buffer at *
  have hroom : sizeofHeader + c.inputBytesNeeded ≤ buffer.length := by
    rw [hstored, ← hoffset]
    exact hc.room
  have hneeded' : c.inputBytesNeeded = (ntohl buffer).toNat := by
    rw [hsame]
    exact hneeded
  have hone : 1 ≤ c.inputBytesNeeded := Nat.lt_of_le_of_lt (Nat.zero_le _) hc.short
  have hmessage : c.bytes ++ got
      = c.processed.flatten ++ buffer.take (sizeofHeader + c.inputBytesNeeded) := by
    rw [hbytes, Nat.add_assoc, hdone, hoffset]
  rw [hmessage]
  exact reading_msg (c := { c with inputBuffer := buffer, totalBytesRead := 0 })
    hc.processed (hstored ▸ hc.size) hmode hneeded' rfl hroom hone hc.needed

end Read

/-- **The step lemma.**  The bytes read are one after the other the bytes handed
    out, and where they complete a header whose length is in range the thread
    goes on to read the message. -/
theorem Reading.read (hc : c.Reading) (hle : got.length ≤ c.length - c.totalBytesRead)
    (hheader : ∀ hdr : Bytes, c.bytes ++ got = c.processed.flatten ++ hdr →
      hdr.length = sizeofHeader → 1 ≤ (ntohl hdr).toNat ∧ (ntohl hdr).toNat < 0x80000000) :
    (c.read got).Reading ∧ (c.read got).bytes = c.bytes ++ got := by
  have hlength : c.length = c.inputBytesNeeded := if_pos hc.needed
  have hshort := hc.short
  rw [hlength] at hle
  have hle' : c.totalBytesRead + got.length ≤ c.inputBytesNeeded := by omega
  rw [ThreadClient.read, hlength]
  by_cases hmore : c.totalBytesRead + got.length < c.inputBytesNeeded
  · rw [if_pos hmore, hc.bytes_append hle', Nat.add_assoc]
    exact ⟨hc.goesOn hle' hmore, rfl⟩
  · rw [if_neg hmore]
    have hdone : c.totalBytesRead + got.length = c.inputBytesNeeded := by omega
    rw [hdone]
    have hmodes : c.mode = .msgHeader ∨ c.mode = .msg := by
      cases c.mode with
      | msgHeader => exact Or.inl rfl
      | msg => exact Or.inr rfl
    rcases hmodes with hmode | hmode
    · exact hc.endHeader hle' hmode hdone hheader
    · exact hc.endMsg hle' hmode hdone

end ThreadClient

end DemoCannon
