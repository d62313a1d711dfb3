import DemoCannon.Message

/-! # The TLS byte stream: `ReadDataTcp` and `WriteDataTcp`

    Both helpers loop over one OpenSSL call until all bytes are through.  What
    OpenSSL answers is a script, one entry for each call: how many bytes it
    moved, that it wants to be called again, or an error.  A script that ends
    inside a loop is a call that has not answered yet. -/

namespace DemoCannon

/-- The answer of one `SSL_read` or `SSL_write`, with `SSL_get_error` where it
    is not positive. -/
inductive SslRet where
  /-- A positive count, `n + 1` or as many bytes as there are. -/
  | bytes (n : Nat)
  | wantRead
  | wantWrite
  /-- `SSL_ERROR_SYSCALL`. -/
  | syscall
  /-- Any other error. -/
  | error
  deriving DecidableEq, Repr

/-- The answers that move or ask to repeat, but do not fail. -/
def SslRet.Moves : SslRet → Prop
  | .bytes _ | .wantRead | .wantWrite => True
  | .syscall | .error => False

instance : DecidablePred SslRet.Moves := fun r => by
  cases r <;> unfold SslRet.Moves <;> infer_instance

/-- The answers that are positive. -/
def SslRet.positive : SslRet → Bool
  | .bytes _ => true
  | .wantRead | .wantWrite | .syscall | .error => false

/-- How many answers of a script are positive. -/
def reads (script : List SslRet) : Nat := script.countP SslRet.positive

@[simp] theorem reads_nil : reads [] = 0 := rfl

@[simp] theorem reads_bytes (n : Nat) (script : List SslRet) :
    reads (.bytes n :: script) = reads script + 1 := List.countP_cons_of_pos rfl

@[simp] theorem reads_wantRead (script : List SslRet) :
    reads (.wantRead :: script) = reads script := List.countP_cons_of_neg (by decide)

@[simp] theorem reads_wantWrite (script : List SslRet) :
    reads (.wantWrite :: script) = reads script := List.countP_cons_of_neg (by decide)

/-- How a call of `ReadDataTcp` ends. -/
inductive ReadEnd where
  /-- It has read `data`; `script` and `stream` are what is left. -/
  | returned (data : Bytes) (script : List SslRet) (stream : Bytes)
  /-- It returned `-1`. -/
  | failed (stream : Bytes)
  /-- It called `exit`. -/
  | exited (stream : Bytes)
  /-- It is still reading. -/
  | waiting (stream : Bytes)
  deriving DecidableEq, Repr

/-- `ReadDataTcp(length)`, with `data` read so far and `stream` still on the
    connection.  `SSL_read` hands out at most what is asked for and what is
    there; with nothing there it wants to be called again. -/
def readDataTcp (length : Nat) : List SslRet → Bytes → Bytes → ReadEnd
  | [], data, stream =>
      if data.length < length then .waiting stream
      else .returned data [] stream
  | r :: script, data, stream =>
      if data.length < length then
        match r with
        | .bytes n =>
            -- no more than is still missing, so never into the next message
            let got := stream.take (min (n + 1) (length - data.length))
            readDataTcp length script (data ++ got) (stream.drop got.length)
        | .wantRead => readDataTcp length script data stream
        | .wantWrite => readDataTcp length script data stream
        | .syscall => .exited stream
        | .error => .failed stream
      else .returned data (r :: script) stream

/-- How a call of `WriteDataTcp` ends. -/
inductive WriteEnd where
  | returned (ret : Int)
  | exited
  | waiting
  deriving DecidableEq, Repr

/-- `WriteDataTcp(length)`, with `total` bytes written so far, in chunks of at
    most 8 KiB. -/
def writeDataTcp (length : Nat) : List SslRet → Nat → WriteEnd
  | [], total => if total < length then .waiting else .returned total
  | r :: script, total =>
      if total < length then
        match r with
        | .bytes n =>
            let chunkSize := min (8 * 1024) (length - total)
            writeDataTcp length script (total + min (n + 1) chunkSize)
        | .wantWrite => writeDataTcp length script total
        | .wantRead => writeDataTcp length script total
        | .syscall => .exited
        | .error => .returned (-1)
      else .returned total

/-! ## What `ReadDataTcp` reads -/

/-- With all bytes read the loop is over. -/
theorem readDataTcp_full {length : Nat} {data : Bytes}
    (h : length ≤ data.length) (script : List SslRet) (stream : Bytes) :
    readDataTcp length script data stream = .returned data script stream := by
  cases script <;> rw [readDataTcp.eq_def] <;> exact if_neg (by omega)

/-- One round of the loop. -/
theorem readDataTcp_round {length : Nat} {data : Bytes}
    (h : data.length < length) (r : SslRet) (script : List SslRet)
    (stream : Bytes) :
    readDataTcp length (r :: script) data stream
      = match r with
        | .bytes n =>
            readDataTcp length script
              (data ++ stream.take (min (n + 1) (length - data.length)))
              (stream.drop
                (stream.take (min (n + 1) (length - data.length))).length)
        | .wantRead => readDataTcp length script data stream
        | .wantWrite => readDataTcp length script data stream
        | .syscall => .exited stream
        | .error => .failed stream := by
  rw [readDataTcp.eq_def]
  exact if_pos h

/-- What a read that only moves bytes can end in: all of `length` bytes, in
    order and none beyond, or not yet enough of them. -/
inductive ReadEnd.Moved (length : Nat) (bytes : Bytes) : ReadEnd → Prop where
  | returned {data : Bytes} {script : List SslRet} {stream : Bytes} :
      data.length = length → data ++ stream = bytes →
      (∀ r ∈ script, r.Moves) →
      Moved length bytes (.returned data script stream)
  | waiting {data : Bytes} {stream : Bytes} :
      data.length < length → data ++ stream = bytes →
      Moved length bytes (.waiting stream)

/-- Taking at most `n` bytes off a stream and dropping as many as were taken
    splits it. -/
theorem take_append_drop_taken (n : Nat) (stream : Bytes) :
    stream.take n ++ stream.drop (stream.take n).length = stream := by
  rw [List.length_take]
  rcases Nat.le_total n stream.length with hle | hle
  · rw [Nat.min_eq_left hle, List.take_append_drop]
  · rw [Nat.min_eq_right hle, List.take_of_length_le hle, List.drop_length,
      List.append_nil]

/-- **The loop invariant of `ReadDataTcp`**: what is read and what is left of
    the stream always make up the bytes there were. -/
theorem readDataTcp_moved {length : Nat} {script : List SslRet}
    (hscript : ∀ r ∈ script, r.Moves) (data stream : Bytes)
    (hdata : data.length ≤ length) :
    (readDataTcp length script data stream).Moved length (data ++ stream) := by
  induction script generalizing data stream with
  | nil =>
      by_cases hlt : data.length < length
      · rw [readDataTcp, if_pos hlt]
        exact .waiting hlt rfl
      · rw [readDataTcp_full (by omega)]
        exact .returned (by omega) rfl hscript
  | cons r script ih =>
      have hrest : ∀ r ∈ script, r.Moves :=
        fun q hq => hscript q (List.mem_cons_of_mem r hq)
      have hhead : r.Moves := hscript r (List.mem_cons_self ..)
      by_cases hlt : data.length < length
      · rw [readDataTcp_round hlt]
        cases r with
        | bytes n =>
            have hfit : (data ++ stream.take
                (min (n + 1) (length - data.length))).length ≤ length := by
              rw [List.length_append, List.length_take]
              omega
            have hmoved := ih hrest _ (stream.drop (stream.take
              (min (n + 1) (length - data.length))).length) hfit
            rw [List.append_assoc, take_append_drop_taken] at hmoved
            exact hmoved
        | wantRead => exact ih hrest data stream hdata
        | wantWrite => exact ih hrest data stream hdata
        | syscall => exact hhead.elim
        | error => exact hhead.elim
      · rw [readDataTcp_full (by omega)]
        exact .returned (by omega) rfl hscript

/-- How many bytes of the stream can still be unread when the answers that a read leaves
    are used up, each positive one for a byte. -/
def ReadEnd.behind : ReadEnd → Nat
  | .returned _ script stream => stream.length - reads script
  | .failed stream | .exited stream | .waiting stream => stream.length

/-- **The loop makes progress**: every positive answer reads a byte, as long as there is
    one. -/
theorem readDataTcp_behind {length : Nat} {script : List SslRet}
    (hscript : ∀ r ∈ script, r.Moves) (data stream : Bytes) :
    (readDataTcp length script data stream).behind ≤ stream.length - reads script := by
  induction script generalizing data stream with
  | nil =>
      by_cases hlt : data.length < length
      · rw [readDataTcp, if_pos hlt]
        exact Nat.le_refl _
      · rw [readDataTcp_full (by omega)]
        exact Nat.le_refl _
  | cons r script ih =>
      have hrest : ∀ r ∈ script, r.Moves :=
        fun q hq => hscript q (List.mem_cons_of_mem r hq)
      have hhead : r.Moves := hscript r (List.mem_cons_self ..)
      by_cases hlt : data.length < length
      · rw [readDataTcp_round hlt]
        cases r with
        | bytes n =>
            refine Nat.le_trans (ih hrest _ _) ?_
            -- at least one byte is asked for, so one is taken if there is one
            rw [reads_bytes, List.length_drop, List.length_take]
            omega
        | wantRead => rw [reads_wantRead]; exact ih hrest data stream
        | wantWrite => rw [reads_wantWrite]; exact ih hrest data stream
        | syscall => exact hhead.elim
        | error => exact hhead.elim
      · rw [readDataTcp_full (by omega)]
        exact Nat.le_refl _

/-- The loop only uses answers up. -/
theorem readDataTcp_script_le {length : Nat} {script : List SslRet}
    {data stream : Bytes} {data' : Bytes} {script' : List SslRet}
    {stream' : Bytes}
    (h : readDataTcp length script data stream
      = .returned data' script' stream') :
    script'.length ≤ script.length := by
  induction script generalizing data stream with
  | nil =>
      rw [readDataTcp] at h
      by_cases hlt : data.length < length
      · rw [if_pos hlt] at h
        cases h
      · rw [if_neg hlt] at h
        cases h
        exact Nat.le_refl _
  | cons r script ih =>
      by_cases hlt : data.length < length
      · rw [readDataTcp_round hlt] at h
        rw [List.length_cons]
        cases r with
        | bytes n => exact Nat.le_succ_of_le (ih h)
        | wantRead => exact Nat.le_succ_of_le (ih h)
        | wantWrite => exact Nat.le_succ_of_le (ih h)
        | syscall => cases h
        | error => cases h
      · rw [readDataTcp_full (by omega)] at h
        cases h
        exact Nat.le_refl _

/-- A read of at least one byte uses up at least one answer. -/
theorem readDataTcp_script_lt {length : Nat} (hlen : 0 < length)
    {script : List SslRet} {stream : Bytes} {data : Bytes}
    {script' : List SslRet} {stream' : Bytes}
    (h : readDataTcp length script [] stream = .returned data script' stream') :
    script'.length < script.length := by
  cases script with
  | nil =>
      rw [readDataTcp, if_pos (show ([] : Bytes).length < length from hlen)] at h
      cases h
  | cons r script =>
      rw [readDataTcp_round (show ([] : Bytes).length < length from hlen)] at h
      rw [List.length_cons]
      cases r with
      | bytes n => exact Nat.lt_succ_of_le (readDataTcp_script_le h)
      | wantRead => exact Nat.lt_succ_of_le (readDataTcp_script_le h)
      | wantWrite => exact Nat.lt_succ_of_le (readDataTcp_script_le h)
      | syscall => cases h
      | error => cases h

end DemoCannon
