import DemoCannon.Wire

/-! # Strings in the receive buffer

    The handlers look for the NUL of a string from a field of the message on.  The
    buffer is filled with `0xFF` before a message is read, so a string without a NUL
    of its own is not ended by the fill: exactly then the scan leaves the buffer
    (`scans_inside_iff`).  Where it does not, what is behind the buffer has no part
    in what the server does (`dispatch_withBeyond`). -/

namespace DemoCannon

open Interaction Interaction.Program SystemState

/-- The offsets at which handling `m` in the state `s` looks for a NUL: at the three
    strings of a login, at a firing order, and at a pre-arm code whose ninth byte is
    one. -/
def scans (s : Server) (m : Received) : List Nat :=
  if m.buffer.type = mtLoginReq then
    [offsetUserName, offsetPassword, offsetNewPassword]
  else if s.isLoggedIn = false then []
  else if m.buffer.type = mtTargetSequence then [0]
  else if m.buffer.type = mtPrearm then
    if s.systemState = safe ∧ (m.mem 0)[decode.length]? = some 0 then [0] else []
  else []

/-- The message as it is when its handler scans it. -/
def Received.scanned (m : Received) : Received :=
  if m.buffer.type = mtLoginReq then m.ntohlAt offsetIsChangePassword else m

/-- Every scan finds a NUL in the buffer. -/
def ScansInside (s : Server) (m : Received) : Prop :=
  ∀ offset ∈ scans s m, 0 ∈ m.scanned.buffer.data.drop offset

/-! ### What is behind the buffer -/

/-- The message with another stack behind the buffer. -/
def Received.withBeyond (m : Received) (beyond : Bytes) : Received := { m with beyond }

theorem Received.mem_eq_append (m : Received) {offset : Nat} (h : offset ≤ sizeofData) :
    m.mem offset = m.buffer.data.drop offset ++ m.beyond :=
  List.drop_append_of_le_length (m.buffer.data_length.symm ▸ h)

/-- What is read at an index of the buffer. -/
theorem Received.getElem?_mem_zero (m : Received) {i : Nat} (hi : i < sizeofData) :
    (m.mem 0)[i]? = m.buffer.data[i]? :=
  List.getElem?_append_left (m.buffer.data_length.symm ▸ hi)

/-- A string that has its NUL ends there. -/
theorem takeWhile_of_nul_mem {bs : Bytes} (h : 0 ∈ bs) (rest : Bytes) :
    (bs ++ rest).takeWhile (· ≠ 0) = bs.takeWhile (· ≠ 0) := by
  rw [List.takeWhile_append, if_neg]
  intro hlength
  have hall : bs.takeWhile (· ≠ 0) = bs := (List.takeWhile_prefix _).eq_of_length hlength
  have hnul : (0 : UInt8) ∈ bs.takeWhile (· ≠ 0) := hall.symm ▸ h
  exact absurd (List.all_eq_true.mp List.all_takeWhile _ hnul) (by decide)

/-- A string with its NUL in the buffer does not depend on what is behind. -/
theorem Received.cString_withBeyond {m : Received} {offset : Nat}
    (h : 0 ∈ m.buffer.data.drop offset) (beyond : Bytes) :
    (m.withBeyond beyond).cString offset = m.cString offset := by
  have hle : offset ≤ sizeofData := by
    refine Nat.le_of_not_lt fun hlt => ?_
    rw [List.drop_eq_nil_of_le (m.buffer.data_length.symm ▸ Nat.le_of_lt hlt)] at h
    cases h
  rw [cString, cString, mem_eq_append _ hle, mem_eq_append _ hle]
  exact (takeWhile_of_nul_mem h _).trans (takeWhile_of_nul_mem h _).symm

/-- Nor does a word of the buffer. -/
theorem Received.take_mem_withBeyond (m : Received) {offset : Nat}
    (h : offset + 4 ≤ sizeofData) (beyond : Bytes) :
    ((m.withBeyond beyond).mem offset).take 4 = (m.mem offset).take 4 := by
  have hle : 4 ≤ (m.buffer.data.drop offset).length := by
    rw [List.length_drop, m.buffer.data_length]
    omega
  rw [mem_eq_append _ (by omega), mem_eq_append _ (by omega)]
  exact (List.take_append_of_le_length hle).trans (List.take_append_of_le_length hle).symm

theorem Received.ntohl_mem_withBeyond (m : Received) (beyond : Bytes) :
    ntohl ((m.withBeyond beyond).mem 0) = ntohl (m.mem 0) := by
  rw [← ntohl_take, m.take_mem_withBeyond (by decide), ntohl_take]

theorem Received.headD_mem_withBeyond (m : Received) (beyond : Bytes) :
    ((m.withBeyond beyond).mem 0).headD 0 = (m.mem 0).headD 0 := by
  rw [List.headD_eq_head?_getD, List.headD_eq_head?_getD, List.head?_eq_getElem?,
    List.head?_eq_getElem?, getElem?_mem_zero _ (by decide),
    getElem?_mem_zero _ (by decide)]
  rfl

/-- The handler of a firing order sees its string only. -/
theorem processFiringOrder_congr {bs bs' : Bytes}
    (h : bs.takeWhile (· ≠ 0) = bs'.takeWhile (· ≠ 0)) :
    processFiringOrder bs = processFiringOrder bs' := by
  rw [processFiringOrder, processFiringOrder, take_strlen, take_strlen, strlen, strlen, h]

/-- A code that has its NUL behind the eight characters is decoded up to there. -/
theorem takeWhile_xorDecode {bs : Bytes} (h : bs[decode.length]? = some 0) (rest : Bytes) :
    (xorDecode (bs ++ rest)).takeWhile (· ≠ 0) = (xorDecode bs).takeWhile (· ≠ 0) := by
  have hlt : decode.length < bs.length := (List.getElem?_eq_some_iff.mp h).1
  have happend : xorDecode (bs ++ rest) = xorDecode bs ++ rest := by
    rw [xorDecode, xorDecode, List.take_append_of_le_length (Nat.le_of_lt hlt),
      List.drop_append_of_le_length (Nat.le_of_lt hlt), List.append_assoc]
  have hnul : 0 ∈ bs.drop decode.length := by
    refine List.mem_of_getElem? (i := 0) ?_
    rw [List.getElem?_drop]
    exact h
  rw [happend]
  exact takeWhile_of_nul_mem (List.mem_append_right _ hnul) rest

/-- The handler of a pre-arm code looks at a ninth byte first, and no further than a
    NUL there. -/
theorem processPreArm_append {bs : Bytes} (hlong : decode.length < bs.length)
    (rest : Bytes) : processPreArm (bs ++ rest) = processPreArm bs := by
  have hnine : (bs ++ rest)[decode.length]? = bs[decode.length]? :=
    List.getElem?_append_left hlong
  rw [processPreArm, processPreArm, hnine]
  by_cases hnul : bs[decode.length]? = some 0
  · have hstrlen : strlen (bs ++ rest) = strlen bs :=
      congrArg List.length (takeWhile_of_nul_mem (List.mem_of_getElem? hnul) rest)
    rw [hstrlen, takeWhile_xorDecode hnul]
  · simp only [hnul, false_and, if_false]

/-! ### The dispatch -/

section Scans

variable {s : Server} {msg : TMessage} {beyond : Bytes} {now : Int}

/-- The fill bytes are no NULs. -/
theorem nul_mem_buffer (hfit : msg.payload.length ≤ sizeofData) (offset : Nat) :
    0 ∈ msg.buffer.data.drop offset ↔ 0 ∈ msg.payload.drop offset := by
  have hfill : ∀ n k : Nat, (0 : UInt8) ∉ (List.replicate n 0xFF).drop k := by
    intro n k h
    exact absurd (List.eq_of_mem_replicate (List.mem_of_mem_drop h)) (by decide)
  rw [TMessage.buffer_data hfit, List.drop_append, List.mem_append]
  exact or_iff_left (hfill _ _)

/-- What lies behind the flag stays when it is turned around. -/
theorem ntohlAt_drop (m : Received) :
    (m.ntohlAt offsetIsChangePassword).buffer.data.drop offsetNewPassword
      = m.buffer.data.drop offsetNewPassword := by
  have hlen : m.buffer.data.length = sizeofData := m.buffer.data_length
  generalize hword : hostBytes (ntohl (m.buffer.data.drop offsetIsChangePassword)) = word
  have hfour : word.length = 4 := hword ▸ hostBytes_length _
  have hle : word.length ≤ (m.buffer.data.drop offsetIsChangePassword).length := by
    rw [hfour, List.length_drop, hlen]
    decide
  have hbefore : (m.buffer.data.take offsetIsChangePassword ++ word).length
      = offsetNewPassword := by
    rw [List.length_append, List.length_take, hlen, hfour]
    rfl
  change (m.buffer.data.take offsetIsChangePassword
    ++ overwrite (m.buffer.data.drop offsetIsChangePassword) _).drop offsetNewPassword = _
  rw [hword, overwrite_of_le hle, ← List.append_assoc, List.drop_left' hbefore, hfour,
    List.drop_drop]
  rfl

/-- The scans of a login stay inside if there is a NUL behind the flag. -/
theorem scansInside_login (s : Server) {msg : TMessage}
    (hfit : msg.payload.length ≤ sizeofData) (hlogin : msg.type = mtLoginReq)
    (beyond : Bytes) (now : Int) :
    ScansInside s (msg.received beyond now)
      ↔ 0 ∈ msg.payload.drop offsetNewPassword := by
  have htype : (msg.received beyond now).buffer.type = msg.type := rfl
  have hdrop := ntohlAt_drop (msg.received beyond now)
  rw [ScansInside, scans, Received.scanned, htype, if_pos hlogin, if_pos hlogin,
    List.forall_mem_cons, List.forall_mem_cons, List.forall_mem_singleton]
  generalize ((msg.received beyond now).ntohlAt offsetIsChangePassword).buffer.data
    = data at hdrop
  have hnew : 0 ∈ data.drop offsetNewPassword
      ↔ 0 ∈ msg.payload.drop offsetNewPassword := by
    rw [hdrop]
    exact nul_mem_buffer hfit _
  constructor
  · rintro ⟨-, -, hnul⟩
    exact hnew.mp hnul
  · intro hpayload
    have hnul := hnew.mpr hpayload
    -- a NUL behind the flag is one behind the fields before it
    have hbehind : ∀ offset ≤ offsetNewPassword, 0 ∈ data.drop offset := by
      intro offset hle
      rw [← Nat.add_sub_cancel' hle, ← List.drop_drop] at hnul
      exact List.mem_of_mem_drop hnul
    exact ⟨hbehind _ (by decide), hbehind _ (by decide), hnul⟩

/-- **Every scan ends in the buffer** exactly if a login has a NUL behind its flag, and
    a firing order after a login has one at all. -/
theorem scans_inside_iff (s : Server) {msg : TMessage}
    (hfit : msg.payload.length ≤ sizeofData) (beyond : Bytes) (now : Int) :
    ScansInside s (msg.received beyond now)
      ↔ (msg.type = mtLoginReq → 0 ∈ msg.payload.drop offsetNewPassword)
        ∧ (msg.type = mtTargetSequence → s.isLoggedIn = true → 0 ∈ msg.payload) := by
  have htype : (msg.received beyond now).buffer.type = msg.type := rfl
  by_cases hlogin : msg.type = mtLoginReq
  · have horder : msg.type ≠ mtTargetSequence := by
      rw [hlogin]
      decide
    refine (scansInside_login s hfit hlogin beyond now).trans ⟨fun h => ?_, fun h => ?_⟩
    · exact ⟨fun _ => h, fun h => absurd h horder⟩
    · exact h.1 hlogin
  rw [ScansInside, scans, Received.scanned, htype]
  rw [if_neg hlogin, if_neg hlogin]
  by_cases hin : s.isLoggedIn = false
  · rw [if_pos hin]
    refine iff_of_true (List.forall_mem_nil _) ⟨fun h => absurd h hlogin, fun _ h => ?_⟩
    cases hin.symm.trans h
  rw [if_neg hin]
  by_cases horder : msg.type = mtTargetSequence
  · rw [if_pos horder, List.forall_mem_singleton]
    refine (nul_mem_buffer hfit 0).trans ⟨fun h => ?_, fun h => ?_⟩
    · exact ⟨fun h => absurd h hlogin, fun _ _ => h⟩
    · exact h.2 horder ((Bool.not_eq_false _).mp hin)
  rw [if_neg horder]
  refine iff_of_true ?_ ⟨fun h => absurd h hlogin, fun h => absurd h horder⟩
  intro offset hoffset
  repeat' split at hoffset
  · -- the code is scanned only after its ninth byte was seen to be a NUL
    obtain rfl := List.mem_singleton.mp hoffset
    rename_i hcode
    rw [Received.getElem?_mem_zero _ (by decide)] at hcode
    exact List.mem_of_getElem? hcode.2
  · cases hoffset
  · cases hoffset

/-- Where the scans stay inside, a login is handled without what is behind. -/
theorem processLogin_withBeyond {P : Platform} {m : Received}
    (hscans : ∀ offset ∈ [offsetUserName, offsetPassword, offsetNewPassword],
      0 ∈ m.buffer.data.drop offset) (beyond : Bytes) :
    processLogin P (m.withBeyond beyond) = processLogin P m := by
  have hcheck : ∀ user, checkLogin P (m.withBeyond beyond) user = checkLogin P m user := by
    intro user
    have hflag : hostWord ((m.withBeyond beyond).mem offsetIsChangePassword)
        = hostWord (m.mem offsetIsChangePassword) := by
      rw [hostWord, m.take_mem_withBeyond (by decide), hostWord]
    rw [checkLogin, checkLogin, hflag, Received.cString_withBeyond (hscans _ (by simp)),
      Received.cString_withBeyond (hscans _ (by simp)),
      Received.cString_withBeyond (hscans _ (by simp))]
    rfl
  rw [processLogin, processLogin]
  simp only [hcheck]

theorem switchType_withBeyond {m : Received}
    (hscan : m.buffer.type = mtTargetSequence → 0 ∈ m.buffer.data.drop 0)
    (beyond : Bytes) : switchType (m.withBeyond beyond) = switchType m := by
  have hprearm : processPreArm ((m.withBeyond beyond).mem 0) = processPreArm (m.mem 0) := by
    have hlong : decode.length < (m.buffer.data.drop 0).length := by
      rw [List.drop_zero, m.buffer.data_length]
      decide
    rw [Received.mem_eq_append _ (Nat.zero_le _), Received.mem_eq_append _ (Nat.zero_le _)]
    exact (processPreArm_append hlong _).trans (processPreArm_append hlong _).symm
  have horder : m.buffer.type = mtTargetSequence →
      processFiringOrder ((m.withBeyond beyond).mem 0) = processFiringOrder (m.mem 0) :=
    fun h => processFiringOrder_congr (Received.cString_withBeyond (hscan h) beyond)
  rw [switchType, switchType, m.ntohl_mem_withBeyond, m.headD_mem_withBeyond, hprearm,
    show (m.withBeyond beyond).buffer.type = m.buffer.type from rfl]
  by_cases htype : m.buffer.type = mtTargetSequence
  · rw [horder htype]
  · simp only [if_neg htype]

/-- Where the scans stay inside, what the server does with a message does not depend on
    what is behind the buffer. -/
theorem dispatch_withBeyond {P : Platform} {m : Received} (h : ScansInside s m)
    (beyond : Bytes) (t : Server) :
    Ends (dispatch P (m.withBeyond beyond)) s () t ↔ Ends (dispatch P m) s () t := by
  rw [ScansInside, scans, Received.scanned] at h
  rw [dispatch, dispatch, show (m.withBeyond beyond).buffer.type = m.buffer.type from rfl]
  by_cases hlogin : m.buffer.type = mtLoginReq
  · rw [if_pos hlogin, if_pos hlogin] at h
    rw [if_pos hlogin, if_pos hlogin,
      show (m.withBeyond beyond).ntohlAt offsetIsChangePassword
        = (m.ntohlAt offsetIsChangePassword).withBeyond beyond from rfl,
      processLogin_withBeyond h]
  rw [if_neg hlogin, if_neg hlogin] at h
  rw [if_neg hlogin, if_neg hlogin]
  change Ends (if s.isLoggedIn = false then pure () else switchType (m.withBeyond beyond))
      s () t
    ↔ Ends (if s.isLoggedIn = false then pure () else switchType m) s () t
  by_cases hin : s.isLoggedIn = false
  · rw [if_pos hin, if_pos hin]
  · have hscan : m.buffer.type = mtTargetSequence → 0 ∈ m.buffer.data.drop 0 := by
      intro horder
      rw [if_neg hin, if_pos horder] at h
      exact h 0 List.mem_cons_self
    rw [if_neg hin, if_neg hin, switchType_withBeyond hscan]

/-- A login as the client sends it, with a new password. -/
theorem scans_inside_iff_session :
    (Session.credentials.request.payload.length ≤ sizeofData)
      ∧ (ScansInside (start Session.config) (Session.credentials.request.received [] 0)
        ↔ (Session.credentials.request.type = mtLoginReq →
            0 ∈ Session.credentials.request.payload.drop offsetNewPassword)
          ∧ (Session.credentials.request.type = mtTargetSequence →
            (start Session.config).isLoggedIn = true →
            0 ∈ Session.credentials.request.payload)) := by
  have hfit : Session.credentials.request.payload.length ≤ sizeofData := by decide
  exact ⟨hfit, scans_inside_iff (start Session.config) hfit [] 0⟩

/-- A login request with an empty payload is handled before any login, and its strings
    have no NUL in the buffer. -/
theorem login_scan_leaves_buffer :
    ∃ msg : TMessage, msg.payload.length ≤ sizeofData ∧ msg.type = mtLoginReq
      ∧ ∀ beyond now, ¬ ScansInside (start Session.config) (msg.received beyond now) := by
  refine ⟨⟨mtLoginReq, [], by decide⟩, by decide, rfl, fun beyond now h => ?_⟩
  cases (scansInside_login _ (by decide) rfl beyond now).mp h

end Scans

end DemoCannon
