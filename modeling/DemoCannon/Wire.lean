import DemoCannon.Client
import DemoCannon.Targets

/-! # From the client's texts to the server's state

    What the operator types has to come out of the server's buffer again: the
    credentials as strings (`credentials_survive_iff`) and the firing order as
    targets (`firing_order_agrees`).  The fields of a login are as long as the texts
    may be, so a text of full length has no NUL in its field and goes on into the
    next one. -/

namespace DemoCannon

open Interaction Interaction.Program SystemState

/-- The message as the server receives it. -/
def TMessage.received (m : TMessage) (beyond : Bytes) (now : Int) : Received :=
  ⟨m.buffer, beyond, now⟩

/-! ## Strings in fixed fields -/

theorem CharArray.all_text {size : Nat} (a : CharArray size) :
    ∀ c ∈ a.text, decide (c ≠ 0) = true :=
  fun _ hc => decide_eq_true fun h0 => a.nul_not_mem (h0 ▸ hc)

/-- A field with no room for the NUL of its array. -/
theorem CharArray.memcpy_eq {n : Nat} (a : CharArray (n + 1)) :
    a.memcpy n = a.text ++ List.replicate (n - a.text.length) 0 := by
  have hle : a.text.length ≤ n := Nat.le_of_lt_succ a.text_lt
  rw [memcpy, bytes, List.take_append, List.take_of_length_le hle, List.take_replicate]
  congr 2
  omega

/-- A string read from such a field ends where it should if the field has room for a
    NUL all the same, or the next one begins with one. -/
theorem takeWhile_memcpy {n : Nat} (a : CharArray (n + 1)) (rest : Bytes) :
    (a.memcpy n ++ rest).takeWhile (· ≠ 0) = a.text
      ↔ a.text.length < n ∨ rest.takeWhile (· ≠ 0) = [] := by
  rw [a.memcpy_eq, List.append_assoc, List.takeWhile_append_of_pos a.all_text,
    List.append_right_eq_self]
  by_cases hlt : a.text.length < n
  · obtain ⟨k, hk⟩ : ∃ k, n - a.text.length = k + 1 := ⟨n - a.text.length - 1, by omega⟩
    rw [hk, List.replicate_succ, List.cons_append]
    exact iff_of_true (List.takeWhile_cons_of_neg (by decide)) (Or.inl hlt)
  · rw [Nat.sub_eq_zero_of_le (Nat.not_lt.mp hlt), List.replicate_zero, List.nil_append]
    exact (or_iff_right hlt).symm

/-- A field with a text in it begins with no NUL. -/
theorem takeWhile_memcpy_ne_nil {n : Nat} (a : CharArray (n + 1))
    (hpos : 0 < a.text.length) (rest : Bytes) :
    (a.memcpy n ++ rest).takeWhile (· ≠ 0) ≠ [] := by
  rw [a.memcpy_eq, List.append_assoc, List.takeWhile_append_of_pos a.all_text]
  exact List.append_ne_nil_of_left_ne_nil (List.ne_nil_of_length_pos hpos) _

/-- A word is turned around in place. -/
theorem ntohlAt_data {m : Received} {before rest : Bytes} {word : BitVec 32}
    {offset : Nat} (hdata : m.buffer.data = before ++ (htonl word ++ rest))
    (hoffset : before.length = offset) :
    (m.ntohlAt offset).buffer.data = before ++ (hostBytes word ++ rest) := by
  have hdrop : m.buffer.data.drop offset = htonl word ++ rest := by
    rw [hdata, List.drop_left' hoffset]
  have htake : m.buffer.data.take offset = before := by
    rw [hdata, List.take_left' hoffset]
  have hle : (hostBytes word).length ≤ (htonl word ++ rest).length := by
    rw [hostBytes_length, List.length_append, htonl_length]
    exact Nat.le_add_right 4 _
  change m.buffer.data.take offset
    ++ overwrite (m.buffer.data.drop offset)
      (hostBytes (ntohl (m.buffer.data.drop offset))) = _
  rw [htake, hdrop, ntohl_htonl, overwrite_of_le hle, hostBytes_length,
    List.drop_left' (htonl_length word)]

/-! ## Credentials -/

/-- What the operator has typed for a login. -/
structure Credentials where
  username : CharArray (maxUsername + 1)
  password : CharArray (maxPassword + 1)
  newPassword : CharArray (maxPassword + 1)
  withNewPassword : Bool

namespace Credentials

variable {c : Credentials} {beyond : Bytes} {now : Int}

/-- What the client sends. -/
def request (c : Credentials) : TMessage :=
  loginToServer c.username c.password c.withNewPassword (some c.newPassword)

/-- The request as `ProcessLogin` finds it, with the flag in host order. -/
def received (c : Credentials) (beyond : Bytes) (now : Int) : Received :=
  (c.request.received beyond now).ntohlAt offsetIsChangePassword

/-- The flag as it is sent. -/
def flag (c : Credentials) : BitVec 32 := if c.withNewPassword then 1 else 0

/-- The last field as it is sent. -/
def newField (c : Credentials) : Bytes :=
  newPasswordField (if c.withNewPassword then some c.newPassword else none)

/-- The validators of the client accept all three texts. -/
structure Accepted (c : Credentials) : Prop where
  username : sanityId c.username.text = 1
  password : sanityPassword c.password.text = 1
  newPassword : sanityPassword c.newPassword.text = 1

/-- The strings that `ProcessLogin` builds are those that were typed. -/
structure Survive (c : Credentials) (m : Received) : Prop where
  username : m.cString offsetUserName = c.username.text
  password : m.cString offsetPassword = c.password.text
  newPassword : c.withNewPassword = true →
    m.cString offsetNewPassword = c.newPassword.text

theorem request_payload (c : Credentials) :
    c.request.payload = loginPayload c.username c.password c.flag c.newField := by
  rw [request, flag, newField]
  cases c.withNewPassword with
  | true => rfl
  | false => rfl

theorem request_length (c : Credentials) : c.request.payload.length = 54 := by
  rw [request_payload, loginPayload_length, newField, newPasswordField_length]
  rfl

/-- Behind the request the buffer is filled. -/
def fill (beyond : Bytes) : Bytes := List.replicate (sizeofData - 54) 0xFF ++ beyond

/-- The request in memory: four fields, and what is behind them. -/
theorem received_mem (c : Credentials) (beyond : Bytes) (now : Int) :
    (c.received beyond now).mem 0
      = c.username.memcpy maxUsername ++ (c.password.memcpy maxPassword
        ++ (hostBytes c.flag ++ (c.newField ++ fill beyond))) := by
  have hdata : (c.request.received beyond now).buffer.data
      = (c.username.memcpy maxUsername ++ c.password.memcpy maxPassword)
        ++ (htonl c.flag ++ (c.newField ++ List.replicate (sizeofData - 54) 0xFF)) := by
    change c.request.buffer.data = _
    rw [TMessage.buffer_data (by rw [request_length]; decide), request_length,
      request_payload, loginPayload]
    simp only [List.append_assoc]
  have hbefore : (c.username.memcpy maxUsername ++ c.password.memcpy maxPassword).length
      = offsetIsChangePassword := by
    rw [List.length_append, c.username.memcpy_length (Nat.le_succ _),
      c.password.memcpy_length (Nat.le_succ _)]
    rfl
  change (c.received beyond now).buffer.data ++ beyond = _
  rw [received, ntohlAt_data hdata hbefore, fill]
  simp only [List.append_assoc]

/-- The flag is read as it was sent. -/
theorem flag_received (c : Credentials) (beyond : Bytes) (now : Int) :
    hostWord ((c.received beyond now).mem offsetIsChangePassword) = c.flag := by
  have hbefore : (c.username.memcpy maxUsername ++ c.password.memcpy maxPassword).length
      = offsetIsChangePassword := by
    rw [List.length_append, c.username.memcpy_length (Nat.le_succ _),
      c.password.memcpy_length (Nat.le_succ _)]
    rfl
  have hmem : (c.received beyond now).mem offsetIsChangePassword
      = hostBytes c.flag ++ (c.newField ++ fill beyond) := by
    change ((c.received beyond now).mem 0).drop offsetIsChangePassword = _
    rw [received_mem, ← List.append_assoc, List.drop_left' hbefore]
  rw [hmem, hostWord_hostBytes]

/-- The user name ends where it should if its field has room for the NUL, since the
    password follows. -/
theorem username_iff (hpassword : minPassword ≤ c.password.text.length) :
    (c.received beyond now).cString offsetUserName = c.username.text
      ↔ c.username.text.length < maxUsername := by
  have hpos : 0 < c.password.text.length := Nat.lt_of_lt_of_le (by decide) hpassword
  rw [Received.cString, offsetUserName, received_mem, takeWhile_memcpy]
  exact or_iff_left (takeWhile_memcpy_ne_nil c.password hpos _)

/-- The password is followed by the flag, whose first byte is a NUL where it is not
    set. -/
theorem password_iff : (c.received beyond now).cString offsetPassword = c.password.text
    ↔ (c.withNewPassword = true → c.password.text.length < maxPassword) := by
  have hmem : (c.received beyond now).mem offsetPassword
      = c.password.memcpy maxPassword
        ++ (hostBytes c.flag ++ (c.newField ++ fill beyond)) := by
    change ((c.received beyond now).mem 0).drop offsetPassword = _
    rw [received_mem]
    exact List.drop_left' (c.username.memcpy_length (Nat.le_succ _))
  rw [Received.cString, hmem, takeWhile_memcpy, flag]
  cases c.withNewPassword with
  | true => exact (or_iff_left (by rintro ⟨⟩)).trans ⟨fun h _ => h, fun h => h rfl⟩
  | false => exact iff_of_true (Or.inr rfl) (by rintro ⟨⟩)

/-- The new password is followed by the fill bytes. -/
theorem newPassword_iff (hwith : c.withNewPassword = true) :
    (c.received beyond now).cString offsetNewPassword = c.newPassword.text
      ↔ c.newPassword.text.length < maxPassword := by
  have hmem : (c.received beyond now).mem offsetNewPassword
      = c.newPassword.memcpy maxPassword ++ fill beyond := by
    have hbefore : (c.username.memcpy maxUsername ++ (c.password.memcpy maxPassword
        ++ hostBytes c.flag)).length = offsetNewPassword := by
      rw [List.length_append, List.length_append,
        c.username.memcpy_length (Nat.le_succ _),
        c.password.memcpy_length (Nat.le_succ _), hostBytes_length]
      rfl
    change ((c.received beyond now).mem 0).drop offsetNewPassword = _
    rw [received_mem, ← List.append_assoc, ← List.append_assoc, ← List.append_assoc,
      List.append_assoc (c.username.memcpy maxUsername), List.append_assoc _ c.newField,
      List.drop_left' hbefore, newField, if_pos hwith, newPasswordField]
  rw [Received.cString, hmem, takeWhile_memcpy]
  exact or_iff_left (List.cons_ne_nil 0xFF _)

end Credentials

/-- **Credentials survive the wire** exactly if the user name is shorter than its
    field, and with a new password both passwords are shorter than theirs. -/
theorem credentials_survive_iff {c : Credentials} (hc : c.Accepted) (beyond : Bytes)
    (now : Int) : c.Survive (c.received beyond now)
      ↔ c.username.text.length < maxUsername
        ∧ (c.withNewPassword = true → c.password.text.length < maxPassword
          ∧ c.newPassword.text.length < maxPassword) := by
  have hpassword := minPassword_le_of_sanityPassword hc.password
  constructor
  · intro h
    refine ⟨(Credentials.username_iff hpassword).mp h.username, fun hwith => ?_⟩
    exact ⟨Credentials.password_iff.mp h.password hwith,
      (Credentials.newPassword_iff hwith).mp (h.newPassword hwith)⟩
  · rintro ⟨husername, hwith⟩
    exact ⟨(Credentials.username_iff hpassword).mpr husername,
      Credentials.password_iff.mpr fun h => (hwith h).1,
      fun h => (Credentials.newPassword_iff h).mpr (hwith h).2⟩

namespace Session

/-- `op` with the password `password12!`, to be changed to `password34!`. -/
def credentials : Credentials where
  username := ⟨[0x6f, 0x70], by decide, by decide⟩
  password := ⟨[0x70, 0x61, 0x73, 0x73, 0x77, 0x6f, 0x72, 0x64, 0x31, 0x32, 0x21],
    by decide, by decide⟩
  newPassword := ⟨[0x70, 0x61, 0x73, 0x73, 0x77, 0x6f, 0x72, 0x64, 0x33, 0x34, 0x21],
    by decide, by decide⟩
  withNewPassword := true

/-- The user name `operator01`, of ten characters. -/
def longUsername : CharArray (maxUsername + 1) :=
  ⟨[0x6f, 0x70, 0x65, 0x72, 0x61, 0x74, 0x6f, 0x72, 0x30, 0x31], by decide, by decide⟩

end Session

theorem credentials_survive_iff_session :
    Session.credentials.Accepted
      ∧ (Session.credentials.Survive (Session.credentials.received [] 0)
        ↔ Session.credentials.username.text.length < maxUsername
          ∧ (Session.credentials.withNewPassword = true →
            Session.credentials.password.text.length < maxPassword
              ∧ Session.credentials.newPassword.text.length < maxPassword)) := by
  have hc : Session.credentials.Accepted := ⟨by decide, by decide, by decide⟩
  exact ⟨hc, credentials_survive_iff hc [] 0⟩

/-- A user name of ten characters is accepted, and goes on into the password. -/
theorem longUsername_lost : ∃ c : Credentials, c.Accepted
    ∧ ∀ beyond now, ¬ c.Survive (c.received beyond now) := by
  refine ⟨{ Session.credentials with username := Session.longUsername },
    ⟨by decide, by decide, by decide⟩, fun beyond now h => ?_⟩
  have hlt := (Credentials.username_iff (by decide)).mp h.username
  exact absurd hlt (by decide)

/-! ## Firing orders -/

/-- The text of a firing order that a client may send: at most ten decimal digits. -/
def IsOrderText (text : Bytes) : Prop :=
  text.length ≤ maxEngageOrder ∧ text.all isDigit = true

instance (text : Bytes) : Decidable (IsOrderText text) :=
  inferInstanceAs (Decidable (_ ∧ _))

/-- The server has the digits of `text` for its targets, no target twice. -/
structure HasOrder (text : Bytes) (s : Server) : Prop where
  number : s.autoEngage.numberOfTartgets = text.length
  digits : ∀ (i : Nat) (c : UInt8), text[i]? = some c →
    s.autoEngage.firingOrder[i]? = some (digitValue c)
  different : ∀ i j : Nat, i < text.length → j < text.length →
    s.autoEngage.firingOrder[i]? = s.autoEngage.firingOrder[j]? → i = j
  have_iff : s.autoEngage.haveFiringOrder = true ↔ text ≠ []

/-- An edit without duplicates is the text of the window. -/
theorem editEngageOrder_text {engagementOrder : CharArray (maxText + 1)} {w : WindowText}
    (hdups : countDups (getWindowTextA maxText w).text = 0) :
    (editEngageOrder engagementOrder w).1.text = w.text := by
  rw [editEngageOrder, if_neg (not_not_intro hdups)]
  exact getWindowTextA_of_nodup (countDups_eq_zero.mp hdups)

/-- With the box not checked, the order is sent if it is one. -/
theorem sendTargetOrder_mem_iff (engagementOrder : CharArray (maxText + 1)) :
    .sendTargetOrderToServer engagementOrder ∈ checkboxAutoEngage false engagementOrder
      ↔ IsOrderText engagementOrder.text := by
  have hneg : sanityEngageOrder engagementOrder.text < 0
      ↔ ¬ IsOrderText engagementOrder.text := sanityChars_neg_iff (by decide) (by decide)
  rw [checkboxAutoEngage, if_neg (by decide)]
  by_cases horder : IsOrderText engagementOrder.text
  · rw [if_neg fun h => hneg.mp h horder]
    exact iff_of_true (List.mem_append_right _ List.mem_cons_self) horder
  · rw [if_pos (hneg.mpr horder)]
    refine iff_of_false (fun h => ?_) horder
    repeat' split at h
    · cases List.mem_singleton.mp h
    · cases List.mem_singleton.mp h
    · cases h

/-- The text of an order, with its NUL, is what the server gets to see. -/
theorem takeWhile_order {text rest : Bytes} (hnul : 0 ∉ text) :
    ((text ++ [0]) ++ rest).takeWhile (· ≠ 0) = text := by
  have hall : ∀ c ∈ text, decide (c ≠ 0) = true :=
    fun _ hc => decide_eq_true fun h0 => hnul (h0 ▸ hc)
  rw [List.append_assoc, List.takeWhile_append_of_pos hall]
  exact List.append_right_eq_self.mpr (List.takeWhile_cons_of_neg (by decide))

/-- Digits have different values. -/
theorem digitValue_inj {c d : UInt8} (hc : isDigit c = true) (hd : isDigit d = true)
    (h : digitValue c = digitValue d) : c = d := by
  have hlow : ∀ {e : UInt8}, isDigit e = true → 0x30 ≤ e.toNat :=
    fun he => UInt8.le_iff_toNat_le.mp (of_decide_eq_true he).1
  refine UInt8.toNat_inj.mp ?_
  have hc' := hlow hc
  have hd' := hlow hd
  rw [digitValue, digitValue] at h
  omega

section Order

variable {P : Platform} {s t : Server} {text : Bytes}

/-- An order that is handled is stored. -/
theorem hasOrder_of_step {m : Received} (hin : s.isLoggedIn = true)
    (htype : m.buffer.type = mtTargetSequence) (hst : Step P s (.message m) t)
    (htext : m.cString 0 = text) (horder : IsOrderText text) (hnodup : text.Nodup) :
    HasOrder text t := by
  have hlength : strlen (m.mem 0) = text.length := congrArg List.length htext
  have hcontrol := step_message hst
  have htargets := post_targets_dispatch P m s () t hst
  have hin' : s.control.isLoggedIn = true := hin
  rw [Received.event_order htype, Control.next, if_pos hin', Control.order_eq] at hcontrol
  rw [if_pos ⟨hin, htype⟩] at htargets
  have hhave : t.autoEngage.haveFiringOrder = decide (Control.IsOrder (m.mem 0)) :=
    congrArg Control.haveFiringOrder hcontrol
  have hnumber : t.autoEngage.numberOfTartgets
      = if Control.IsOrder (m.mem 0) then strlen (m.mem 0) else 0 :=
    congrArg Control.numberOfTartgets hcontrol
  have hstored : t.autoEngage.firingOrder = storeOrder (m.mem 0) s.autoEngage.firingOrder :=
    congrArg Prod.fst htargets
  -- the server takes every such text for an order, except for the empty one
  have hisOrder : Control.IsOrder (m.mem 0) ↔ text ≠ [] := by
    have hdigits : ((m.mem 0).take (strlen (m.mem 0))).all isDigit = true := by
      rw [take_strlen]
      exact (congrArg (List.all · isDigit) htext).trans horder.2
    refine ⟨fun h => List.ne_nil_of_length_pos (hlength ▸ h.1), fun hne => ?_⟩
    exact ⟨hlength ▸ List.length_pos_of_ne_nil hne, hlength ▸ horder.1, hdigits⟩
  have hget : ∀ (i : Nat) (c : UInt8), text[i]? = some c →
      t.autoEngage.firingOrder[i]? = some (digitValue c) := by
    intro i c hc
    have hne : text ≠ [] := by
      rintro rfl
      cases hc
    have hc' : (m.cString 0)[i]? = some c := htext.symm ▸ hc
    rw [hstored]
    exact storeOrder_getElem? (hisOrder.mpr hne) hc' _
  refine ⟨?_, hget, ?_, ?_⟩
  · by_cases hne : text = []
    · rw [hnumber, if_neg fun h => hisOrder.mp h hne, hne]
      rfl
    · rw [hnumber, if_pos (hisOrder.mpr hne), hlength]
  · intro i j hi hj hij
    have hall := List.all_eq_true.mp horder.2
    rw [hget i _ (List.getElem?_eq_getElem hi),
      hget j _ (List.getElem?_eq_getElem hj)] at hij
    have hsame : text[i] = text[j] := digitValue_inj (hall _ (List.getElem_mem hi))
      (hall _ (List.getElem_mem hj)) (Option.some.inj hij)
    exact (List.Nodup.getElem_inj_iff hnodup).mp hsame
  · rw [hhave, decide_eq_true_iff]
    exact hisOrder

/-- What is sent of an order is read back as its text. -/
theorem sendTargetOrderToServer_cString {size : Nat} (order : CharArray size)
    (horder : IsOrderText order.text) : ∃ m : TMessage,
      sendTargetOrderToServer true order = some m ∧ m.type = mtTargetSequence
        ∧ ∀ (beyond : Bytes) (now : Int),
          (m.received beyond now).cString 0 = order.text := by
  have hroom : order.text.length < sizeofFiringOrder := Nat.lt_succ_of_le horder.1
  refine ⟨_, dif_pos ⟨rfl, hroom⟩, rfl, fun beyond now => ?_⟩
  have hfit : (order.text ++ [0]).length ≤ sizeofData := by
    rw [List.length_append]
    exact Nat.le_trans (Nat.succ_le_of_lt hroom) (by decide)
  rw [Received.cString, Received.mem, List.drop_zero, TMessage.received,
    TMessage.buffer_data hfit, List.append_assoc (order.text ++ [0])]
  exact takeWhile_order order.nul_not_mem

/-- **Client and server agree on firing orders**: of the texts without duplicates the
    box sends exactly the orders, and the server stores the digits of what is sent. -/
theorem firing_order_agrees (engagementOrder : CharArray (maxText + 1)) {w : WindowText}
    (hdups : countDups (getWindowTextA maxText w).text = 0) :
    (.sendTargetOrderToServer (editEngageOrder engagementOrder w).1
        ∈ checkboxAutoEngage false (editEngageOrder engagementOrder w).1
      ↔ IsOrderText w.text)
    ∧ (IsOrderText w.text → ∃ m : TMessage,
      sendTargetOrderToServer true (editEngageOrder engagementOrder w).1 = some m
        ∧ ∀ (P : Platform) (s t : Server) (beyond : Bytes) (now : Int),
          s.isLoggedIn = true → Step P s (.message (m.received beyond now)) t →
          HasOrder w.text t) := by
  have htext : (editEngageOrder engagementOrder w).1.text = w.text :=
    editEngageOrder_text hdups
  generalize (editEngageOrder engagementOrder w).1 = order at htext
  refine ⟨htext ▸ sendTargetOrder_mem_iff order, fun horder => ?_⟩
  obtain ⟨m, hsend, htype, hstring⟩ :=
    sendTargetOrderToServer_cString order (htext.symm ▸ horder)
  refine ⟨m, hsend, fun P s t beyond now hin hst => ?_⟩
  have hnodup : w.text.Nodup :=
    getWindowTextA_of_nodup (countDups_eq_zero.mp hdups) ▸ countDups_eq_zero.mp hdups
  exact hasOrder_of_step hin htype hst ((hstring beyond now).trans htext) horder hnodup

/-- The order `30` is stored in the session of `op`. -/
theorem firing_order_agrees_session :
    ∃ (w : WindowText) (order : CharArray (maxText + 1)) (s t : Server) (m : TMessage),
      w.text = [0x33, 0x30] ∧ countDups (getWindowTextA maxText w).text = 0
        ∧ sendTargetOrderToServer true (editEngageOrder order w).1 = some m
        ∧ s.isLoggedIn = true ∧ Step Session.platform s (.message (m.received [] 0)) t
        ∧ HasOrder w.text t := by
  let w : WindowText := ⟨[0x33, 0x30], by decide⟩
  let order : CharArray (maxText + 1) := ⟨[], by decide, by decide⟩
  have hdups : countDups (getWindowTextA maxText w).text = 0 := by decide
  obtain ⟨-, hsent⟩ := firing_order_agrees order hdups
  obtain ⟨m, hsend, hstored⟩ := hsent (by decide)
  have hm : sendTargetOrderToServer true (editEngageOrder order w).1
      = some ⟨mtTargetSequence, [0x33, 0x30, 0], by decide⟩ := rfl
  obtain rfl := Option.some.inj (hm.symm.trans hsend)
  obtain ⟨_, s, t, -, hst, hin⟩ := Session.reaches_step [.message Session.login]
    (.message (TMessage.received ⟨mtTargetSequence, [0x33, 0x30, 0], by decide⟩ [] 0))
    (fun s _ => s.isLoggedIn) (by decide +kernel)
  exact ⟨w, order, s, t, _, rfl, hdups, hsend, hin, hst, hstored _ s t [] 0 hin hst⟩

end Order

end DemoCannon
