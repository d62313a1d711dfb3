import Mathlib.Data.Fintype.Card
import Mathlib.Data.List.Nodup
import DemoCannon.Handlers

/-! # What the client sends

    The client reads texts from its windows into `char` arrays, checks them, and
    puts them into messages.  Its login and its firing orders are modelled here,
    from the text in the window to the bytes on the connection. -/

namespace DemoCannon

open SystemState

/-! ## Texts -/

/-- The text of a window. -/
structure WindowText where
  text : Bytes
  nul_not_mem : 0 ∉ text

/-- A `char` array with a string in it, the rest of it zero. -/
structure CharArray (size : Nat) where
  text : Bytes
  /-- There is room for the NUL. -/
  text_lt : text.length < size
  nul_not_mem : 0 ∉ text

/-- The array itself. -/
def CharArray.bytes {size : Nat} (a : CharArray size) : Bytes :=
  a.text ++ List.replicate (size - a.text.length) 0

/-- `memcpy` of the first `n` bytes. -/
def CharArray.memcpy {size : Nat} (a : CharArray size) (n : Nat) : Bytes := a.bytes.take n

/-- `GetWindowTextA` into an array of size `n + 1`, which it cuts off to. -/
def getWindowTextA (n : Nat) (w : WindowText) : CharArray (n + 1) where
  text := w.text.take n
  text_lt := Nat.lt_succ_of_le (List.length_take_le n w.text)
  nul_not_mem h := w.nul_not_mem (List.mem_of_mem_take h)

/-! ## `SanityCheck.cpp` -/

def maxUsername : Nat := 10
def maxPassword : Nat := 20
def minPassword : Nat := 10
def maxEngageOrder : Nat := 10

def inputTooLongId : Int := -1
def inputWrongIdRule : Int := -2
def inputTooShordPassword : Int := -1
def inputTooLongPassword : Int := -2
def inputWrongPasswordRule : Int := -3
def inputTooLongEngageOrder : Int := -1
def inputWrongEngageOrderRule : Int := -2

/-- `isalpha`. -/
def isAlpha (c : UInt8) : Bool := (0x41 ≤ c ∧ c ≤ 0x5A) ∨ (0x61 ≤ c ∧ c ≤ 0x7A)

/-- `ispunct`: what is printed and neither a letter, nor a digit, nor the space. -/
def isPunct (c : UInt8) : Bool := (0x21 ≤ c ∧ c ≤ 0x7E) ∧ !isAlpha c ∧ !isDigit c

/-- A check of the length and of each character; `1` where both succeed. -/
def sanityChars (max : Nat) (tooLong wrongRule : Int) (allowed : UInt8 → Bool)
    (buf : Bytes) : Int :=
  if max < buf.length then tooLong
  else if buf.all allowed then 1
  else wrongRule

/-- `sanity_id`. -/
def sanityId (buf : Bytes) : Int :=
  sanityChars maxUsername inputTooLongId inputWrongIdRule
    (fun c => isAlpha c || isDigit c) buf

/-- `sanity_engage_order`. -/
def sanityEngageOrder (buf : Bytes) : Int :=
  sanityChars maxEngageOrder inputTooLongEngageOrder inputWrongEngageOrderRule isDigit buf

/-- `validateStrongPassword`: a digit, and a special character among the others. -/
def validateStrongPassword (password : Bytes) : Bool :=
  password.any isDigit && password.any fun c => !isDigit c && isPunct c

/-- `sanity_password`. -/
def sanityPassword (buf : Bytes) : Int :=
  if buf.length < minPassword then inputTooShordPassword
  else if maxPassword < buf.length then inputTooLongPassword
  else if validateStrongPassword buf then 1
  else inputWrongPasswordRule

/-- With negative codes a text is refused exactly if it is too long or has a
    character that is not allowed. -/
theorem sanityChars_neg_iff {max : Nat} {tooLong wrongRule : Int} (hlong : tooLong < 0)
    (hwrong : wrongRule < 0) {allowed : UInt8 → Bool} {buf : Bytes} :
    sanityChars max tooLong wrongRule allowed buf < 0
      ↔ ¬ (buf.length ≤ max ∧ buf.all allowed = true) := by
  rw [sanityChars]
  by_cases hlen : max < buf.length
  · rw [if_pos hlen]
    exact iff_of_true hlong fun h => Nat.not_lt.mpr h.1 hlen
  rw [if_neg hlen]
  by_cases hall : buf.all allowed = true
  · rw [if_pos hall]
    exact iff_of_false (by decide) (not_not_intro ⟨Nat.not_lt.mp hlen, hall⟩)
  · rw [if_neg hall]
    exact iff_of_true hwrong fun h => hall h.2

/-- An accepted password has at least ten characters. -/
theorem minPassword_le_of_sanityPassword {buf : Bytes} (h : sanityPassword buf = 1) :
    minPassword ≤ buf.length := by
  rw [sanityPassword] at h
  by_cases hshort : buf.length < minPassword
  · rw [if_pos hshort] at h
    exact absurd h (by decide)
  · exact Nat.not_lt.mp hshort

/-! ## Login -/

theorem CharArray.bytes_length {size : Nat} (a : CharArray size) :
    a.bytes.length = size := by
  rw [bytes, List.length_append, List.length_replicate]
  exact Nat.add_sub_cancel' (Nat.le_of_lt a.text_lt)

theorem CharArray.memcpy_length {size n : Nat} (a : CharArray size) (h : n ≤ size) :
    (a.memcpy n).length = n := by
  rw [memcpy, List.length_take, a.bytes_length, Nat.min_eq_left h]

/-- The payload of `TMesssageLoginRequest`: two fields that need not have a NUL,
    the flag, and the new password. -/
def loginPayload (username : CharArray (maxUsername + 1))
    (password : CharArray (maxPassword + 1)) (isChangePassword : BitVec 32)
    (newPassword : Bytes) : Bytes :=
  username.memcpy maxUsername ++ (password.memcpy maxPassword
    ++ (htonl isChangePassword ++ newPassword))

theorem loginPayload_length (username : CharArray (maxUsername + 1))
    (password : CharArray (maxPassword + 1)) (isChangePassword : BitVec 32)
    (newPassword : Bytes) :
    (loginPayload username password isChangePassword newPassword).length
      = offsetNewPassword + newPassword.length := by
  rw [loginPayload, List.length_append, List.length_append, List.length_append,
    username.memcpy_length (Nat.le_succ _), password.memcpy_length (Nat.le_succ _),
    htonl_length, maxUsername, maxPassword, offsetNewPassword]
  omega

/-- The field `NewPassword`: the new password, or as `memset` left it. -/
def newPasswordField (newPassword : Option (CharArray (maxPassword + 1))) : Bytes :=
  match newPassword with
  | some newPassword => newPassword.memcpy maxPassword
  | none => List.replicate maxPassword 0

theorem newPasswordField_length (newPassword : Option (CharArray (maxPassword + 1))) :
    (newPasswordField newPassword).length = maxPassword := by
  cases newPassword with
  | some newPassword => exact newPassword.memcpy_length (Nat.le_succ _)
  | none => exact List.length_replicate

/-- What `LoginToServer` sends. -/
def loginToServer (username : CharArray (maxUsername + 1))
    (password : CharArray (maxPassword + 1)) (withNewPassword : Bool)
    (newPassword : Option (CharArray (maxPassword + 1))) : TMessage where
  type := mtLoginReq
  payload :=
    if withNewPassword = true ∧ newPassword.isSome = true then
      loginPayload username password 1 (newPasswordField newPassword)
    else loginPayload username password 0 (newPasswordField none)
  payload_lt := by
    split <;> rw [loginPayload_length, newPasswordField_length] <;> decide

/-! ## Firing orders -/

/-- `CountDups`: the characters that come again later. -/
def countDups : Bytes → Nat
  | [] => 0
  | c :: rest => (if c ∈ rest then 1 else 0) + countDups rest

theorem countDups_eq_zero {text : Bytes} : countDups text = 0 ↔ text.Nodup := by
  induction text with
  | nil => exact iff_of_true rfl List.nodup_nil
  | cons c rest ih =>
      rw [countDups, List.nodup_cons, Nat.add_eq_zero_iff, ih]
      by_cases hc : c ∈ rest
      · rw [if_pos hc]
        exact iff_of_false (fun h => absurd h.1 (by decide)) fun h => h.1 hc
      · rw [if_neg hc]
        exact and_congr_left fun _ => iff_of_true rfl hc

/-- The room for a text in `EngagementOrder`, without the NUL. -/
def maxText : Nat := 511

/-- `case IDC_EDIT_ENGAGE_ORDER`: `EngagementOrder` after an edit of the window, and
    the text the window is left with. -/
def editEngageOrder (engagementOrder : CharArray (maxText + 1)) (w : WindowText) :
    CharArray (maxText + 1) × WindowText :=
  let temp := getWindowTextA maxText w
  if countDups temp.text ≠ 0 then
    -- the order before the edit is shown again
    (engagementOrder, ⟨engagementOrder.text, engagementOrder.nul_not_mem⟩)
  else (getWindowTextA maxText w, w)

/-- What a handler of the client calls. -/
inductive ClientCall where
  | displayMessageOkBox (msg : String)
  | sendTargetOrderToServer (targetOrder : CharArray (maxText + 1))
  | sendStateChangeRequestToServer (state : SystemState)

/-- `case IDC_CHECKBOX_AUTO_ENGAGE`. -/
def checkboxAutoEngage (checked : Bool) (engagementOrder : CharArray (maxText + 1)) :
    List ClientCall :=
  if checked then [.sendStateChangeRequestToServer prearmed]
  else
    let ret := sanityEngageOrder engagementOrder.text
    let box : List ClientCall :=
      if ret = inputTooLongEngageOrder then
        [.displayMessageOkBox "you entered too long engage order!\n"]
      else if ret = inputWrongEngageOrderRule then
        [.displayMessageOkBox "wrong engage order rule!\n"]
      else []
    if ret < 0 then box
    else
      box ++ [.sendTargetOrderToServer engagementOrder,
        .sendStateChangeRequestToServer engageAuto]

/-- `sizeof(MsgTargetOrder.FiringOrder)`. -/
def sizeofFiringOrder : Nat := 11

/-- What `SendTargetOrderToServer` sends, if anything: the text and its NUL.  A text
    that does not fit ends the client in `strcpy_s`. -/
def sendTargetOrderToServer {size : Nat} (isClientConnected : Bool)
    (targetOrder : CharArray size) : Option TMessage :=
  if h : isClientConnected = true ∧ targetOrder.text.length < sizeofFiringOrder then
    some {
      type := mtTargetSequence
      payload := targetOrder.text ++ [0]
      payload_lt := by
        rw [List.length_append]
        exact Nat.lt_trans (Nat.add_lt_add_right h.2 1) (by decide) }
  else none

/-- A text without duplicates is never cut off. -/
theorem getWindowTextA_of_nodup {w : WindowText}
    (h : (getWindowTextA maxText w).text.Nodup) :
    (getWindowTextA maxText w).text = w.text := by
  have hfin : ((getWindowTextA maxText w).text.map UInt8.toFin).Nodup :=
    h.map fun _ _ => UInt8.eq_of_toFin_eq
  have hcard := hfin.length_le_card
  rw [List.length_map, Fintype.card_fin] at hcard
  change (w.text.take maxText).length ≤ 256 at hcard
  rw [List.length_take] at hcard
  refine List.take_of_length_le ?_
  rw [maxText] at hcard ⊢
  omega

end DemoCannon
