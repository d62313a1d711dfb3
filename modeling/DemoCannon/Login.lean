import DemoCannon.Device

/-! # Logging in: the user table and `VerifyLogin`, `UpdatePassword`

    The statements the server gives to sqlite are functions on the rows of the
    table `user`.  The digest, the reading of a time stamp and the writing of
    one are the platform's. -/

namespace DemoCannon

/-- `LoginState_t`. -/
inductive LoginState where
  | loginUnknown
  | loginOk
  | loginFail
  | dateExpired
  deriving DecidableEq, Repr

/-- The enumerators' values. -/
def LoginState.word : LoginState → BitVec 32
  | .loginUnknown => 0
  | .loginOk => 1
  | .loginFail => 2
  | .dateExpired => 4

/-- The parts of the C and C++ libraries, of OpenSSL and of sqlite that logging
    in rests on. -/
structure Platform where
  /-- The SHA-512 digest. -/
  sha512 : Bytes → Vector UInt8 64
  /-- `get_time` with the format `%Y-%m-%d %H:%M:%S`, then `mktime`. -/
  getTime : Bytes → Option Int
  /-- `CURRENT_TIMESTAMP`. -/
  currentTimestamp : Int → Bytes

/-- A digit of `%02x`. -/
def hexDigit (n : Nat) : UInt8 :=
  if n < 10 then .ofNat (48 + n) else .ofNat (87 + n)

/-- `GetSHA512`: the digest as a hexadecimal string. -/
def Platform.getSHA512 (P : Platform) (str : Bytes) : Bytes :=
  (P.sha512 str).toList.flatMap fun b =>
    [hexDigit (b.toNat / 16), hexDigit (b.toNat % 16)]

/-- `password_salt`. -/
def passwordSalt : Vector String 10 :=
  #v["Apple", "Banana", "ShineMuscat", "Mango", "Watermelon", "Dragonfuit",
    "Grape", "Peach", "Orange", "Lemon"]

/-- `salt_idx`; `char` is unsigned on the server's machine. -/
def saltIdx (username : Bytes) : Fin 10 :=
  .ofNat 10 ((username.head?.getD 0).toNat + (username.getLast?.getD 0).toNat)

/-- `GetSaltHashPassword`. -/
def Platform.getSaltHashPassword (P : Platform) (username password : Bytes) :
    Bytes :=
  P.getSHA512
    (P.getSHA512 password ++ passwordSalt[saltIdx username].toUTF8.data.toList)

/-! ## The statements -/

/-- `SELECT * FROM user WHERE username = ? AND password = ?`.  The wrapper
    drops a row in which a column is `NULL`. -/
def selectUser (user : List UserRow) (username password : Bytes) :
    List UserRow :=
  user.filter fun row =>
    row.username = username ∧ row.password = password
      ∧ row.createdAt.isSome ∧ row.isAdmin.isSome

/-- `SELECT created_at FROM user WHERE username = ?`. -/
def selectCreatedAt (user : List UserRow) (username : Bytes) : List Bytes :=
  user.filterMap fun row =>
    if row.username = username then row.createdAt else none

/-- `UPDATE user SET password = ?, created_at = CURRENT_TIMESTAMP
    WHERE username = ?`. -/
def updateUser (user : List UserRow) (password username timestamp : Bytes) :
    List UserRow :=
  user.map fun row =>
    if row.username = username then
      { row with password := password, createdAt := some timestamp }
    else row

/-! ## The checks -/

/-- Thirty days in seconds. -/
def thirtyDays : Int := 60 * 60 * 24 * 30

/-- `VerifyLogin`; `none` where an exception leaves it, which `at(0)` throws
    on an empty name and on an empty result. -/
def verifyLogin (P : Platform) (now : Int) (user : List UserRow)
    (username password : Bytes) : Option LoginState :=
  let hashedPassword := P.getSaltHashPassword username password
  if username = [] then none
  else if selectUser user username hashedPassword = [] then some .loginFail
  else
    match (selectCreatedAt user username).head? with
    | none => none
    | some createdAt =>
        match P.getTime createdAt with
        | none => some .loginFail
        | some date =>
            if now - date < thirtyDays then some .loginOk
            else some .dateExpired

/-- `UpdatePassword`: its result and the table it leaves. -/
def updatePassword (P : Platform) (now : Int) (user : List UserRow)
    (username password newPassword : Bytes) :
    Option (LoginState × List UserRow) :=
  let hashedPassword := P.getSaltHashPassword username password
  if username = [] then none
  else if selectUser user username hashedPassword = [] then
    some (.loginFail, user)
  else
    let hashedPassword := P.getSaltHashPassword username newPassword
    -- the new password must not be the old one
    if selectUser user username hashedPassword ≠ [] then some (.loginFail, user)
    else
      let user' :=
        updateUser user hashedPassword username (P.currentTimestamp now)
      match verifyLogin P now user' username newPassword with
      | none => none
      | some .loginOk => some (.loginOk, user')
      | some _ => some (.loginFail, user')

/-! ## Who gets in -/

section Acceptance

variable {P : Platform} {now : Int} {user : List UserRow}
  {username password newPassword : Bytes}

/-- The table has the name with this digest, in a row without `NULL`. -/
def Knows (user : List UserRow) (username hashedPassword : Bytes) : Prop :=
  ∃ row ∈ user, row.username = username ∧ row.password = hashedPassword
    ∧ row.createdAt.isSome ∧ row.isAdmin.isSome

/-- The time stamp can be read and is less than thirty days old. -/
def Fresh (P : Platform) (now : Int) (createdAt : Bytes) : Prop :=
  ∃ date, P.getTime createdAt = some date ∧ now - date < thirtyDays

theorem selectUser_ne_nil_iff {hashedPassword : Bytes} :
    selectUser user username hashedPassword ≠ []
      ↔ Knows user username hashedPassword := by
  simp [selectUser, Knows, Option.isSome_iff_ne_none]

/-- `VerifyLogin` lets in who knows the password, as long as the first time
    stamp stored for the name is fresh. -/
theorem verifyLogin_ok_iff :
    verifyLogin P now user username password = some .loginOk
      ↔ username ≠ []
        ∧ Knows user username (P.getSaltHashPassword username password)
        ∧ ∃ createdAt, (selectCreatedAt user username).head? = some createdAt
          ∧ Fresh P now createdAt := by
  rw [verifyLogin]
  by_cases hname : username = []
  · simp [hname]
  by_cases hrow : selectUser user username
      (P.getSaltHashPassword username password) = []
  · have hno := mt selectUser_ne_nil_iff.mpr (not_not_intro hrow)
    simp [hname, hrow, hno]
  have hknows := selectUser_ne_nil_iff.mp hrow
  simp only [hname, hrow, if_false, not_false_eq_true, ne_eq, hknows, true_and]
  cases hhead : (selectCreatedAt user username).head? with
  | none => simp
  | some createdAt =>
      simp only [Option.some.injEq, exists_eq_left', Fresh]
      cases htime : P.getTime createdAt with
      | none => simp
      | some date =>
          by_cases hdate : now - date < thirtyDays
          · simp [hdate]
          · simp [hdate]

/-- After an update the name has the new digest and time stamp, and only
    these. -/
theorem knows_updateUser {hashedPassword timestamp : Bytes} {hashed : Bytes}
    (h : Knows user username hashed) :
    Knows (updateUser user hashedPassword username timestamp) username
      hashedPassword := by
  obtain ⟨row, hrow, hname, -, -, hadmin⟩ := h
  refine ⟨_, List.mem_map_of_mem hrow, ?_⟩
  rw [if_pos hname]
  exact ⟨hname, rfl, rfl, hadmin⟩

theorem head_selectCreatedAt_updateUser {hashedPassword timestamp : Bytes}
    {hashed : Bytes} (h : Knows user username hashed) :
    (selectCreatedAt (updateUser user hashedPassword username timestamp)
      username).head? = some timestamp := by
  obtain ⟨row, hrow, hname, -⟩ := h
  -- the first row with the name has the time stamp, whichever row is known
  induction user with
  | nil => cases hrow
  | cons first rest ih =>
      rw [updateUser, List.map_cons, selectCreatedAt, List.filterMap_cons]
      by_cases hfirst : first.username = username
      · simp [hfirst]
      · have hrest : row ∈ rest := by
          rcases List.mem_cons.mp hrow with rfl | h
          · exact absurd hname hfirst
          · exact h
        simp only [hfirst, if_false]
        exact ih hrest

/-- `UpdatePassword` lets in who knows the old password and gives a new one, as
    long as the platform can read back its own time stamps. -/
theorem updatePassword_ok_iff :
    (updatePassword P now user username password newPassword).map Prod.fst
        = some .loginOk
      ↔ username ≠ []
        ∧ Knows user username (P.getSaltHashPassword username password)
        ∧ ¬ Knows user username (P.getSaltHashPassword username newPassword)
        ∧ Fresh P now (P.currentTimestamp now) := by
  rw [updatePassword]
  by_cases hname : username = []
  · simp [hname]
  by_cases hold : selectUser user username
      (P.getSaltHashPassword username password) = []
  · have hno := mt selectUser_ne_nil_iff.mpr (not_not_intro hold)
    simp [hname, hold, hno]
  have hknows := selectUser_ne_nil_iff.mp hold
  by_cases hnew : selectUser user username
      (P.getSaltHashPassword username newPassword) = []
  · have hno := mt selectUser_ne_nil_iff.mpr (not_not_intro hnew)
    -- the name is known with its new password, so only the time stamp decides
    have hverify : verifyLogin P now
        (updateUser user (P.getSaltHashPassword username newPassword) username
          (P.currentTimestamp now)) username newPassword = some .loginOk
        ↔ Fresh P now (P.currentTimestamp now) := by
      rw [verifyLogin_ok_iff, head_selectCreatedAt_updateUser hknows]
      simp [hname, knows_updateUser hknows]
    simp only [hname, hold, hnew, if_false, ne_eq, not_false_eq_true, not_true_eq_false,
      hknows, hno, true_and, ← hverify]
    cases verifyLogin P now _ username newPassword with
    | none => simp
    | some l => cases l <;> simp
  · have hyes := selectUser_ne_nil_iff.mp hnew
    simp [hname, hold, hnew, hyes]

end Acceptance

end DemoCannon
