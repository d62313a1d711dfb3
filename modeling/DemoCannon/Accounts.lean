import DemoCannon.Answers
import Mathlib.Data.List.Forall2

/-! # Accounts: what logging in decides, and how it is answered

    The user table may have several rows of one name.  `VerifyLogin` looks for the
    password in all of them, and takes the age of the password from the first; it
    reads a time stamp, which sqlite writes in UTC, as local time.  So it meets its
    specification on some tables only (`verifyLogin_meets_iff`).

    `UpdatePassword` replaces the password in every row of the name or in none
    (`updatePassword_all_or_nothing`), and every request but one without a name is
    answered (`login_answered_iff`). -/

namespace DemoCannon

open Interaction Interaction.Program

/-! ## Time stamps -/

/-- The platform reads as local time what is the time in UTC: `utc` is the instant that
    a time stamp stands for, and `offset` what the local clock is ahead when it shows
    the same. -/
structure ReadsLocally (P : Platform) (utc : Bytes → Option Int) (offset : Int → Int) :
    Prop where
  getTime_eq {stamp : Bytes} {τ : Int} :
    utc stamp = some τ → P.getTime stamp = some (τ - offset τ)

/-- The columns of a row have values, the time stamp a valid one. -/
def UserRow.Valid (utc : Bytes → Option Int) (row : UserRow) : Prop :=
  (∃ stamp τ, row.createdAt = some stamp ∧ utc stamp = some τ) ∧ row.isAdmin.isSome

/-- The row has the name and the digest of the password. -/
def UserRow.Credential (P : Platform) (username password : Bytes) (row : UserRow) : Prop :=
  row.username = username ∧ row.password = P.getSaltHashPassword username password

/-- Less than thirty days have passed since the row's time stamp. -/
def UserRow.Young (utc : Bytes → Option Int) (now : Int) (row : UserRow) : Prop :=
  ∃ stamp τ, row.createdAt = some stamp ∧ utc stamp = some τ ∧ now - τ < thirtyDays

/-- What `VerifyLogin` is to return. -/
structure VerifyLoginSpec (P : Platform) (utc : Bytes → Option Int) (now : Int)
    (user : List UserRow) (username password : Bytes) (result : Option LoginState) : Prop where
  ok : result = some .loginOk
    ↔ ∃ row ∈ user, row.Credential P username password ∧ row.Young utc now
  expired : result = some .dateExpired
    ↔ (∃ row ∈ user, row.Credential P username password)
      ∧ ∀ row ∈ user, row.Credential P username password → ¬ row.Young utc now
  fail : result = some .loginFail ↔ ¬ ∃ row ∈ user, row.Credential P username password

/-- The first row of the name is less than thirty days old, by a clock as far ahead of
    UTC as the local one. -/
def FirstYoung (utc : Bytes → Option Int) (offset : Int → Int) (now : Int)
    (user : List UserRow) (username : Bytes) : Prop :=
  ∃ row stamp τ, user.find? (·.username = username) = some row ∧ row.createdAt = some stamp
    ∧ utc stamp = some τ ∧ now - (τ - offset τ) < thirtyDays

/-! ## `VerifyLogin` -/

section VerifyLogin

variable {P : Platform} {utc : Bytes → Option Int} {offset : Int → Int} {now : Int}
  {user : List UserRow} {username password : Bytes}

/-- In a table without `NULL` a row with the name and the digest is known. -/
theorem knows_iff_credential (hvalid : ∀ row ∈ user, row.Valid utc) :
    Knows user username (P.getSaltHashPassword username password)
      ↔ ∃ row ∈ user, row.Credential P username password := by
  constructor
  · rintro ⟨row, hrow, hname, hpassword, -, -⟩
    exact ⟨row, hrow, hname, hpassword⟩
  · rintro ⟨row, hrow, hname, hpassword⟩
    obtain ⟨⟨stamp, τ, hstamp, -⟩, hadmin⟩ := hvalid row hrow
    exact ⟨row, hrow, hname, hpassword, Option.isSome_of_eq_some hstamp, hadmin⟩

/-- The time stamp that is read is that of the first row of the name. -/
theorem head_selectCreatedAt {row : UserRow} {stamp : Bytes}
    (hfirst : user.find? (·.username = username) = some row)
    (hstamp : row.createdAt = some stamp) :
    (selectCreatedAt user username).head? = some stamp := by
  induction user with
  | nil => cases hfirst
  | cons first rest ih =>
      rw [selectCreatedAt, List.filterMap_cons]
      by_cases hname : first.username = username
      · rw [List.find?_cons_of_pos (by simp [hname])] at hfirst
        obtain rfl := Option.some.inj hfirst
        rw [if_pos hname, hstamp]
        rfl
      · rw [List.find?_cons_of_neg (by simp [hname])] at hfirst
        rw [if_neg hname]
        exact ih hfirst

/-- The three results. -/
theorem verifyLogin_cases (now : Int) (password : Bytes) (hname : username ≠ [])
    (hvalid : ∀ row ∈ user, row.Valid utc) (hlocal : ReadsLocally P utc offset) :
    ((¬ ∃ row ∈ user, row.Credential P username password)
        ∧ verifyLogin P now user username password = some .loginFail)
      ∨ (∃ row ∈ user, row.Credential P username password)
        ∧ (FirstYoung utc offset now user username
            ∧ verifyLogin P now user username password = some .loginOk
          ∨ ¬ FirstYoung utc offset now user username
            ∧ verifyLogin P now user username password = some .dateExpired) := by
  rw [verifyLogin, if_neg hname]
  by_cases hcredential : ∃ row ∈ user, row.Credential P username password
  · right
    refine ⟨hcredential, ?_⟩
    rw [if_neg (selectUser_ne_nil_iff.mpr ((knows_iff_credential hvalid).mpr hcredential))]
    obtain ⟨row, hrow, hrowname, -⟩ := hcredential
    -- there is a first row of the name, and its time stamp can be read
    cases hfirst : user.find? (·.username = username) with
    | none => exact absurd hrowname (by simpa using List.find?_eq_none.mp hfirst row hrow)
    | some first =>
        obtain ⟨⟨stamp, τ, hstamp, hutc⟩, -⟩ := hvalid first (List.mem_of_find?_eq_some hfirst)
        rw [head_selectCreatedAt hfirst hstamp]
        dsimp only
        rw [hlocal.getTime_eq hutc]
        dsimp only
        by_cases hage : now - (τ - offset τ) < thirtyDays
        · rw [if_pos hage]
          exact Or.inl ⟨⟨first, stamp, τ, hfirst, hstamp, hutc, hage⟩, rfl⟩
        · rw [if_neg hage]
          refine Or.inr ⟨?_, rfl⟩
          rintro ⟨first', stamp', τ', hfirst', hstamp', hutc', hage'⟩
          obtain rfl := Option.some.inj (hfirst.symm.trans hfirst')
          obtain rfl := Option.some.inj (hstamp.symm.trans hstamp')
          obtain rfl := Option.some.inj (hutc.symm.trans hutc')
          exact hage hage'
  · left
    refine ⟨hcredential, ?_⟩
    rw [if_pos]
    by_contra hne
    exact hcredential ((knows_iff_credential hvalid).mp (selectUser_ne_nil_iff.mp hne))

/-- The specification, for each of the three results. -/
theorem verifyLoginSpec_iff {result : Option LoginState} :
    VerifyLoginSpec P utc now user username password result
      ↔ (result = some .loginOk
          ↔ ∃ row ∈ user, row.Credential P username password ∧ row.Young utc now)
        ∧ (result = some .dateExpired
          ↔ (∃ row ∈ user, row.Credential P username password)
            ∧ ¬ ∃ row ∈ user, row.Credential P username password ∧ row.Young utc now)
        ∧ (result = some .loginFail
          ↔ ¬ ∃ row ∈ user, row.Credential P username password) := by
  have hold : (∀ row ∈ user, row.Credential P username password → ¬ row.Young utc now)
      ↔ ¬ ∃ row ∈ user, row.Credential P username password ∧ row.Young utc now := by
    simp only [not_exists, not_and]
  rw [← hold]
  exact ⟨fun h => ⟨h.ok, h.expired, h.fail⟩, fun h => ⟨h.1, h.2.1, h.2.2⟩⟩

/-- **`VerifyLogin` meets its specification** if and only if the first row of the name
    decides, read as local time, as the rows with the password do. -/
theorem verifyLogin_meets_iff (hname : username ≠ []) (hvalid : ∀ row ∈ user, row.Valid utc)
    (hlocal : ReadsLocally P utc offset) :
    VerifyLoginSpec P utc now user username password
        (verifyLogin P now user username password)
      ↔ ((∃ row ∈ user, row.Credential P username password) →
        ((∃ row ∈ user, row.Credential P username password ∧ row.Young utc now)
          ↔ FirstYoung utc offset now user username)) := by
  have hcases := verifyLogin_cases now password hname hvalid hlocal
  have hsome : (∃ row ∈ user, row.Credential P username password ∧ row.Young utc now) →
      ∃ row ∈ user, row.Credential P username password := by
    rintro ⟨row, hrow, hcredential, -⟩
    exact ⟨row, hrow, hcredential⟩
  rw [verifyLoginSpec_iff]
  -- from here on only the three facts matter
  generalize verifyLogin P now user username password = result at hcases
  generalize (∃ row ∈ user, row.Credential P username password ∧ row.Young utc now) = young
    at hsome
  generalize (∃ row ∈ user, row.Credential P username password) = known at hsome hcases
  rcases hcases with ⟨hno, rfl⟩ | ⟨hknown, ⟨hfirst, rfl⟩ | ⟨hfirst, rfl⟩⟩
  · simp [hno, mt hsome hno]
  · simp [hknown, hfirst]
  · simp [hknown, hfirst]

end VerifyLogin

namespace Session

/-- `"2024-03-01 00:00:00"` and its time. -/
def march : Bytes := "2024-03-01 00:00:00".toUTF8.data.toList

def marchTime : Int := 1709251200

/-- The two time stamps in UTC. -/
def utc (stamp : Bytes) : Option Int :=
  if stamp = newYear then some newYearTime
  else if stamp = march then some marchTime
  else none

/-- The platform where the local time is UTC. -/
def utcPlatform : Platform := { platform with getTime := utc }

theorem utcPlatform_readsLocally : ReadsLocally utcPlatform utc fun _ => 0 where
  getTime_eq {stamp τ} h := by
    rw [Int.sub_zero]
    exact h

/-- The name `op` with the password `1235` from January on, and with `1234` from March
    on. -/
def twoRows : List UserRow :=
  [{  username := [0x6f, 0x70]
      password := hex wrongPassword.salted
      createdAt := some newYear
      isAdmin := some [0x30] },
   {  username := [0x6f, 0x70]
      password := hex password.salted
      createdAt := some march
      isAdmin := some [0x30] }]

example : ∀ row ∈ twoRows, row.Valid utc :=
  List.forall_mem_cons.mpr ⟨⟨⟨newYear, newYearTime, rfl, by decide +kernel⟩, rfl⟩,
    List.forall_mem_singleton.mpr ⟨⟨march, marchTime, rfl, by decide +kernel⟩, rfl⟩⟩

end Session

/-- The day after the second row was made, its password counts as expired. -/
theorem new_password_expired :
    ¬ VerifyLoginSpec Session.utcPlatform Session.utc (Session.marchTime + 86400)
      Session.twoRows [0x6f, 0x70] Session.password.text
      (verifyLogin Session.utcPlatform (Session.marchTime + 86400)
        Session.twoRows [0x6f, 0x70] Session.password.text) := by
  intro h
  have hok := h.ok.mpr ⟨_, List.mem_cons_of_mem _ (List.mem_singleton_self _),
    ⟨rfl, by decide +kernel⟩, Session.march, Session.marchTime, rfl, by decide +kernel,
    by decide +kernel⟩
  revert hok
  decide +kernel

/-- A single row of the name an hour after it was made. -/
theorem fresh_password_meets :
    VerifyLoginSpec Session.utcPlatform Session.utc (Session.newYearTime + 3600)
      Session.config.user [0x6f, 0x70] Session.password.text
      (verifyLogin Session.utcPlatform (Session.newYearTime + 3600)
        Session.config.user [0x6f, 0x70] Session.password.text) := by
  have hrow := List.mem_singleton_self (Session.config.user.head (by decide +kernel))
  have hvalid : ∀ row ∈ Session.config.user, row.Valid Session.utc :=
    List.forall_mem_singleton.mpr
      ⟨⟨Session.newYear, Session.newYearTime, rfl, by decide +kernel⟩, rfl⟩
  refine (verifyLogin_meets_iff (by decide) hvalid Session.utcPlatform_readsLocally).mpr ?_
  intro _
  refine iff_of_true ⟨_, hrow, ⟨rfl, by decide +kernel⟩, Session.newYear,
    Session.newYearTime, rfl, by decide +kernel, by decide⟩ ?_
  exact ⟨_, Session.newYear, Session.newYearTime, rfl, rfl, by decide +kernel, by decide⟩

/-! ## `UpdatePassword` -/

/-- In every row of the name the password and the time stamp are new, and all else is as
    it was. -/
def Updated (username hashedPassword timestamp : Bytes) (user user' : List UserRow) : Prop :=
  List.Forall₂ (fun row row' =>
    if row.username = username then
      row' = { row with password := hashedPassword, createdAt := some timestamp }
    else row' = row) user user'

theorem updated_updateUser (user : List UserRow) (username hashedPassword timestamp : Bytes) :
    Updated username hashedPassword timestamp user
      (updateUser user hashedPassword username timestamp) := by
  rw [updateUser]
  induction user with
  | nil => exact .nil
  | cons row user ih =>
      refine .cons ?_ ih
      dsimp only
      by_cases hname : row.username = username
      · rw [if_pos hname, if_pos hname]
      · rw [if_neg hname, if_neg hname]

section UpdatePassword

variable {P : Platform} {utc : Bytes → Option Int} {offset : Int → Int} {now : Int}
  {user : List UserRow} {username password newPassword hashedPassword timestamp : Bytes}

/-- After an update no other password of the name is known. -/
theorem not_knows_updateUser {hashed : Bytes} (hne : hashed ≠ hashedPassword) :
    ¬ Knows (updateUser user hashedPassword username timestamp) username hashed := by
  rintro ⟨row', hrow', hname, hpassword, -, -⟩
  obtain ⟨row, -, rfl⟩ := List.mem_map.mp hrow'
  by_cases hrow : row.username = username
  · rw [if_pos hrow] at hpassword
    exact hne hpassword.symm
  · rw [if_neg hrow] at hname
    exact hrow hname

theorem verifyLogin_unknown (hname : username ≠ [])
    (h : ¬ Knows user username (P.getSaltHashPassword username password)) :
    verifyLogin P now user username password = some .loginFail := by
  rw [verifyLogin, if_neg hname, if_pos]
  by_contra hne
  exact h (selectUser_ne_nil_iff.mp hne)

/-- **All or nothing**: the password is replaced in every row of the name, and then the
    new one is let in and the old one is not, or the table stays as it is. -/
theorem updatePassword_all_or_nothing (hname : username ≠ [])
    (hlocal : ReadsLocally P utc offset) (hstamp : utc (P.currentTimestamp now) = some now)
    (hoffset : ∀ τ, offset τ < 60 * 60 * 25) :
    ∃ l user', updatePassword P now user username password newPassword = some (l, user')
      ∧ (l = .loginOk
          ∧ Updated username (P.getSaltHashPassword username newPassword)
            (P.currentTimestamp now) user user'
          ∧ verifyLogin P now user' username newPassword = some .loginOk
          ∧ (∀ later, verifyLogin P later user' username password = some .loginFail)
        ∨ l = .loginFail ∧ user' = user) := by
  rw [updatePassword, if_neg hname]
  by_cases hold : selectUser user username (P.getSaltHashPassword username password) = []
  · rw [if_pos hold]
    exact ⟨.loginFail, user, rfl, Or.inr ⟨rfl, rfl⟩⟩
  rw [if_neg hold]
  dsimp only
  by_cases hnew : selectUser user username (P.getSaltHashPassword username newPassword) = []
  · rw [if_neg (not_not_intro hnew)]
    have hknows := selectUser_ne_nil_iff.mp hold
    -- the two passwords have different digests, since the table has only one of them
    have hne : P.getSaltHashPassword username password
        ≠ P.getSaltHashPassword username newPassword := by
      intro hsame
      rw [hsame] at hold
      exact hold hnew
    -- the time stamp is off by what the local time is
    have hfresh : Fresh P now (P.currentTimestamp now) := by
      refine ⟨now - offset now, hlocal.getTime_eq hstamp, ?_⟩
      have hbound := hoffset now
      rw [thirtyDays]
      omega
    have hok : verifyLogin P now (updateUser user (P.getSaltHashPassword username newPassword)
        username (P.currentTimestamp now)) username newPassword = some .loginOk :=
      verifyLogin_ok_iff.mpr ⟨hname, knows_updateUser hknows, P.currentTimestamp now,
        head_selectCreatedAt_updateUser hknows, hfresh⟩
    rw [hok]
    refine ⟨.loginOk, _, rfl, Or.inl ⟨rfl, updated_updateUser .., hok, ?_⟩⟩
    intro later
    exact verifyLogin_unknown hname (not_knows_updateUser hne)
  · rw [if_pos hnew]
    exact ⟨.loginFail, user, rfl, Or.inr ⟨rfl, rfl⟩⟩

end UpdatePassword

/-- `op` changes `1234` into `1235`. -/
theorem changed_password :
    (updatePassword Session.utcPlatform Session.newYearTime Session.config.user [0x6f, 0x70]
        Session.password.text Session.wrongPassword.text).map Prod.fst = some .loginOk
      ∧ ∃ l user', updatePassword Session.utcPlatform Session.newYearTime Session.config.user
          [0x6f, 0x70] Session.password.text Session.wrongPassword.text = some (l, user')
        ∧ (l = .loginOk
            ∧ Updated [0x6f, 0x70]
              (Session.utcPlatform.getSaltHashPassword [0x6f, 0x70] Session.wrongPassword.text)
              (Session.utcPlatform.currentTimestamp Session.newYearTime)
              Session.config.user user'
            ∧ verifyLogin Session.utcPlatform Session.newYearTime user' [0x6f, 0x70]
              Session.wrongPassword.text = some .loginOk
            ∧ (∀ later, verifyLogin Session.utcPlatform later user' [0x6f, 0x70]
              Session.password.text = some .loginFail)
          ∨ l = .loginFail ∧ user' = Session.config.user) :=
  ⟨by decide +kernel,
    updatePassword_all_or_nothing (by decide) Session.utcPlatform_readsLocally
      (by decide +kernel) fun _ => by decide⟩

/-! ## The answer -/

section ProcessLogin

variable {P : Platform} {m : Received} {now : Int} {user : List UserRow}
  {username password newPassword : Bytes}

/-- A request is answered as it should be: nothing is thrown, and one result is sent that
    says whether the client is logged in. -/
structure LoginAnswered (P : Platform) (m : Received) (s : Server) : Prop where
  /-- Whatever the environment answers. -/
  no_exception : ¬ ∃ t, Exits (processLogin P m) s .terminate t
  answer : ∃ l : LoginState, Writes (processLogin P m) s [wordMessage mtLoginRes l.word]
    fun _ t => t.isLoggedIn = true ↔ l = .loginOk

/-- The flag `is_change_password`. -/
def isChangePW (m : Received) : BitVec 32 := hostWord (m.mem offsetIsChangePassword)

theorem exists_verifyLogin (hname : username ≠ []) :
    ∃ l, verifyLogin P now user username password = some l := by
  rw [verifyLogin, if_neg hname]
  by_cases hrow : selectUser user username (P.getSaltHashPassword username password) = []
  · rw [if_pos hrow]
    exact ⟨.loginFail, rfl⟩
  rw [if_neg hrow]
  -- a row without `NULL` has a time stamp
  obtain ⟨row, hrow, hrowname, -, hcreated, -⟩ := selectUser_ne_nil_iff.mp hrow
  obtain ⟨stamp, hstamp⟩ := Option.isSome_iff_exists.mp hcreated
  have hmem : stamp ∈ selectCreatedAt user username := by
    refine List.mem_filterMap.mpr ⟨row, hrow, ?_⟩
    rw [if_pos hrowname]
    exact hstamp
  cases hhead : (selectCreatedAt user username).head? with
  | none =>
      rw [List.head?_eq_none_iff.mp hhead] at hmem
      cases hmem
  | some createdAt =>
      dsimp only
      cases P.getTime createdAt with
      | none => exact ⟨.loginFail, rfl⟩
      | some date =>
          dsimp only
          by_cases hage : now - date < thirtyDays
          · rw [if_pos hage]
            exact ⟨.loginOk, rfl⟩
          · rw [if_neg hage]
            exact ⟨.dateExpired, rfl⟩

theorem exists_updatePassword (hname : username ≠ []) :
    ∃ r, updatePassword P now user username password newPassword = some r := by
  rw [updatePassword, if_neg hname]
  by_cases hold : selectUser user username (P.getSaltHashPassword username password) = []
  · rw [if_pos hold]
    exact ⟨_, rfl⟩
  rw [if_neg hold]
  dsimp only
  by_cases hnew : selectUser user username (P.getSaltHashPassword username newPassword) = []
  · rw [if_neg (not_not_intro hnew)]
    obtain ⟨l, hl⟩ : ∃ l, verifyLogin P now (updateUser user
        (P.getSaltHashPassword username newPassword) username (P.currentTimestamp now))
        username newPassword = some l := exists_verifyLogin hname
    rw [hl]
    cases l <;> exact ⟨_, rfl⟩
  · rw [if_pos hnew]
    exact ⟨_, rfl⟩

/-- What is thrown at is a missing name, in a login or a change of the password. -/
theorem checkLogin_eq_none_iff :
    checkLogin P m user = none
      ↔ m.cString offsetUserName = [] ∧ (isChangePW m = 0 ∨ isChangePW m = 1) := by
  rw [checkLogin, ← isChangePW]
  by_cases hlogin : isChangePW m = 0
  · rw [if_pos hlogin, Option.map_eq_none_iff]
    by_cases hname : m.cString offsetUserName = []
    · rw [verifyLogin, if_pos hname]
      exact iff_of_true rfl ⟨hname, Or.inl hlogin⟩
    · obtain ⟨l, hl⟩ : ∃ l, verifyLogin P m.now user (m.cString offsetUserName)
          (m.cString offsetPassword) = some l := exists_verifyLogin hname
      rw [hl]
      exact iff_of_false (Option.some_ne_none l) fun h => hname h.1
  rw [if_neg hlogin]
  by_cases hchange : isChangePW m = 1
  · rw [if_pos hchange]
    by_cases hname : m.cString offsetUserName = []
    · rw [updatePassword, if_pos hname]
      exact iff_of_true rfl ⟨hname, Or.inr hchange⟩
    · obtain ⟨r, hr⟩ : ∃ r, updatePassword P m.now user (m.cString offsetUserName)
          (m.cString offsetPassword) (m.cString offsetNewPassword) = some r :=
        exists_updatePassword hname
      rw [hr]
      exact iff_of_false (Option.some_ne_none r) fun h => hname h.1
  · rw [if_neg hchange]
    exact iff_of_false (Option.some_ne_none _) fun h => h.2.elim hlogin hchange

theorem avoids_sendLoginState (state : BitVec 32) :
    Avoids .terminate (sendLoginState state) := by
  have hwrite : ∀ e : WriteEnd, Avoids Halt.terminate e.leave := by
    intro e
    cases e with
    | returned ret => exact trivial
    | exited => exact Halt.noConfusion
    | waiting => exact fun r => r.elim
  refine Avoids.bind (fun _ => trivial) fun _ => ?_
  refine Avoids.bind (fun (script : List SslRet) => ?_) fun _ => ?_
  · exact hwrite (DemoCannon.writeDataTcp (wordMessage mtLoginRes state).length script 0)
  · exact Avoids.bind (fun _ => trivial) fun _ => trivial

/-- After the check nothing is thrown. -/
theorem avoids_processLogin {l : LoginState} {user' : List UserRow} {s : Server}
    (hcheck : checkLogin P m s.user = some (l, user')) (t : Server) :
    ¬ Exits (processLogin P m) s .terminate t := by
  have hthread : ∀ created : Int, Avoids Halt.terminate
      (if created ≠ 0 then .exit .pthreadCreate
        else update fun s => { s with heartBeatThread := true } : Prog Unit) :=
    fun _ => Avoids.ite Halt.noConfusion fun _ => trivial
  have hrest : Avoids Halt.terminate (do
      update fun s => { s with user := user' }
      let _ ← sendLoginState l.word
      update fun s => { s with isLoggedIn := decide (l = .loginOk) }
      let s ← fetch
      if s.isLoggedIn = true ∧ s.heartBeatThread = false then
        let created : Int ← call .pthreadCreate
        if created ≠ 0 then .exit .pthreadCreate
        else update fun s => { s with heartBeatThread := true }
      else pure () : Prog Unit) := by
    refine Avoids.bind (fun _ => trivial) fun _ => ?_
    refine (avoids_sendLoginState _).bind fun _ => ?_
    refine Avoids.bind (fun _ => trivial) fun _ => ?_
    refine Avoids.bind (fun _ => trivial) fun _ => Avoids.ite ?_ trivial
    exact Avoids.bind (fun _ => trivial) hthread
  intro hexit
  rw [processLogin, exits_bind] at hexit
  rcases hexit with hno | ⟨_, _, ⟨rfl, rfl⟩, hexit⟩
  · exact hno
  · rw [hcheck] at hexit
    exact hrest.not_exits _ t hexit

theorem writes_pthreadCreate (s : Server) :
    Writes (call .pthreadCreate) s [] fun (created : Int) t => created = 0 ∧ t = s :=
  ⟨⟨(0 : Int), rfl⟩, fun _ hcreated => ⟨rfl, hcreated, rfl⟩⟩

/-- What `ProcessLogin` sends. -/
theorem writes_processLogin {l : LoginState} {user' : List UserRow} {s : Server}
    (hcheck : checkLogin P m s.user = some (l, user')) :
    Writes (processLogin P m) s [wordMessage mtLoginRes l.word]
      fun _ t => t.isLoggedIn = true ↔ l = .loginOk := by
  refine Writes.fetch ?_
  rw [hcheck]
  dsimp only
  refine Writes.update ((writes_sendLoginState _ _).last ?_)
  rintro _ t rfl
  refine Writes.update (Writes.fetch ?_)
  by_cases hfirst : decide (l = .loginOk) = true ∧ s.heartBeatThread = false
  · rw [if_pos hfirst]
    refine (writes_pthreadCreate _).then ?_
    rintro created t ⟨hcreated, rfl⟩
    rw [if_neg (not_not_intro hcreated)]
    exact ⟨rfl, decide_eq_true_iff⟩
  · rw [if_neg hfirst]
    exact Writes.pure decide_eq_true_iff

theorem not_loginAnswered {s : Server} (hcheck : checkLogin P m s.user = none) :
    ¬ LoginAnswered P m s := by
  intro h
  refine h.no_exception ⟨s, (exits_bind ..).mpr (Or.inr ⟨s, s, ⟨rfl, rfl⟩, ?_⟩)⟩
  rw [hcheck]
  exact ⟨rfl, rfl⟩

/-- **A request is answered** if and only if it has a name, or its flag is neither 0
    nor 1. -/
theorem login_answered_iff (P : Platform) (m : Received) (s : Server) :
    LoginAnswered P m s
      ↔ m.cString offsetUserName ≠ [] ∨ (isChangePW m ≠ 0 ∧ isChangePW m ≠ 1) := by
  have hcondition : checkLogin P m s.user ≠ none
      ↔ m.cString offsetUserName ≠ [] ∨ (isChangePW m ≠ 0 ∧ isChangePW m ≠ 1) := by
    rw [← not_or, ← not_and_or]
    exact not_congr checkLogin_eq_none_iff
  rw [← hcondition]
  cases hcheck : checkLogin P m s.user with
  | none => exact iff_of_false (not_loginAnswered hcheck) (not_not_intro rfl)
  | some result =>
      exact iff_of_true ⟨fun ⟨t, ht⟩ => avoids_processLogin hcheck t ht,
        result.1, writes_processLogin hcheck⟩ (Option.some_ne_none _)

end ProcessLogin

/-- A login request without a name. -/
def Session.noName : Received :=
  Session.ofClient ⟨mtLoginReq, List.replicate 54 0, by decide⟩

/-- It is not answered. -/
theorem login_without_name_unanswered :
    ¬ LoginAnswered Session.platform Session.noName { user := Session.config.user } :=
  not_loginAnswered (checkLogin_eq_none_iff.mpr ⟨by decide +kernel, Or.inl (by decide +kernel)⟩)

end DemoCannon
