import DemoCannon.Accounts
import DemoCannon.Database
import DemoCannon.Lib.Keyed
import DemoCannon.UserTable

/-! # The user table as a register of accounts

    What the server and the tool mean by the rows of `user.db` is a function from names to
    accounts.  As long as no name is entered twice, the table holds that function
    (`Represents`), whatever the two do to it and in whatever order, and a login is decided by
    the account of its name (`logins_by_account`). -/

namespace DemoCannon

open Interaction Interaction.Program Interaction.Keyed

/-! ## Accounts -/

/-- An account: the digest of its password, and the time stamp from which that counts. -/
structure Account where
  password : Bytes
  since : Bytes
  deriving DecidableEq

/-- The accounts by their names. -/
abbrev Accounts := Bytes → Option Account

namespace Accounts

variable (P : Platform) (A : Accounts)

/-- Who knows the password is let in until it is thirty days old. -/
def verify (now : Int) (username password : Bytes) : LoginState :=
  match A username with
  | none => .loginFail
  | some account =>
      if account.password = P.getSaltHashPassword username password then
        match P.getTime account.since with
        | none => .loginFail
        | some date => if now - date < thirtyDays then .loginOk else .dateExpired
      else .loginFail

/-- Who knows the password changes it to another one. -/
def change (now : Int) (username password newPassword : Bytes) : LoginState × Accounts :=
  let renewed := P.getSaltHashPassword username newPassword
  if (A username).map Account.password = some (P.getSaltHashPassword username password)
      ∧ (A username).map Account.password ≠ some renewed then
    let B : Accounts := Function.update A username (some ⟨renewed, P.currentTimestamp now⟩)
    (if B.verify P now username newPassword = .loginOk then .loginOk else .loginFail, B)
  else (.loginFail, A)

/-- A login request with a name. -/
def check (m : Received) : LoginState × Accounts :=
  let username := m.cString offsetUserName
  if isChangePW m = 0 then (A.verify P m.now username (m.cString offsetPassword), A)
  else if isChangePW m = 1 then
    A.change P m.now username (m.cString offsetPassword) (m.cString offsetNewPassword)
  else (.loginFail, A)

/-- What a login request leaves; without a name it ends the server. -/
def login (m : Received) : Accounts :=
  if m.cString offsetUserName = [] then A else (A.check P m).2

end Accounts

/-! ## The table holds accounts -/

def UserRow.account (row : UserRow) : Account where
  password := row.password
  since := row.createdAt.getD []

/-- Each name has one row at most, without `NULL`, and that is its account. -/
structure Represents (user : List UserRow) (A : Accounts) : Prop where
  single : Single UserRow.username user
  whole : ∀ row ∈ user, row.createdAt.isSome ∧ row.isAdmin.isSome
  account (name : Bytes) : (lookup UserRow.username user name).map UserRow.account = A name

theorem represents_nil : Represents [] fun _ => none where
  single := List.nodup_nil
  whole := fun _ h => nomatch h
  account _ := rfl

section Represents

variable {P : Platform} {user : List UserRow} {A : Accounts} {now : Int}
  {name hashed stamp password newPassword : Bytes}

/-- The row of an account. -/
theorem Represents.row (h : Represents user A) {account : Account} (ha : A name = some account) :
    ∃ row, lookup UserRow.username user name = some row ∧ row.password = account.password
      ∧ row.createdAt = some account.since := by
  obtain ⟨row, hrow, rfl⟩ := Option.map_eq_some_iff.mp ((h.account name).trans ha)
  obtain ⟨stamp, hstamp⟩ := Option.isSome_iff_exists.mp
    (h.whole row ((lookup_eq_some h.single).mp hrow).1).1
  refine ⟨row, hrow, rfl, ?_⟩
  rw [UserRow.account, hstamp]
  rfl

/-- What is known is the password of the account. -/
theorem Represents.knows_iff (h : Represents user A) :
    Knows user name hashed ↔ (A name).map Account.password = some hashed := by
  rw [← h.account name, Option.map_map, Option.map_eq_some_iff]
  constructor
  · rintro ⟨row, hrow, hname, hpassword, -⟩
    exact ⟨row, (lookup_eq_some h.single).mpr ⟨hrow, hname⟩, hpassword⟩
  · rintro ⟨row, hfind, hpassword⟩
    obtain ⟨hrow, hname⟩ := (lookup_eq_some h.single).mp hfind
    exact ⟨row, hrow, hname, hpassword, h.whole row hrow⟩

/-- **`VerifyLogin` is decided by the account.** -/
theorem Represents.verifyLogin (h : Represents user A) (hname : name ≠ []) :
    verifyLogin P now user name password = some (A.verify P now name password) := by
  have hknows : selectUser user name (P.getSaltHashPassword name password) ≠ []
      ↔ (A name).map Account.password = some (P.getSaltHashPassword name password) :=
    selectUser_ne_nil_iff.trans h.knows_iff
  rw [DemoCannon.verifyLogin, if_neg hname, Accounts.verify]
  cases ha : A name with
  | none =>
      have hno : selectUser user name (P.getSaltHashPassword name password) = [] := by
        by_contra hne
        have := hknows.mp hne
        rw [ha] at this
        cases this
      exact if_pos hno
  | some account =>
      rw [ha, Option.map_some, Option.some_inj] at hknows
      dsimp only
      by_cases hpassword : account.password = P.getSaltHashPassword name password
      · obtain ⟨row, hfind, -, hstamp⟩ := h.row ha
        rw [if_neg (hknows.mpr hpassword), if_pos hpassword, head_selectCreatedAt hfind hstamp]
        dsimp only
        cases P.getTime account.since with
        | none => rfl
        | some date => dsimp only; split <;> rfl
      · rw [if_neg hpassword, if_pos (not_not.mp (mt hknows.mp hpassword))]

/-! ### Changes of the table -/

/-- A row for a name that has none. -/
theorem Represents.insertUser (h : Represents user A) (hnew : A name = none) :
    Represents (insertUser user name hashed stamp)
      (Function.update A name (some ⟨hashed, stamp⟩)) := by
  have hnone : lookup UserRow.username user name = none :=
    Option.map_eq_none_iff.mp ((h.account name).trans hnew)
  refine ⟨single_append.mpr ⟨h.single, hnone⟩, ?_, fun k => ?_⟩
  · intro row hrow
    rcases List.mem_append.mp hrow with hrow | hrow
    · exact h.whole row hrow
    · rw [List.mem_singleton.mp hrow]
      exact ⟨rfl, rfl⟩
  · rw [DemoCannon.insertUser, lookup_append hnone]
    by_cases hk : k = name
    · subst hk
      rw [Function.update_self, Function.update_self]
      rfl
    · rw [Function.update_of_ne hk, Function.update_of_ne hk]
      exact h.account k

/-- A new password for the account, if there is one. -/
theorem Represents.updateUser (h : Represents user A) :
    Represents (updateUser user hashed name stamp)
      (Function.update A name ((A name).map fun _ => ⟨hashed, stamp⟩)) := by
  have hkeep : ∀ row : UserRow, UserRow.username
      { row with password := hashed, createdAt := some stamp } = row.username := fun _ => rfl
  refine ⟨h.single.map fun row => ?_, ?_, fun k => ?_⟩
  · split <;> rfl
  · intro row' hrow'
    obtain ⟨row, hrow, rfl⟩ := List.mem_map.mp hrow'
    split
    · exact ⟨rfl, (h.whole row hrow).2⟩
    · exact h.whole row hrow
  · rw [DemoCannon.updateUser, lookup_map_at hkeep]
    by_cases hk : k = name
    · subst hk
      rw [Function.update_self, Function.update_self, ← h.account k, Option.map_map,
        Option.map_map]
      rfl
    · rw [Function.update_of_ne hk, Function.update_of_ne hk]
      exact h.account k

/-- The account is closed. -/
theorem Represents.deleteUser (h : Represents user A) :
    Represents (deleteUser user name) (Function.update A name none) := by
  refine ⟨h.single.filter _, fun row hrow => h.whole row (List.mem_filter.mp hrow).1,
    fun k => ?_⟩
  rw [DemoCannon.deleteUser, lookup_filter_ne]
  by_cases hk : k = name
  · subst hk
    rw [Function.update_self, Function.update_self]
    rfl
  · rw [Function.update_of_ne hk, Function.update_of_ne hk]
    exact h.account k

/-! ### Logins -/

/-- **`UpdatePassword` changes the account.** -/
theorem Represents.updatePassword (h : Represents user A) (hname : name ≠ []) :
    ∃ user', updatePassword P now user name password newPassword
        = some ((A.change P now name password newPassword).1, user')
      ∧ Represents user' (A.change P now name password newPassword).2 := by
  have hknows : ∀ pw, selectUser user name (P.getSaltHashPassword name pw) ≠ []
      ↔ (A name).map Account.password = some (P.getSaltHashPassword name pw) := fun pw =>
    selectUser_ne_nil_iff.trans h.knows_iff
  rw [DemoCannon.updatePassword, if_neg hname, Accounts.change]
  dsimp only
  by_cases hold : (A name).map Account.password = some (P.getSaltHashPassword name password)
  swap
  · rw [if_pos (not_not.mp (mt (hknows password).mp hold)), if_neg fun hc => hold hc.1]
    exact ⟨user, rfl, h⟩
  rw [if_neg ((hknows password).mpr hold)]
  by_cases hnew : (A name).map Account.password = some (P.getSaltHashPassword name newPassword)
  · rw [if_pos ((hknows newPassword).mpr hnew), if_neg fun hc => hc.2 hnew]
    exact ⟨user, rfl, h⟩
  rw [if_neg (mt (hknows newPassword).mp hnew), if_pos ⟨hold, hnew⟩]
  obtain ⟨account, ha, -⟩ := Option.map_eq_some_iff.mp hold
  have hupdated : Represents (DemoCannon.updateUser user (P.getSaltHashPassword name newPassword)
      name (P.currentTimestamp now)) _ := h.updateUser
  rw [ha, Option.map_some] at hupdated
  rw [hupdated.verifyLogin hname]
  dsimp only
  refine ⟨_, ?_, hupdated⟩
  cases Accounts.verify P _ now name newPassword <;> rfl

/-- **A login request with a name is decided by the accounts**, and changes them as it
    changes the table. -/
theorem Represents.checkLogin (h : Represents user A) {m : Received}
    (hname : m.cString offsetUserName ≠ []) :
    ∃ user', checkLogin P m user = some ((A.check P m).1, user')
      ∧ Represents user' (A.check P m).2 := by
  rw [DemoCannon.checkLogin, ← isChangePW, Accounts.check]
  by_cases hlogin : isChangePW m = 0
  · rw [if_pos hlogin, if_pos hlogin, h.verifyLogin hname]
    exact ⟨user, rfl, h⟩
  rw [if_neg hlogin, if_neg hlogin]
  by_cases hchange : isChangePW m = 1
  · rw [if_pos hchange, if_pos hchange]
    exact h.updatePassword hname
  · rw [if_neg hchange, if_neg hchange]
    exact ⟨user, rfl, h⟩

/-- The same of any request that does not end the server. -/
theorem Represents.of_checkLogin (h : Represents user A) {m : Received}
    {result : LoginState × List UserRow} (hcheck : DemoCannon.checkLogin P m user = some result) :
    result.1 = (A.check P m).1 ∧ Represents result.2 (A.login P m) := by
  rw [Accounts.login]
  by_cases hname : m.cString offsetUserName = []
  · -- the flag is neither 0 nor 1, and the table stays
    have hflag : ¬ (isChangePW m = 0 ∨ isChangePW m = 1) := fun hflag =>
      Option.some_ne_none result
        (hcheck.symm.trans (checkLogin_eq_none_iff.mpr ⟨hname, hflag⟩))
    obtain ⟨hlogin, hchange⟩ := not_or.mp hflag
    rw [DemoCannon.checkLogin, ← isChangePW] at hcheck
    rw [if_neg hlogin, if_neg hchange] at hcheck
    obtain rfl := Option.some.inj hcheck
    rw [if_pos hname, Accounts.check, if_neg hlogin, if_neg hchange]
    exact ⟨rfl, h⟩
  · obtain ⟨user', hcheck', hafter⟩ := h.checkLogin (P := P) hname
    obtain rfl := Option.some.inj (hcheck.symm.trans hcheck')
    rw [if_neg hname]
    exact ⟨rfl, hafter⟩

/-! ## The server -/

/-- What a step of the server makes of the accounts. -/
def Act.accountsAfter (P : Platform) (A : Accounts) : Act → Accounts
  | .message m =>
      if m.buffer.type = mtLoginReq then A.login P (m.ntohlAt offsetIsChangePassword) else A
  | .frame _ | .statement | .spuriousWakeup => A

theorem Represents.userAfter (h : Represents user A) (a : Act) :
    Represents (a.userAfter P user) (a.accountsAfter P A) := by
  cases a with
  | frame | statement | spuriousWakeup => exact h
  | message m =>
      rw [Act.userAfter, Act.accountsAfter]
      by_cases hlogin : m.buffer.type = mtLoginReq
      swap
      · rw [if_neg hlogin, if_neg hlogin]
        exact h
      rw [if_pos hlogin, if_pos hlogin]
      cases hcheck : DemoCannon.checkLogin P (m.ntohlAt offsetIsChangePassword) user with
      | some result => exact (h.of_checkLogin hcheck).2
      | none =>
          rw [Accounts.login, if_pos (checkLogin_eq_none_iff.mp hcheck).1]
          exact h

/-- **A login is decided by the account.** -/
theorem Represents.loggedIn_iff {s t : Server} (h : Represents s.user A) {m : Received}
    (hlogin : m.buffer.type = mtLoginReq) (hst : Step P s (.message m) t) :
    t.isLoggedIn = true
      ↔ (A.check P (m.ntohlAt offsetIsChangePassword)).1 = .loginOk := by
  have hends : Ends (dispatch P m) s () t := hst
  rw [dispatch, if_pos hlogin] at hends
  obtain ⟨_, s', hlog, hends⟩ := (ends_bind ..).mp hends
  have huser : s'.user = s.user := Accesses.sameUser (sameUser_auditlog _) (Or.inl ⟨_, hlog⟩)
  obtain ⟨l, users, hcheck, hcontrol, -⟩ := post_processLogin P _ s' () t hends
  have hisLoggedIn : t.isLoggedIn = decide (l = .loginOk) :=
    congrArg Control.isLoggedIn hcontrol
  rw [hisLoggedIn, decide_eq_true_iff, ← (h.of_checkLogin (huser ▸ hcheck)).1]

end Represents

/-! ## The tool -/

namespace Command

/-- The name that a command enters into the table. -/
def inserted : Command → Option Bytes
  | insert username _ | insertAt username _ _ => some (bound username)
  | quit | createTable | update _ _ | select | delete _ | other => none

/-- What a command makes of the accounts, once the table is there. -/
def accountsAfter (P : Platform) (stored : Bytes → Bytes) (now : Int) (A : Accounts) :
    Command → Accounts
  | insert username password =>
      Function.update A (bound username)
        (some ⟨P.getSaltHashPassword username password, P.currentTimestamp now⟩)
  | insertAt username password createdAt =>
      Function.update A (bound username)
        (some ⟨P.getSaltHashPassword username password, stored (bound createdAt)⟩)
  | update username password =>
      Function.update A (bound username) ((A (bound username)).map fun _ =>
        ⟨P.getSaltHashPassword username password, P.currentTimestamp now⟩)
  | delete username => Function.update A (bound username) none
  | quit | createTable | select | other => A

end Command

/-- **A command does to the accounts what it does to the table**, if the name that it enters
    has no account yet. -/
theorem Represents.exec {P : Platform} {stored : Bytes → Bytes} {now : Int}
    {rows : List UserRow} {A : Accounts} (h : Represents rows A) {c : Command}
    (hnew : ∀ name ∈ c.inserted, A name = none) {user : UserTable}
    (hexec : c.exec P stored now (some rows) = some user) :
    Represents (user.getD []) (c.accountsAfter P stored now A) := by
  cases c with
  | quit | select | other | createTable =>
      obtain rfl := Option.some.inj hexec
      exact h
  | insert | insertAt =>
      obtain rfl := Option.some.inj (Option.ite_none_left_eq_some.mp hexec).2
      exact h.insertUser (hnew _ rfl)
  | update =>
      obtain rfl := Option.some.inj (Option.ite_none_left_eq_some.mp hexec).2
      exact h.updateUser
  | delete =>
      obtain rfl := Option.some.inj (Option.ite_none_left_eq_some.mp hexec).2
      exact h.deleteUser

/-! ## The server and the tool on one file -/

/-- The server, with the table in it, and whether the table has been created. -/
structure Site where
  server : Server
  created : Bool

/-- What is done: by the server; by the server, which ends in the step and is started
    again; to the server, which is stopped and started again; by the tool, between the
    steps of the server. -/
inductive SiteAct where
  | server (a : Act)
  | dies (a : Act) (config : Config)
  | restart (config : Config)
  | command (c : Command) (now : Int)

namespace Site

/-- The table as the tool finds it. -/
def table (s : Site) : UserTable := if s.created then some s.server.user else none

def withTable (s : Site) (user : UserTable) : Site where
  server := { s.server with user := user.getD [] }
  created := user.isSome

/-- Before the first command. -/
def empty (config : Config) : Site where
  server := start { config with user := [] }
  created := false

inductive Step (P : Platform) (stored : Bytes → Bytes) : Site → SiteAct → Site → Prop
  | server {s : Site} {a : Act} {t : Server} : DemoCannon.Step P s.server a t →
      Step P stored s (.server a) { s with server := t }
  | dies {s : Site} {a : Act} {config : Config} {x : Halt} {t : Server} :
      Exits (a.prog P) s.server x t → config.user = t.user →
      Step P stored s (.dies a config) { s with server := start config }
  | restart {s : Site} {config : Config} : config.user = s.server.user →
      Step P stored s (.restart config) { s with server := start config }
  | command {s : Site} {c : Command} {now : Int} {user : UserTable} :
      c.exec P stored now s.table = some user →
      Step P stored s (.command c now) (s.withTable user)

/-- The command enters no name that is in the table. -/
def EntersNew (s : Site) : SiteAct → Prop
  | .command c _ => ∀ name ∈ c.inserted, ∀ rows ∈ s.table, ∀ row ∈ rows, row.username ≠ name
  | .server _ | .dies _ _ | .restart _ => True

end Site

/-- A run of both from the empty file on. -/
abbrev SiteRun (P : Platform) (stored : Bytes → Bytes) (config : Config) :
    List (Site × SiteAct) → Site → Prop := Run (Site.Step P stored) (.empty config)

/-- What has been done makes of the accounts. -/
def SiteAct.accountsAfter (P : Platform) (stored : Bytes → Bytes) (s : Site) (A : Accounts) :
    SiteAct → Accounts
  | .server a | .dies a _ => a.accountsAfter P A
  | .restart _ => A
  | .command c now => if s.created then c.accountsAfter P stored now A else A

/-- The accounts after a history. -/
def accounts (P : Platform) (stored : Bytes → Bytes) : List (Site × SiteAct) → Accounts
  | [] => fun _ => none
  | (s, a) :: h => a.accountsAfter P stored s (accounts P stored h)

section Run

variable {P : Platform} {stored : Bytes → Bytes} {config : Config} {s t : Site} {a : SiteAct}
  {A : Accounts}

/-- Without the table there are no rows. -/
def Site.Created (s : Site) : Prop := s.created = false → s.server.user = []

theorem userAfter_nil (a : Act) : a.userAfter P [] = [] := by
  cases a with
  | frame | statement | spuriousWakeup => rfl
  | message m =>
      rw [Act.userAfter]
      by_cases hlogin : m.buffer.type = mtLoginReq
      swap
      · exact if_neg hlogin
      rw [if_pos hlogin, checkLogin]
      split
      · cases verifyLogin P _ [] _ _ <;> rfl
      split
      · rw [updatePassword]
        split <;> rfl
      · rfl

theorem Site.Created.step (h : s.Created) (hst : s.Step P stored a t) : t.Created := by
  intro hno
  cases hst with
  | server hst =>
      rw [user_of_stops (Or.inl ⟨(), hst⟩), h hno]
      exact userAfter_nil _
  | dies hexit hconfig =>
      change Config.user _ = []
      rw [hconfig, user_of_stops (Or.inr ⟨_, hexit⟩), h hno]
      exact userAfter_nil _
  | restart hconfig => exact hconfig.trans (h hno)
  | @command c now user hexec =>
      cases user with
      | none => rfl
      | some rows => cases hno

/-- Without the table there are none after a command either. -/
theorem exec_none {c : Command} {now : Int} {user : UserTable}
    (hexec : c.exec P stored now none = some user) : user.getD [] = [] := by
  cases c with
  | quit | select | other | createTable =>
      obtain rfl := Option.some.inj hexec
      rfl
  | insert | insertAt | update | delete =>
      obtain rfl := Option.some.inj (Option.ite_none_left_eq_some.mp hexec).2
      rfl

/-- A name that is entered again has two rows. -/
theorem Represents.inserted {rows : List UserRow} {B : Accounts} {c : Command} {now : Int}
    {user : UserTable} (hexec : c.exec P stored now (some rows) = some user)
    (h : Represents (user.getD []) B) {name : Bytes} (hname : name ∈ c.inserted) :
    ∀ row ∈ rows, row.username ≠ name := by
  have hnone : lookup UserRow.username rows name = none := by
    cases c with
    | quit | createTable | update | select | delete | other => cases hname
    | insert | insertAt =>
        obtain rfl := Option.some.inj hname
        obtain rfl := Option.some.inj (Option.ite_none_left_eq_some.mp hexec).2
        exact (single_append.mp h.single).2
  intro row hrow heq
  exact lookup_eq_none.mp hnone (heq ▸ List.mem_map_of_mem hrow)

/-- A step leaves a table of accounts exactly if it enters no name again. -/
theorem Represents.step_iff (h : Represents s.server.user A) (hcreated : s.Created)
    (hst : s.Step P stored a t) :
    Represents t.server.user (a.accountsAfter P stored s A) ↔ s.EntersNew a := by
  cases hst with
  | server hst =>
      refine iff_of_true ?_ trivial
      rw [user_of_stops (Or.inl ⟨(), hst⟩)]
      exact h.userAfter _
  | @dies _ config x u hexit hconfig =>
      refine iff_of_true ?_ trivial
      change Represents config.user _
      rw [hconfig, user_of_stops (Or.inr ⟨x, hexit⟩)]
      exact h.userAfter _
  | @restart config hconfig =>
      refine iff_of_true ?_ trivial
      change Represents config.user _
      rw [hconfig]
      exact h
  | @command c now user hexec =>
      change Represents (user.getD []) _ ↔ _
      rw [SiteAct.accountsAfter, Site.EntersNew]
      rw [Site.table] at hexec ⊢
      cases hthere : s.created with
      | false =>
          rw [hthere] at hexec
          rw [exec_none hexec, ← hcreated hthere]
          exact iff_of_true h fun _ _ _ hrows => nomatch hrows
      | true =>
          rw [hthere] at hexec
          rw [if_pos rfl, if_pos rfl]
          constructor
          · rintro hafter name hname rows hrows
            obtain rfl := Option.some.inj hrows
            exact hafter.inserted hexec hname
          · intro hnew
            refine h.exec (fun name hname => ?_) hexec
            have hrow := hnew name hname _ rfl
            rw [← h.account name, Option.map_eq_none_iff, lookup_eq_none]
            intro hmem
            obtain ⟨row, hmem, heq⟩ := List.mem_map.mp hmem
            exact hrow row hmem heq

/-- **Logins by account.**  In every run of the server and the tool, with the server ended
    and started again wherever it may: the table is that of the accounts, and each login is
    let in exactly if its account says so, exactly as long as no name is entered that is
    there already. -/
theorem logins_by_account {h : List (Site × SiteAct)} (hr : SiteRun P stored config h s) :
    EveryStep (fun h s a t =>
        Represents t.server.user (accounts P stored ((s, a) :: h))
          ∧ ∀ m, a = .server (.message m) → m.buffer.type = mtLoginReq →
            (t.server.isLoggedIn = true
              ↔ ((accounts P stored h).check P (m.ntohlAt offsetIsChangePassword)).1
                = .loginOk)) h s
      ↔ EveryStep (fun _ s a _ => s.EntersNew a) h s := by
  refine hr.everyStep_iff
    (fun h s => Represents s.server.user (accounts P stored h) ∧ s.Created)
    ⟨represents_nil, fun _ => rfl⟩ ?_ ?_
  · rintro h s a t ⟨-, hcreated⟩ hst ⟨hafter, -⟩
    exact ⟨hafter, hcreated.step hst⟩
  · rintro h s a t ⟨hrep, hcreated⟩ hst
    have hiff := hrep.step_iff hcreated hst
    constructor
    · rintro ⟨hafter, -⟩
      exact hiff.mp hafter
    · intro hnew
      refine ⟨hiff.mpr hnew, ?_⟩
      rintro m rfl hlogin
      cases hst with
      | server hst => exact hrep.loggedIn_iff hlogin hst

/-! ### A session of the tool -/

theorem Site.table_withTable (s : Site) (user : UserTable) : (s.withTable user).table = user := by
  cases user <;> rfl

theorem Site.withTable_table (hcreated : s.Created) : s.withTable s.table = s := by
  obtain ⟨server, created⟩ := s
  cases created with
  | true => rfl
  | false =>
      have hnone : server.user = [] := hcreated rfl
      rw [Site.withTable, Site.table]
      dsimp only
      rw [if_neg Bool.false_ne_true, Option.getD_none, ← hnone]
      rfl

theorem Site.created_withTable (s : Site) (user : UserTable) : (s.withTable user).Created := by
  cases user with
  | none => exact fun _ => rfl
  | some rows => exact fun h => nomatch h

theorem run_stays {h : List (Site × SiteAct)} (hr : SiteRun P stored config h s)
    (hcreated : s.Created) : ∃ h', SiteRun P stored config (h' ++ h) (s.withTable s.table) := by
  rw [Site.withTable_table hcreated]
  exact ⟨[], hr⟩

theorem run_mainLoop {clock : Nat → Int} {fuel k : Nat} {v : Inputs} {stdin : Stdin}
    {h : List (Site × SiteAct)} (hr : SiteRun P stored config h s) (hcreated : s.Created) :
    ∃ h', SiteRun P stored config (h' ++ h)
      (s.withTable (mainLoop P stored clock fuel k v stdin s.table).1) := by
  induction fuel generalizing k v stdin h s with
  | zero => exact run_stays hr hcreated
  | succ fuel ih =>
      rw [mainLoop]
      cases readCommand v stdin with
      | none => exact run_stays hr hcreated
      | some read =>
          obtain ⟨c, v, stdin⟩ := read
          dsimp only
          by_cases hquit : c = .quit
          · rw [if_pos hquit]
            exact run_stays hr hcreated
          rw [if_neg hquit]
          cases hexec : c.exec P stored (clock k) s.table with
          | none => exact run_stays hr hcreated
          | some user =>
              have hgoesOn : ∃ h', SiteRun P stored config (h' ++ (s, .command c (clock k)) :: h)
                  ((s.withTable user).withTable (mainLoop P stored clock fuel (k + 1) v stdin
                    (s.withTable user).table).1) :=
                ih (hr.snoc (.command hexec)) (s.created_withTable user)
              obtain ⟨h', hr'⟩ := hgoesOn
              rw [Site.table_withTable] at hr'
              refine ⟨h' ++ [(s, .command c (clock k))], ?_⟩
              rw [List.append_assoc, List.singleton_append]
              exact hr'

/-- **Whatever is typed**, a session of the tool is a stretch of such a run. -/
theorem run_databaseMain {clock : Nat → Int} {stdin : Bytes} {h : List (Site × SiteAct)}
    (hr : SiteRun P stored config h s) (hcreated : s.Created) :
    ∃ h', SiteRun P stored config (h' ++ h)
      (s.withTable (databaseMain P stored clock stdin s.table).1) := run_mainLoop hr hcreated

end Run

/-- A step in which every call succeeds at once. -/
def Site.next (P : Platform) (stored : Bytes → Bytes) (s : Site) : SiteAct → Option Site
  | .server a => (DemoCannon.next P s.server a).map fun t => { s with server := t }
  | .dies _ _ => none
  | .restart config =>
      if config.user = s.server.user then some { s with server := start config } else none
  | .command c now => (c.exec P stored now s.table).map s.withTable

theorem Site.step_of_next {P : Platform} {stored : Bytes → Bytes} (s : Site) (a : SiteAct)
    (t : Site) (h : s.next P stored a = some t) : s.Step P stored a t := by
  cases a with
  | server a =>
      obtain ⟨u, hu, rfl⟩ := Option.map_eq_some_iff.mp h
      exact .server (DemoCannon.step_of_next hu)
  | dies => cases h
  | restart config =>
      obtain ⟨hconfig, hsome⟩ := Option.ite_none_right_eq_some.mp h
      obtain rfl := Option.some.inj hsome
      exact .restart hconfig
  | command c now =>
      obtain ⟨user, huser, rfl⟩ := Option.map_eq_some_iff.mp h
      exact .command huser

/-- `op` is entered while the server is down, and logs in. -/
def Session.entered : List SiteAct :=
  [.command .createTable newYearTime,
    .command (.insert [0x6f, 0x70] password.text) newYearTime,
    .restart config,
    .server (.message login)]

theorem logins_by_account_op :
    ∃ h s, SiteRun Session.platform id Session.config h s ∧ s.server.isLoggedIn = true
      ∧ (EveryStep (fun h s a t =>
          Represents t.server.user (accounts Session.platform id ((s, a) :: h))
            ∧ ∀ m, a = .server (.message m) → m.buffer.type = mtLoginReq →
              (t.server.isLoggedIn = true
                ↔ ((accounts Session.platform id h).check Session.platform
                    (m.ntohlAt offsetIsChangePassword)).1 = .loginOk)) h s
        ↔ EveryStep (fun _ s a _ => s.EntersNew a) h s) := by
  have hrun : ∃ h s, SiteRun Session.platform id Session.config h s
      ∧ s.server.isLoggedIn = true := exists_run_of_follow Site.step_of_next
    Session.entered.reverse (fun s => s.server.isLoggedIn) (by decide +kernel)
  obtain ⟨h, s, hr, hin⟩ := hrun
  exact ⟨h, s, hr, hin, logins_by_account hr⟩

end DemoCannon
