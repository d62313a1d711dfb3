import DemoCannon.Registry
import DemoCannon.Wire

/-! # Who changes a password

    The server changes the rows of a name only for somebody who knows the password of one
    of them.  Everybody else needs the tool (`password_needed`). -/

namespace DemoCannon

open Interaction Interaction.Program Interaction.Keyed

/-- The name that a command is about. -/
def Command.about : Command → Option Bytes
  | .insert username _ | .insertAt username _ _ | .update username _ | .delete username =>
      some (bound username)
  | .quit | .createTable | .select | .other => none

/-- The rows of a name. -/
def Site.rows (s : Site) (name : Bytes) : List UserRow :=
  rowsOf UserRow.username s.server.user name

/-- The message is a request to change the password of the name, with one that is in the
    table for it. -/
def Authorized (P : Platform) (user : List UserRow) (name : Bytes) (m : Received) : Prop :=
  let request := m.ntohlAt offsetIsChangePassword
  m.buffer.type = mtLoginReq ∧ isChangePW request = 1 ∧ request.cString offsetUserName = name
    ∧ Knows user name (P.getSaltHashPassword name (request.cString offsetPassword))

/-- What may change the rows of a name. -/
def SiteAct.MayChange (P : Platform) (s : Site) (name : Bytes) : SiteAct → Prop
  | .server a | .dies a _ => ∃ m, a = .message m ∧ Authorized P s.server.user name m
  | .restart _ => False
  | .command c _ => c.about = some name

section Rows

variable {P : Platform} {stored : Bytes → Bytes} {config : Config} {name : Bytes}

/-- The rows of other names stay. -/
theorem rowsOf_updateUser {user : List UserRow} {hashed username stamp : Bytes}
    (h : name ≠ username) : rowsOf UserRow.username (updateUser user hashed username stamp) name
      = rowsOf UserRow.username user name := by
  have hkeep : ∀ row : UserRow, UserRow.username
      { row with password := hashed, createdAt := some stamp } = row.username := fun _ => rfl
  exact rowsOf_map_at hkeep h

/-- **A change of the password changes the rows of its name only**, and none unless the old
    password is known. -/
theorem rowsOf_updatePassword {now : Int} {user user' : List UserRow}
    {username password newPassword : Bytes} {l : LoginState}
    (h : updatePassword P now user username password newPassword = some (l, user'))
    (hno : name = username → ¬ Knows user name (P.getSaltHashPassword name password)) :
    rowsOf UserRow.username user' name = rowsOf UserRow.username user name := by
  rw [updatePassword] at h
  dsimp only at h
  by_cases hname : username = []
  · rw [if_pos hname] at h
    cases h
  rw [if_neg hname] at h
  by_cases hknows : selectUser user username (P.getSaltHashPassword username password) = []
  · rw [if_pos hknows] at h
    cases h
    rfl
  rw [if_neg hknows] at h
  have hother : name ≠ username := by
    rintro rfl
    exact hno rfl (selectUser_ne_nil_iff.mp hknows)
  by_cases hsame : selectUser user username (P.getSaltHashPassword username newPassword) ≠ []
  · rw [if_pos hsame] at h
    cases h
    rfl
  rw [if_neg hsame] at h
  cases hverify : verifyLogin P now (updateUser user (P.getSaltHashPassword username newPassword)
      username (P.currentTimestamp now)) username newPassword with
  | none => rw [hverify] at h; cases h
  | some verified =>
      rw [hverify] at h
      cases verified <;> (cases h; exact rowsOf_updateUser hother)

theorem rowsOf_userAfter {user : List UserRow} {a : Act}
    (hno : ¬ ∃ m, a = .message m ∧ Authorized P user name m) :
    rowsOf UserRow.username (a.userAfter P user) name = rowsOf UserRow.username user name := by
  cases a with
  | frame | statement | spuriousWakeup => rfl
  | message m =>
      rw [Act.userAfter]
      by_cases hlogin : m.buffer.type = mtLoginReq
      swap
      · rw [if_neg hlogin]
      rw [if_pos hlogin]
      cases hcheck : checkLogin P (m.ntohlAt offsetIsChangePassword) user with
      | none => rfl
      | some result =>
          obtain ⟨l, user'⟩ := result
          change rowsOf UserRow.username user' name = _
          rw [checkLogin, ← isChangePW] at hcheck
          by_cases hverify : isChangePW (m.ntohlAt offsetIsChangePassword) = 0
          · rw [if_pos hverify] at hcheck
            obtain ⟨_, -, heq⟩ := Option.map_eq_some_iff.mp hcheck
            cases heq
            rfl
          rw [if_neg hverify] at hcheck
          by_cases hchange : isChangePW (m.ntohlAt offsetIsChangePassword) = 1
          · rw [if_pos hchange] at hcheck
            refine rowsOf_updatePassword hcheck fun hname hknows => hno ⟨m, rfl, hlogin, hchange,
              hname.symm, hknows⟩
          · rw [if_neg hchange] at hcheck
            cases hcheck
            rfl

theorem rowsOf_exec {c : Command} {now : Int} {rows : List UserRow} {user : UserTable}
    (hexec : c.exec P stored now (some rows) = some user) (hno : c.about ≠ some name) :
    rowsOf UserRow.username (user.getD []) name = rowsOf UserRow.username rows name := by
  have hother : ∀ {username}, c.about = some username → name ≠ username := by
    rintro username habout rfl
    exact hno habout
  cases c with
  | quit | select | other | createTable =>
      obtain rfl := Option.some.inj hexec
      rfl
  | insert username | insertAt username =>
      obtain rfl := Option.some.inj (Option.ite_none_left_eq_some.mp hexec).2
      exact rowsOf_append_ne (hother rfl).symm
  | update =>
      obtain rfl := Option.some.inj (Option.ite_none_left_eq_some.mp hexec).2
      exact rowsOf_updateUser (hother rfl)
  | delete =>
      obtain rfl := Option.some.inj (Option.ite_none_left_eq_some.mp hexec).2
      exact rowsOf_filter_ne (hother rfl)

/-- **The step lemma.** -/
theorem Site.Step.rows {s t : Site} {a : SiteAct} (hst : s.Step P stored a t)
    (hcreated : s.Created) (hno : ¬ a.MayChange P s name) : t.rows name = s.rows name := by
  cases hst with
  | server hst =>
      rw [Site.rows, user_of_stops (Or.inl ⟨(), hst⟩)]
      exact rowsOf_userAfter hno
  | @dies _ config x u hexit hconfig =>
      change rowsOf UserRow.username config.user name = _
      rw [hconfig, user_of_stops (Or.inr ⟨x, hexit⟩)]
      exact rowsOf_userAfter hno
  | @restart config hconfig =>
      change rowsOf UserRow.username config.user name = _
      rw [hconfig]
      rfl
  | @command c now user hexec =>
      change rowsOf UserRow.username (user.getD []) name = _
      rw [Site.table] at hexec
      cases hthere : s.created with
      | false =>
          rw [hthere] at hexec
          rw [exec_none hexec, Site.rows, hcreated hthere]
      | true =>
          rw [hthere] at hexec
          exact rowsOf_exec hexec hno

/-- **A password is needed.**  However the server and the tool go on: where the rows of a name
    are others than before, the tool has been used on that name, or somebody has asked to
    change its password who knew it. -/
theorem password_needed {h₀ h : List (Site × SiteAct)} {s₀ s : Site}
    (hr₀ : SiteRun P stored config h₀ s₀) (hr : Run (Site.Step P stored) s₀ h s)
    (hrows : s.rows name ≠ s₀.rows name) : ∃ x ∈ h, x.2.MayChange P x.1 name := by
  have hcreated₀ : s₀.Created :=
    (hr₀.invariant Site.Created (fun _ => rfl) fun _ _ _ hs hst => hs.step hst).last
  revert hrows
  suffices hboth : s.Created ∧ (s.rows name ≠ s₀.rows name
      → ∃ x ∈ h, x.2.MayChange P x.1 name) from hboth.2
  induction hr with
  | start => exact ⟨hcreated₀, fun hrows => absurd rfl hrows⟩
  | @snoc h s t a hr hst ih =>
      obtain ⟨hcreated, hchanged⟩ := ih
      refine ⟨hcreated.step hst, fun hrows => ?_⟩
      by_cases hmay : a.MayChange P s name
      · exact ⟨(s, a), List.mem_cons_self .., hmay⟩
      · rw [hst.rows hcreated hmay] at hrows
        obtain ⟨x, hx, hmay⟩ := hchanged hrows
        exact ⟨x, List.mem_cons_of_mem _ hx, hmay⟩

end Rows

/-- `op` asks for `1235` in place of `1234`. -/
def Session.changesPassword : SiteAct :=
  .server (.message (ofClient (loginToServer credentials.username
    ⟨password.text, by decide, by decide⟩ true
    (some ⟨wrongPassword.text, by decide, by decide⟩))))

theorem password_needed_op : ∃ h₀ h s₀ s, SiteRun Session.platform id Session.config h₀ s₀
    ∧ Run (Site.Step Session.platform id) s₀ h s
    ∧ ∃ x ∈ h, x.2.MayChange Session.platform x.1 [0x6f, 0x70] := by
  have hrun : ∃ h s, SiteRun Session.platform id Session.config h s
      ∧ (s.next Session.platform id Session.changesPassword).any
        (fun t => t.rows [0x6f, 0x70] ≠ s.rows [0x6f, 0x70]) = true :=
    exists_run_of_follow Site.step_of_next Session.entered.reverse
      (fun s => (s.next Session.platform id Session.changesPassword).any
        fun t => t.rows [0x6f, 0x70] ≠ s.rows [0x6f, 0x70]) (by decide +kernel)
  obtain ⟨h₀, s₀, hr₀, hs₀⟩ := hrun
  cases hnext : s₀.next Session.platform id Session.changesPassword with
  | none => rw [hnext] at hs₀; cases hs₀
  | some t =>
      rw [hnext] at hs₀
      have hr : Run (Site.Step Session.platform id) s₀ [(s₀, Session.changesPassword)] t :=
        .snoc .start (Site.step_of_next _ _ _ hnext)
      exact ⟨h₀, _, s₀, t, hr₀, hr, password_needed hr₀ hr (of_decide_eq_true hs₀)⟩

end DemoCannon
