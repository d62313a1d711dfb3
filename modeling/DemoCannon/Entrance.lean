import DemoCannon.Console
import DemoCannon.Registry
import DemoCannon.Wire

/-! # Getting in

    What the operator types in the window goes through `LoginToServer`, the connection and
    `ProcessLogin` to the user table, and the answer comes back and decides what the window
    asks for next.  Over it: the account of the name decides (`entered_by_account`), and who
    is told that the password has expired gets in with a new one (`renewal_lets_in`). -/

namespace DemoCannon

open Interaction Interaction.Program Interaction.Keyed

/-! ## The answer -/

/-- `sizeof(TMesssageLoginState)`. -/
def sizeofLoginState : Nat := 12

/-- What `LoginToServer` returns, given what is there to be read. -/
def loginResult (received : Bytes) : BitVec 32 :=
  if sizeofLoginState ≤ received.length ∧ ntohl (received.drop 4) = mtLoginRes then
    ntohl (received.drop sizeofHeader)
  else LoginState.loginFail.word

/-- The answer of the server is read as it was sent. -/
theorem loginResult_wordMessage (word : BitVec 32) :
    loginResult (wordMessage mtLoginRes word) = word := by
  have hlen : (wordMessage mtLoginRes word).length = sizeofLoginState := rfl
  have htype : ntohl ((wordMessage mtLoginRes word).drop 4) = mtLoginRes := by
    rw [wordMessage, header, List.append_assoc, List.drop_left' (htonl_length _)]
    exact ntohl_htonl _ _
  have hword : ntohl ((wordMessage mtLoginRes word).drop sizeofHeader) = word := by
    have hheader : (header 4 mtLoginRes).length = sizeofHeader := rfl
    rw [wordMessage, List.drop_left' hheader, ← List.append_nil (htonl word)]
    exact ntohl_htonl _ _
  rw [loginResult, if_pos ⟨hlen.ge, htype⟩, hword]

/-! ## The client, the server and the tool -/

structure Entrance where
  window : Window
  site : Site

/-- What is done: something in the window, short of a login; an attempt to log in, which is
    answered; one in which the server ends; something without this client. -/
inductive EntranceAct where
  | window (m : WindowMessage)
  | attempt (beyond : Bytes) (now : Int)
  | lost (beyond : Bytes) (now : Int) (config : Config)
  | site (a : SiteAct)

/-- The message is the answer to a login. -/
def WindowMessage.Answers : WindowMessage → Bool
  | .connect (.answered _) => true
  | _ => false

namespace Window

/-- Connect leads to `LoginToServer`. -/
def LogsIn (w : Window) : Prop :=
  w.connectEnabled = true ∧ w.isClientConnected = false ∧ w.sanityCheck.1 = true

/-- What has been typed. -/
def credentials (w : Window) : Credentials where
  username := w.loginId
  password := w.loginPw
  newPassword := w.newPw
  withNewPassword := w.editNewPwVisible

/-- The request as the server receives it. -/
def loginReceived (w : Window) (beyond : Bytes) (now : Int) : Received :=
  w.loginRequest.received beyond now

/-- The window after the answer. -/
def answered (w : Window) (loginState : BitVec 32) : Window :=
  (w.wndProc (.connect (.answered loginState))).1

end Window

namespace Entrance

inductive Step (P : Platform) (stored : Bytes → Bytes) (e : Entrance) :
    EntranceAct → Entrance → Prop
  | window {m : WindowMessage} {w : Window} : m.Answers = false → e.window.Handles m w →
      Step P stored e (.window m) { e with window := w }
  | attempt {beyond : Bytes} {now : Int} {calls : List (Answered Call Call.Answer)}
      {t : Server} : e.window.LogsIn →
      Performs Serves (dispatch P (e.window.loginReceived beyond now)) e.site.server calls () t →
      Step P stored e (.attempt beyond now)
        ⟨e.window.answered (loginResult (outgoing calls).flatten), { e.site with server := t }⟩
  | lost {beyond : Bytes} {now : Int} {config : Config} {x : Halt} {t : Server} :
      e.window.LogsIn →
      Exits (dispatch P (e.window.loginReceived beyond now)) e.site.server x t →
      config.user = t.user →
      Step P stored e (.lost beyond now config)
        ⟨e.window.answered (loginResult []), { e.site with server := start config }⟩
  | site {a : SiteAct} {s : Site} : e.site.Step P stored a s →
      Step P stored e (.site a) { e with site := s }

/-- A command of the tool enters no name that is in the table. -/
def EntersNew (e : Entrance) : EntranceAct → Prop
  | .site a => e.site.EntersNew a
  | .window _ | .attempt _ _ | .lost _ _ _ => True

end Entrance

/-- A run from an empty table and a new window on. -/
abbrev EntranceRun (P : Platform) (stored : Bytes → Bytes) (config : Config) :
    List (Entrance × EntranceAct) → Entrance → Prop :=
  Run (Entrance.Step P stored) ⟨.created, .empty config⟩

/-- What is done to the server and the table. -/
def EntranceAct.onSite (w : Window) : EntranceAct → Option SiteAct
  | .window _ => none
  | .attempt beyond now => some (.server (.message (w.loginReceived beyond now)))
  | .lost beyond now config => some (.dies (.message (w.loginReceived beyond now)) config)
  | .site a => some a

/-- What has been done to them. -/
def onSites (h : List (Entrance × EntranceAct)) : List (Site × SiteAct) :=
  h.filterMap fun x => (x.2.onSite x.1.window).map fun a => (x.1.site, a)

/-! ## What is asked of the accounts -/

namespace Window

/-- The decision on what has been typed, and what it makes of the accounts. -/
def decided (P : Platform) (now : Int) (A : Accounts) (w : Window) : LoginState × Accounts :=
  if w.editNewPwVisible then A.change P now w.loginId.text w.loginPw.text w.newPw.text
  else (A.verify P now w.loginId.text w.loginPw.text, A)

/-- What has been typed leaves room for the NULs. -/
def Fits (w : Window) : Prop :=
  w.loginId.text.length < maxUsername ∧ (w.editNewPwVisible = true →
    w.loginPw.text.length < maxPassword ∧ w.newPw.text.length < maxPassword)

end Window

section Request

variable {P : Platform} {w : Window} {beyond : Bytes} {now : Int} {A : Accounts}

/-- A password that has been checked, now or before a new one was asked for. -/
theorem Window.Sane.loginPw (hw : w.Sane) (hlogs : w.LogsIn) :
    minPassword ≤ w.loginPw.text.length := by
  refine minPassword_le_of_sanityPassword ?_
  by_cases hexpired : w.loginState = LoginState.dateExpired.word
  · exact (hw.expired hexpired).2
  · exact (Window.sanityCheck_true hlogs.2.2).2.2 hexpired

/-- **The request asks what has been typed.** -/
theorem check_loginReceived (P : Platform) (A : Accounts) (beyond : Bytes) (now : Int)
    (hw : w.Sane) (hlogs : w.LogsIn) (hfits : w.Fits) :
    let request := (w.loginReceived beyond now).ntohlAt offsetIsChangePassword
    request.cString offsetUserName = w.loginId.text ∧ A.check P request = w.decided P now A := by
  have husername : (w.credentials.received beyond now).cString offsetUserName
      = w.loginId.text := (Credentials.username_iff (hw.loginPw hlogs)).mpr hfits.1
  have hpassword : (w.credentials.received beyond now).cString offsetPassword
      = w.loginPw.text := Credentials.password_iff.mpr fun h => (hfits.2 h).1
  have hflag : isChangePW (w.credentials.received beyond now) = w.credentials.flag :=
    w.credentials.flag_received beyond now
  refine ⟨husername, ?_⟩
  change A.check P (w.credentials.received beyond now) = _
  rw [Accounts.check, hflag, husername, hpassword, Window.decided]
  cases hvisible : w.editNewPwVisible with
  | true =>
      have hnew : (w.credentials.received beyond now).cString offsetNewPassword
          = w.newPw.text := (Credentials.newPassword_iff hvisible).mpr (hfits.2 hvisible).2
      have hone : w.credentials.flag = 1 := if_pos hvisible
      rw [hone, hnew, if_neg (by decide), if_pos rfl, if_pos rfl]
      rfl
  | false =>
      have hno : ¬ w.credentials.withNewPassword = true := fun h =>
        Bool.false_ne_true (hvisible.symm.trans h)
      have hzero : w.credentials.flag = 0 := if_neg hno
      rw [hzero, if_pos rfl, if_neg Bool.false_ne_true]
      rfl

/-- A request that is answered has a name. -/
theorem loginId_ne_nil (hw : w.Sane) (hlogs : w.LogsIn) {user : List UserRow}
    {result : LoginState × List UserRow}
    (hcheck : checkLogin P ((w.loginReceived beyond now).ntohlAt offsetIsChangePassword) user
      = some result) : w.loginId.text ≠ [] := by
  intro hnil
  have hroom : w.loginId.text.length < maxUsername := by rw [hnil]; decide
  have husername : (w.credentials.received beyond now).cString offsetUserName = [] :=
    ((Credentials.username_iff (hw.loginPw hlogs)).mpr hroom).trans hnil
  have hflag : isChangePW (w.credentials.received beyond now) = w.credentials.flag :=
    w.credentials.flag_received beyond now
  have hnone : checkLogin P (w.credentials.received beyond now) user = none := by
    refine checkLogin_eq_none_iff.mpr ⟨husername, ?_⟩
    rw [hflag, Credentials.flag]
    cases w.credentials.withNewPassword with
    | true => exact Or.inr rfl
    | false => exact Or.inl rfl
  exact Option.some_ne_none result (hcheck.symm.trans hnone)

end Request

/-! ## What the server does about it -/

section Server

variable {P : Platform} {m : Received} {s t : Server} {calls : List (Answered Call Call.Answer)}

theorem Writes.ite {c : Prop} [Decidable c] {p q : Prog Unit} {out : List Bytes}
    {R : Unit → Server → Prop} (hp : c → Writes p s out R) (hq : ¬ c → Writes q s out R) :
    Writes (if c then p else q) s out R := by
  by_cases hc : c
  · rw [if_pos hc]
    exact hp hc
  · rw [if_neg hc]
    exact hq hc

theorem writes_auditlog (msg : String) (s : Server) :
    Writes (auditlog msg) s [] fun _ t => t = s :=
  Writes.fetch (.ite (fun _ => ⟨⟨(), trivial⟩, fun _ _ => ⟨rfl, rfl⟩⟩) fun _ => Writes.pure rfl)

theorem writes_dispatch_login (hlogin : m.buffer.type = mtLoginReq) {l : LoginState}
    {user : List UserRow}
    (hcheck : checkLogin P (m.ntohlAt offsetIsChangePassword) s.user = some (l, user)) :
    Writes (dispatch P m) s [wordMessage mtLoginRes l.word]
      fun _ t => t.isLoggedIn = true ↔ l = .loginOk := by
  rw [dispatch, if_pos hlogin]
  refine (writes_auditlog _ s).then ?_
  rintro _ t rfl
  exact writes_processLogin hcheck

/-- What comes of a login that the server gets through with. -/
theorem login_performed (hlogin : m.buffer.type = mtLoginReq)
    (h : Performs Serves (dispatch P m) s calls () t) : ∃ l user,
      checkLogin P (m.ntohlAt offsetIsChangePassword) s.user = some (l, user)
        ∧ loginResult (outgoing calls).flatten = l.word ∧ (t.isLoggedIn = true ↔ l = .loginOk) := by
  have hends := h.ends
  rw [dispatch, if_pos hlogin] at hends
  obtain ⟨_, s', hlog, hends⟩ := (ends_bind ..).mp hends
  have huser : s'.user = s.user := Accesses.sameUser (sameUser_auditlog _) (Or.inl ⟨_, hlog⟩)
  obtain ⟨l, user, hcheck, -⟩ := post_processLogin P _ s' () t hends
  rw [huser] at hcheck
  obtain ⟨hout, hin⟩ := Calls.of_delivers (writes_dispatch_login hlogin hcheck) calls () t h
  refine ⟨l, user, hcheck, ?_, hin⟩
  rw [hout, List.flatten_singleton]
  exact loginResult_wordMessage _

/-- It gets through with every login that has a name. -/
theorem exists_performed (hlogin : m.buffer.type = mtLoginReq)
    (hname : (m.ntohlAt offsetIsChangePassword).cString offsetUserName ≠ []) :
    ∃ calls t, Performs Serves (dispatch P m) s calls () t := by
  cases hcheck : checkLogin P (m.ntohlAt offsetIsChangePassword) s.user with
  | none => exact absurd (checkLogin_eq_none_iff.mp hcheck).1 hname
  | some result =>
      obtain ⟨calls, _, t, h⟩ := (writes_dispatch_login hlogin hcheck).exists_performs
      exact ⟨calls, t, h⟩

end Server

/-! ## What the window makes of the answer -/

/-- Connect is enabled while there is no connection; with a new password asked for, the name
    is one that has been checked, and stays. -/
structure Window.Orderly (w : Window) : Prop where
  connect : w.connectEnabled = !w.isClientConnected
  renews : w.editNewPwVisible = true →
    w.editLoginIdEnabled = false ∧ sanityId w.loginId.text = 1 ∧ w.loginId.text ≠ []

section Answer

variable {w w' : Window} {m : WindowMessage}

theorem answered_iff (hlogs : w.LogsIn) (l : LoginState) :
    ((w.answered l.word).isClientConnected = true ↔ l = .loginOk)
      ∧ ((w.answered l.word).editNewPwVisible = true ↔ l = .dateExpired) := by
  obtain ⟨-, hconnected, hcheck⟩ := hlogs
  cases l <;> simp [Window.answered, Window.wndProc, Window.idmConnect, Window.onConnect,
    Window.updateUsernamePwEditable, Window.setToolbar, LoginState.word, hconnected, hcheck]

namespace Window

/-- What `Orderly` looks at. -/
def entry (w : Window) : Bool × Bool × Bool × Bool × CharArray (maxUsername + 1) :=
  (w.connectEnabled, w.isClientConnected, w.editNewPwVisible, w.editLoginIdEnabled, w.loginId)

theorem Orderly.of_entry (hw : w.Orderly) (h : w'.entry = w.entry) : w'.Orderly := by
  simp only [entry, Prod.mk.injEq] at h
  obtain ⟨hconnect, hconnected, hvisible, henabled, hid⟩ := h
  refine ⟨?_, ?_⟩
  · rw [hconnect, hconnected]
    exact hw.connect
  · rw [hvisible, henabled, hid]
    exact hw.renews

theorem entry_showBase (w : Window) : w.showBase.1.entry = w.entry := by
  rw [showBase]
  repeat' split
  all_goals rfl

theorem orderly_created : created.Orderly where
  connect := rfl
  renews h := absurd h Bool.false_ne_true

/-- A connection that ends, or none that does. -/
theorem Orderly.onDisconnect (hw : w.Orderly) : (w.setToolbar false).onDisconnect.1.Orderly := by
  rw [Window.onDisconnect]
  by_cases hconnected : (w.setToolbar false).isClientConnected = true
  · rw [if_pos hconnected]
    exact ⟨rfl, fun h => absurd h Bool.false_ne_true⟩
  · rw [if_neg hconnected]
    exact ⟨(congrArg not ((Bool.not_eq_true _).mp hconnected)).symm, hw.renews⟩

theorem Orderly.step (hw : w.Orderly) (hm : m.Answers = false) (hst : w.Handles m w') :
    w'.Orderly := by
  obtain ⟨hallows, rfl⟩ := hst
  cases m with
  | editLoginId text =>
      refine ⟨hw.connect, fun hvisible => ?_⟩
      exact absurd (hallows.symm.trans (hw.renews hvisible).1) (by decide)
  | checkboxCalibrate =>
      change w.checkboxCalibrate.1.Orderly
      rw [checkboxCalibrate]
      split <;> exact hw.of_entry rfl
  | buttonPrearmSafe =>
      change w.buttonPrearmSafe.1.Orderly
      rw [buttonPrearmSafe]
      split <;> exact hw.of_entry rfl
  | connect attempt =>
      cases attempt with
      | answered state => cases hm
      | refused =>
          have hrefused : (w.onConnect .refused).1 = false
              ∧ (w.onConnect .refused).2.1 = w := by
            rw [Window.onConnect]
            split <;> exact ⟨rfl, rfl⟩
          change (w.idmConnect .refused).1.Orderly
          rw [idmConnect]
          dsimp only
          rw [hrefused.1, if_neg Bool.false_ne_true, hrefused.2]
          split <;> exact hw
  | disconnect | clientLost =>
      exact (show Orderly { w with timer := false } from hw.of_entry rfl).onDisconnect
  | timer => exact hw.onDisconnect.of_entry rfl
  | systemState state => exact hw.of_entry ((entry_showBase _).trans rfl)
  | keyDown | keyUp | editLoginPw | editNewPw | editRemote | editEngageOrder | editPrearmCode
    | checkboxCam | checkboxArmedManual | checkboxLaserEnable | checkboxAutoEngage =>
      exact hw.of_entry rfl

theorem Orderly.answered (hlogs : w.LogsIn) {l : LoginState}
    (hname : l = .dateExpired → w.loginId.text ≠ []) : (w.answered l.word).Orderly := by
  obtain ⟨hiff, hvisible⟩ := answered_iff hlogs l
  obtain ⟨henabled, hconnected, hcheck⟩ := hlogs
  refine ⟨?_, fun h => ?_⟩
  · cases l <;> simp [Window.answered, wndProc, idmConnect, Window.onConnect,
      updateUsernamePwEditable, setToolbar, LoginState.word, hconnected, hcheck, henabled]
  · obtain rfl := hvisible.mp h
    refine ⟨?_, ?_⟩
    · simp [Window.answered, wndProc, idmConnect, Window.onConnect, updateUsernamePwEditable,
        LoginState.word, hconnected, hcheck]
    · have hid : (w.answered LoginState.dateExpired.word).loginId = w.loginId := by
        simp [Window.answered, wndProc, idmConnect, Window.onConnect, updateUsernamePwEditable,
          LoginState.word, hconnected, hcheck]
      rw [hid]
      exact ⟨(sanityCheck_true hcheck).1, hname rfl⟩

end Window

end Answer

/-! ## The run -/

section Run

variable {P : Platform} {stored : Bytes → Bytes} {config : Config} {e t : Entrance}
  {a : EntranceAct} {h : List (Entrance × EntranceAct)}

/-- What holds in every run that enters no name twice. -/
structure Sound (P : Platform) (stored : Bytes → Bytes) (h : List (Entrance × EntranceAct))
    (e : Entrance) : Prop where
  sane : e.window.Sane
  orderly : e.window.Orderly
  created : e.site.Created
  represents : Represents e.site.server.user (accounts P stored (onSites h))

theorem Sound.start : Sound P stored [] ⟨.created, .empty config⟩ where
  sane := Window.sane_start
  orderly := Window.orderly_created
  created _ := rfl
  represents := represents_nil

/-- What is done to the server and the table. -/
theorem Sound.onSite (hs : Sound P stored h e) {b : SiteAct} {s : Site}
    (hst : e.site.Step P stored b s) (hnew : e.site.EntersNew b) :
    s.Created ∧ Represents s.server.user (accounts P stored ((e.site, b) :: onSites h)) :=
  ⟨hs.created.step hst, (hs.represents.step_iff hs.created hst).mpr hnew⟩

theorem sane_answered (hw : e.window.Sane) (hlogs : e.window.LogsIn) (state : BitVec 32) :
    (e.window.answered state).Sane :=
  Window.Sane.step (m := .connect (.answered state)) hw ⟨hlogs.1, rfl⟩

/-- **The step lemma.** -/
theorem Sound.step (hs : Sound P stored h e) (hst : e.Step P stored a t) (hnew : e.EntersNew a) :
    Sound P stored ((e, a) :: h) t := by
  cases hst with
  | window hm hst => exact ⟨hs.sane.step hst, hs.orderly.step hm hst, hs.created, hs.represents⟩
  | @attempt beyond now calls u hlogs hperforms =>
      obtain ⟨hcreated, hrep⟩ := hs.onSite
        (b := .server (.message (e.window.loginReceived beyond now)))
        (.server hperforms.ends) trivial
      obtain ⟨l, user, hcheck, hresult, -⟩ := login_performed rfl hperforms
      rw [hresult]
      exact ⟨sane_answered hs.sane hlogs _,
        .answered hlogs fun _ => loginId_ne_nil hs.sane hlogs hcheck, hcreated, hrep⟩
  | @lost beyond now config x u hlogs hexit hconfig =>
      obtain ⟨hcreated, hrep⟩ := hs.onSite
        (b := .dies (.message (e.window.loginReceived beyond now)) config)
        (.dies (a := .message _) hexit hconfig) trivial
      have hfail : loginResult [] = LoginState.loginFail.word := by decide
      rw [hfail]
      exact ⟨sane_answered hs.sane hlogs _, .answered hlogs (by rintro ⟨⟩), hcreated, hrep⟩
  | site hst =>
      obtain ⟨hcreated, hrep⟩ := hs.onSite hst hnew
      exact ⟨hs.sane, hs.orderly, hcreated, hrep⟩

/-- What has been done to the accounts. -/
def accountsAfter (P : Platform) (stored : Bytes → Bytes) (h : List (Entrance × EntranceAct)) :
    Accounts := accounts P stored (onSites h)

/-- A login is handled as the accounts decide it. -/
theorem Sound.decided (hs : Sound P stored h e) {beyond : Bytes} {now : Int}
    {calls : List (Answered Call Call.Answer)} {u : Server} (hlogs : e.window.LogsIn)
    (hperforms : Performs Serves (dispatch P (e.window.loginReceived beyond now)) e.site.server
      calls () u) (hfits : e.window.Fits) :
    let decided := e.window.decided P now (accountsAfter P stored h)
    loginResult (outgoing calls).flatten = decided.1.word
      ∧ (u.isLoggedIn = true ↔ decided.1 = .loginOk)
      ∧ accountsAfter P stored ((e, .attempt beyond now) :: h) = decided.2 := by
  obtain ⟨l, user, hcheck, hresult, hin⟩ := login_performed rfl hperforms
  obtain ⟨husername, hdecided⟩ := check_loginReceived P (accountsAfter P stored h) beyond now
    hs.sane hlogs hfits
  have hl : l = (e.window.decided P now (accountsAfter P stored h)).1 := by
    rw [← hdecided]
    exact (hs.represents.of_checkLogin hcheck).1
  subst hl
  refine ⟨hresult, hin, ?_⟩
  have hname := loginId_ne_nil hs.sane hlogs hcheck
  have hlogin : (e.window.loginReceived beyond now).buffer.type = mtLoginReq := rfl
  have hafter : accountsAfter P stored ((e, .attempt beyond now) :: h)
      = (Act.message (e.window.loginReceived beyond now)).accountsAfter P
        (accountsAfter P stored h) := rfl
  rw [hafter, Act.accountsAfter, if_pos hlogin, Accounts.login, husername, if_neg hname,
    hdecided]

/-- **The account decides.**  In every run of the window, the server and the tool in which the
    tool enters no name twice: an attempt to log in, with texts that leave room for their NULs,
    ends as the account of the name says.  The connection stays, or a new password is asked
    for, or neither, and the accounts are changed if the password is. -/
theorem entered_by_account (hr : EntranceRun P stored config h e)
    (hnew : EveryStep (fun _ e a _ => e.EntersNew a) h e) :
    EveryStep (fun h e a t => ∀ beyond now, a = .attempt beyond now → e.window.Fits →
      let decided := e.window.decided P now (accountsAfter P stored h)
      (t.window.isClientConnected = true ↔ decided.1 = .loginOk)
        ∧ (t.site.server.isLoggedIn = true ↔ decided.1 = .loginOk)
        ∧ (t.window.editNewPwVisible = true ↔ decided.1 = .dateExpired)
        ∧ accountsAfter P stored ((e, a) :: h) = decided.2) h e := by
  refine hr.everyStep_of (Sound P stored) .start (fun _ _ _ _ hs hst hnew => hs.step hst hnew)
    ?_ hnew
  rintro h e a t hs hst - beyond now rfl hfits
  cases hst with
  | attempt hlogs hperforms =>
      obtain ⟨hresult, hin, haccounts⟩ := hs.decided hlogs hperforms hfits
      obtain ⟨hconnected, hvisible⟩ := answered_iff hlogs
        (e.window.decided P now (accountsAfter P stored h)).1
      rw [hresult]
      exact ⟨hconnected, hin, hvisible, haccounts⟩

/-! ## A password that has expired -/

/-- The invariant at the end of a run. -/
theorem EntranceRun.sound (hr : EntranceRun P stored config h e)
    (hnew : EveryStep (fun _ e a _ => e.EntersNew a) h e) : Sound P stored h e := by
  induction hr with
  | start => exact .start
  | snoc _ hst ih =>
      obtain ⟨hlast, hrest⟩ := hnew
      exact (ih hrest).step hst hlast

/-- The window with a new password typed in. -/
def Entrance.renewing (e : Entrance) (new : WindowText) : Entrance :=
  { e with window := (e.window.wndProc (.editNewPw new)).1 }

/-- The accounts let a new password in. -/
theorem change_ok {A : Accounts} {now : Int} {username password new : Bytes}
    (hknown : (A username).map Account.password = some (P.getSaltHashPassword username password))
    (hother : P.getSaltHashPassword username new ≠ P.getSaltHashPassword username password)
    (hfresh : Fresh P now (P.currentTimestamp now)) :
    A.change P now username password new = (.loginOk, Function.update A username
      (some ⟨P.getSaltHashPassword username new, P.currentTimestamp now⟩)) := by
  obtain ⟨date, hdate, hage⟩ := hfresh
  have hnew : (A username).map Account.password ≠ some (P.getSaltHashPassword username new) :=
    fun h => hother (Option.some.inj (h.symm.trans hknown))
  have hverify : Accounts.verify P (Function.update A username
      (some ⟨P.getSaltHashPassword username new, P.currentTimestamp now⟩)) now username new
        = .loginOk := by
    rw [Accounts.verify, Function.update_self]
    dsimp only
    rw [if_pos rfl, hdate]
    exact if_pos hage
  rw [Accounts.change]
  dsimp only
  rw [if_pos ⟨hknown, hnew⟩, hverify, if_pos rfl]

/-- What it takes to get in with a new password: it is asked for, the account has not been
    touched since, and what is typed is strong, leaves room for its NUL and has another
    digest. -/
structure Entrance.Renews (P : Platform) (A : Accounts) (now : Int) (new : WindowText)
    (e : Entrance) : Prop where
  visible : e.window.editNewPwVisible = true
  address : ¬ sanityIp e.window.remoteAddress.text < 0
  known : (A e.window.loginId.text).map Account.password
    = some (P.getSaltHashPassword e.window.loginId.text e.window.loginPw.text)
  strong : sanityPassword (getWindowTextA maxPassword new).text = 1
  fits : (e.renewing new).window.Fits
  other : P.getSaltHashPassword e.window.loginId.text (getWindowTextA maxPassword new).text
    ≠ P.getSaltHashPassword e.window.loginId.text e.window.loginPw.text
  fresh : Fresh P now (P.currentTimestamp now)

section Renews

variable {new : WindowText} {now : Int}

/-- The account with the new password. -/
def Entrance.renewed (P : Platform) (A : Accounts) (now : Int) (new : WindowText)
    (e : Entrance) : Accounts :=
  Function.update A e.window.loginId.text (some ⟨P.getSaltHashPassword e.window.loginId.text
    (getWindowTextA maxPassword new).text, P.currentTimestamp now⟩)

theorem Sound.logsIn (hs : Sound P stored h e)
    (hnew : e.Renews P (accountsAfter P stored h) now new) : (e.renewing new).window.LogsIn := by
  obtain ⟨-, hid, -⟩ := hs.orderly.renews hnew.visible
  have hexpired := hs.sane.newPw.mp hnew.visible
  have hconnected : e.window.isClientConnected = false := by
    by_contra hno
    have hok := hs.sane.connected ((Bool.not_eq_false _).mp hno)
    exact absurd (hok.symm.trans hexpired) (by decide)
  refine ⟨hs.orderly.connect.trans (congrArg not hconnected), hconnected, ?_⟩
  have hid' : ¬ sanityId e.window.loginId.text < 0 := by rw [hid]; decide
  change (Window.sanityCheck { e.window with newPw := getWindowTextA maxPassword new }).1 = true
  rw [Window.sanityCheck]
  dsimp only
  rw [if_neg hnew.address, if_neg hid', if_pos hexpired, hnew.strong]
  rfl

end Renews

end Run

/-! ## A login -/

instance (s : Site) (a : SiteAct) : Decidable (s.EntersNew a) :=
  match a with
  | .command c _ => inferInstanceAs (Decidable
      (∀ name ∈ c.inserted, ∀ rows ∈ s.table, ∀ row ∈ rows, row.username ≠ name))
  | .server _ | .dies _ _ | .restart _ => .isTrue trivial

instance (e : Entrance) (a : EntranceAct) : Decidable (e.EntersNew a) :=
  match a with
  | .site a => inferInstanceAs (Decidable (e.site.EntersNew a))
  | .window _ | .attempt _ _ | .lost _ _ _ => .isTrue trivial

instance (w : Window) : Decidable w.LogsIn := inferInstanceAs (Decidable (_ ∧ _))

instance (w : Window) : Decidable w.Fits := inferInstanceAs (Decidable (_ ∧ (_ → _)))

/-- A step in which every call of the server succeeds at once. -/
def Entrance.next (P : Platform) (stored : Bytes → Bytes) (e : Entrance) :
    EntranceAct → Option Entrance
  | .window m =>
      if m.Answers = false then (e.window.next m).map fun w => { e with window := w } else none
  | .attempt beyond now =>
      if e.window.LogsIn then
        (record Console.serving (dispatch P (e.window.loginReceived beyond now))
          e.site.server).map fun r =>
            ⟨e.window.answered (loginResult (outgoing r.1).flatten),
              { e.site with server := r.2.2 }⟩
      else none
  | .lost _ _ _ => none
  | .site a => (e.site.next P stored a).map fun s => { e with site := s }

theorem Entrance.step_of_next {P : Platform} {stored : Bytes → Bytes} (e : Entrance)
    (a : EntranceAct) (t : Entrance) (h : e.next P stored a = some t) : e.Step P stored a t := by
  cases a with
  | window m =>
      obtain ⟨hm, hnext⟩ := Option.ite_none_right_eq_some.mp h
      obtain ⟨w, hw, rfl⟩ := Option.map_eq_some_iff.mp hnext
      exact .window hm (Window.handles_of_next _ _ _ hw)
  | attempt beyond now =>
      obtain ⟨hlogs, hnext⟩ := Option.ite_none_right_eq_some.mp h
      obtain ⟨⟨calls, u, s⟩, hrecord, rfl⟩ := Option.map_eq_some_iff.mp hnext
      exact .attempt hlogs (performs_of_record Console.serves_of_serving hrecord)
  | lost => cases h
  | site a =>
      obtain ⟨s, hs, rfl⟩ := Option.map_eq_some_iff.mp h
      exact .site (Site.step_of_next _ _ _ hs)

namespace Session

/-- `cannon-2024`. -/
def oldPassword : Password where
  text := "cannon-2024".toUTF8.data.toList
  digest := digest (0xe9fdd30252481fe4198622c959a1e6f1b5f037117cfd9c2dcaee5275370988ba <<< 256
    + 0x73b779b1ac7a961daf29a6b4f75933d3499f58544b750cfa0e3ebeafeaaf3873)
  salted := digest (0x5ef88e1208dfa6e7e43546ca7dffee160bb652214956ce71a0e4ff7cc9ef064d <<< 256
    + 0x5cd9f56c7acaaf68d361779df905f9b2bbc0dcd9082d4cb95ec00f2f249d2055)

/-- `cannon-2025`. -/
def newPassword : Password where
  text := "cannon-2025".toUTF8.data.toList
  digest := digest (0xd88d2753bfe84903503704da3022f0f79e334c7c9b83ba77bd0ce919a4e013d4 <<< 256
    + 0x855ac041b06718d8257116ab057026d5c14bf463908691d4518353efab1e506c)
  salted := digest (0x773a0516d4a4bcf2e4032db10b5644d9df49c607ad1e426f95b20322d7127fc8 <<< 256
    + 0x293dbf4d74d564194dbe81f8fd861c67533faddb809ef9f0b586380f10e5d6da)

/-- `"2024-02-05 00:00:00"` and its time. -/
def february : Bytes := "2024-02-05 00:00:00".toUTF8.data.toList

def februaryTime : Int := 1707091200

/-- The platform, as far as a login in February asks it. -/
def februaryPlatform : Platform where
  sha512 bs :=
    if bs = oldPassword.text then oldPassword.digest
    else if bs = hex oldPassword.digest ++ salt then oldPassword.salted
    else if bs = newPassword.text then newPassword.digest
    else if bs = hex newPassword.digest ++ salt then newPassword.salted
    else .replicate 64 0
  getTime bs :=
    if bs = newYear then some newYearTime else if bs = february then some februaryTime else none
  currentTimestamp _ := february

/-- `op` was entered in January, and logs in in February. -/
def expires : List EntranceAct :=
  [.site (.command .createTable newYearTime),
    .site (.command (.insertAt [0x6f, 0x70] oldPassword.text newYear) newYearTime),
    .window typeId, .window typePw, .attempt [] februaryTime]

/-- The run, with a new password asked for. -/
theorem expires_run : ∃ h e, EntranceRun februaryPlatform id config h e
    ∧ EveryStep (fun _ e a _ => e.EntersNew a) h e
    ∧ e.Renews februaryPlatform (accountsAfter februaryPlatform id h) februaryTime
      (.ofKeys newPassword.text) := by
  have hrun : ∃ h e, EntranceRun februaryPlatform id config h e
      ∧ decide (EveryStep (fun _ e a _ => e.EntersNew a) h e
        ∧ e.window.editNewPwVisible = true ∧ ¬ sanityIp e.window.remoteAddress.text < 0
        ∧ e.window.loginId.text = [0x6f, 0x70] ∧ e.window.loginPw.text = oldPassword.text
        ∧ (accountsAfter februaryPlatform id h [0x6f, 0x70]).map Account.password
          = some (hex oldPassword.salted)
        ∧ (e.renewing (.ofKeys newPassword.text)).window.Fits) = true :=
    exists_history_of_follow Entrance.step_of_next expires.reverse _ (by decide +kernel)
  obtain ⟨h, e, hr, hQ⟩ := hrun
  obtain ⟨hall, hvisible, haddress, hid, hpw, hknown, hfits⟩ := of_decide_eq_true hQ
  have hold : februaryPlatform.getSaltHashPassword [0x6f, 0x70] oldPassword.text
      = hex oldPassword.salted := by decide +kernel
  refine ⟨h, e, hr, hall, hvisible, haddress, ?_, by decide +kernel, hfits, ?_, ?_⟩
  · rw [hid, hpw, hold]
    exact hknown
  · rw [hid, hpw, hold]
    decide +kernel
  · exact ⟨februaryTime, by decide +kernel, by decide +kernel⟩

end Session

theorem entered_by_account_expired : ∃ h e,
    EntranceRun Session.februaryPlatform id Session.config h e
      ∧ e.window.editNewPwVisible = true
      ∧ EveryStep (fun h e a t => ∀ beyond now, a = .attempt beyond now → e.window.Fits →
        let decided := e.window.decided Session.februaryPlatform now
          (accountsAfter Session.februaryPlatform id h)
        (t.window.isClientConnected = true ↔ decided.1 = .loginOk)
          ∧ (t.site.server.isLoggedIn = true ↔ decided.1 = .loginOk)
          ∧ (t.window.editNewPwVisible = true ↔ decided.1 = .dateExpired)
          ∧ accountsAfter Session.februaryPlatform id ((e, a) :: h) = decided.2) h e := by
  obtain ⟨h, e, hr, hall, hnew⟩ := Session.expires_run
  exact ⟨h, e, hr, hnew.visible, entered_by_account hr hall⟩

end DemoCannon
