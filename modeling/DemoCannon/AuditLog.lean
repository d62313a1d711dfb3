import DemoCannon.Answers
import DemoCannon.Logging
import DemoCannon.Process

/-! # The file of the audit log

    `NetworkInputThread` opens the file when it starts and closes it when it
    ends, while the others go on.  `auditlog` writes wherever there is a file,
    and `detroyAuditObj`, unlike `destroyAuditObj` beside it, leaves the pointer
    to the closed file in place.  So the log is never written after it was
    closed exactly when no step that writes is taken then (`auditLog_open_iff`). -/

namespace DemoCannon

open Interaction Interaction.Program SystemState

/-! ## The file is open when it is written to -/

/-- A line goes to an open file. -/
def Call.ToOpenLog : Call → Prop
  | .auditLine file _ => file = .opened
  | _ => True

/-- Every line that the step may write goes to an open file. -/
def Server.LogOpen (P : Platform) (s : Server) (a : Act) : Prop :=
  Asks Call.ToOpenLog (a.prog P) s

/-- A step that writes nothing, or does not find the file closed. -/
theorem logOpen_of_quiet {P : Platform} {s : Server} {a : Act}
    (h : s.WritesLog a → s.auditFile ≠ .closed) : s.LogOpen P a := by
  refine (logsAt_act P a s).asks.mono fun c hc => ?_
  cases c with
  | auditLine file msg =>
      obtain ⟨hwrites, rfl, hnull⟩ := hc
      have hclosed := h hwrites
      change s.auditFile = .opened
      cases hfile : s.auditFile with
      | null => exact absurd hfile hnull
      | opened => rfl
      | closed => exact absurd hfile hclosed
  | lock | unlock | sslWrite | sslRead | condSignal | pthreadCreate | fopenIni | fopenLog
    | never => trivial

section Closed

variable {s : Server}

/-- A line to a closed file. -/
theorem not_asks_auditlog (msg : String) (hs : s.auditFile = .closed) :
    ¬ Asks Call.ToOpenLog (auditlog msg) s := by
  intro h
  change Asks Call.ToOpenLog (if s.auditFile ≠ .null then call (.auditLine s.auditFile msg)
    else pure () : Prog Unit) s at h
  rw [hs] at h
  cases h.1

theorem ends_say (text : String) (s : Server) : Ends (say text) s () s := by
  by_cases htext : 0 < text.toUTF8.size
  · have hsay := writes_say text s htext
    obtain ⟨⟨⟩, t, ht⟩ := hsay.exists_endsUnder
    obtain ⟨_, _, rfl⟩ := hsay.postUnder () t ht
    exact ht.ends
  · -- nothing is sent, under the lock
    have hempty : Ends (printfSend text) s (text.toUTF8.size : Int) s := by
      refine (ends_bind _ _ _ _ _).mpr ⟨(), s, ⟨(), rfl, rfl⟩, ?_⟩
      dsimp only
      rw [if_neg htext]
      exact ⟨(), rfl, rfl⟩
    exact (ends_bind _ _ _ _ _).mpr ⟨_, s, hempty, rfl, rfl⟩

theorem ends_servoAngle_inside (num : ServoNum) (s : Server) (hmin : num.min < s.angle num)
    (hmax : s.angle num < num.max) : Ends (servoAngle num) s () (s.command num) := by
  refine (ends_bind _ _ _ _ _).mpr ⟨(), s, ⟨(), rfl, rfl⟩, ?_⟩
  refine (ends_bind _ _ _ _ _).mpr ⟨s, s, ⟨rfl, rfl⟩, ?_⟩
  rw [if_neg (Rat.not_lt.mpr (Rat.le_of_lt hmin)), if_neg (Rat.not_lt.mpr (Rat.le_of_lt hmax))]
  exact ⟨(), rfl, rfl⟩

/-- A target is skipped at a limit. -/
theorem ends_aimAt_skip {f : Frame} {d : TDetectedMatches}
    (hlimit : ¬ (s.PanInside f d ∧ s.TiltInside f d)) :
    ∃ m, Ends (aimAt f d) s .engagementComplete m := by
  have hskip : ∀ text m, Ends (do
      say text
      pure .engagementComplete : Prog TEngagementState) m .engagementComplete m :=
    fun text m => (ends_bind _ _ _ _ _).mpr ⟨(), m, ends_say text m, rfl, rfl⟩
  -- the pan is written before it is checked, and so is the tilt
  have hstart : (∃ m, Ends (if s.PanInside f d then do
        servoAngle .panServo
        aimTilt f d
      else do
        say "Skip because of Pan Limit"
        pure .engagementComplete : Prog TEngagementState) { s with pan := s.aimedPan f d }
        .engagementComplete m) → ∃ m, Ends (aimAt f d) s .engagementComplete m := id
  by_cases hpan : s.PanInside f d
  · have htilt : ¬ s.TiltInside f d := fun htilt => hlimit ⟨hpan, htilt⟩
    have haim : Ends (aimTilt f d)
        { s with pan := s.aimedPan f d, panServo := s.aimedPan f d } .engagementComplete
        { s with
          pan := s.aimedPan f d, panServo := s.aimedPan f d, tilt := s.aimedTilt f d } := by
      change Ends (if s.TiltInside f d then do
          servoAngle .tiltServo
          countStable
        else do
          say "Skip because of Tilt Limit"
          pure .engagementComplete : Prog TEngagementState) _ _ _
      rw [if_neg htilt]
      exact hskip _ _
    refine hstart ?_
    rw [if_pos hpan]
    exact ⟨_, (ends_bind _ _ _ _ _).mpr
      ⟨(), _, ends_servoAngle_inside .panServo _ hpan.1 hpan.2, haim⟩⟩
  · refine hstart ?_
    rw [if_neg hpan]
    exact ⟨_, hskip _ _⟩

theorem ends_tryToMatch_skip {f : Frame} (hskips : s.Skips f) :
    ∃ m, Ends (tryToMatch f) s .engagementComplete m := by
  have hlast : ∀ m, Ends (do
      if TEngagementState.engagementComplete ≠ .lookingForTarget then
        update fun s => { s with trying := false }
      else pure ()
      pure .engagementComplete : Prog TEngagementState) m .engagementComplete
      { m with trying := false } := fun m => ⟨rfl, rfl⟩
  cases hfirst : s.firstMatch f with
  | some d =>
      rw [Server.Skips, hfirst] at hskips
      obtain ⟨m, hm⟩ := ends_aimAt_skip hskips
      refine ⟨{ m with trying := false }, (ends_bind _ _ _ _ _).mpr ⟨s, s, ⟨rfl, rfl⟩, ?_⟩⟩
      rw [show f.detectedMatches.find? (·.symbol = (s.autoEngage.target : Int)) = some d
        from hfirst]
      exact (ends_bind _ _ _ _ _).mpr ⟨_, m, hm, hlast m⟩
  | none =>
      rw [Server.Skips, hfirst] at hskips
      obtain ⟨htrying, htime⟩ := hskips
      have hlook : Ends (lookOn f) s .engagementComplete s := by
        refine (ends_bind _ _ _ _ _).mpr ⟨s, s, ⟨rfl, rfl⟩, ?_⟩
        rw [if_neg (ne_false_of_eq_true htrying), if_pos htime]
        exact ⟨rfl, rfl⟩
      refine ⟨{ s with trying := false }, (ends_bind _ _ _ _ _).mpr ⟨s, s, ⟨rfl, rfl⟩, ?_⟩⟩
      rw [show f.detectedMatches.find? (·.symbol = (s.autoEngage.target : Int)) = none
        from hfirst]
      exact (ends_bind _ _ _ _ _).mpr ⟨_, s, hlook, hlast s⟩

/-- A target that is skipped is logged, whatever is open. -/
theorem not_asks_track {f : Frame} {newState : Bool} (hs : s.auditFile = .closed)
    (hstate : s.autoEngage.state ≠ .engagementComplete) (hskips : s.Skips f) :
    ¬ Asks Call.ToOpenLog (track f newState) s := by
  intro h
  obtain ⟨m, hm⟩ := ends_tryToMatch_skip hskips
  have hlogs : Logs True (tryToMatch f) := logs_tryToMatch
  have hclosed : m.auditFile = .closed := ((hlogs s).keeps _ m hm).trans hs
  have hchanged : decide (m.autoEngage.state ≠ .engagementComplete) = true := by
    rw [(matched_tryToMatch f s _ m hm).state]
    exact decide_eq_true hstate
  have hrest : Asks Call.ToOpenLog (do
      let changed := decide (m.autoEngage.state ≠ .engagementComplete)
      if changed then updateAuto fun a => { a with state := .engagementComplete } else pure ()
      if newState || changed then enterState .engagementComplete else pure () : Prog Unit) m :=
    ((asks_bind _ _).mp h).2 _ m hm
  simp only [hchanged, Bool.or_true, if_true] at hrest
  -- the text on the connection comes before the line
  have hline : Asks Call.ToOpenLog (auditlog "Target not found, skipped target")
      { m with autoEngage := { m.autoEngage with state := .engagementComplete } } :=
    ((asks_bind (say _) _).mp hrest).2 () _ (ends_say _ _)
  refine not_asks_auditlog _ ?_ hline
  exact hclosed

theorem Server.Searches.state_ne (hs : s.Searches) :
    s.searching.autoEngage.state ≠ .engagementComplete := by
  intro hcomplete
  rw [Server.searching, TAutoEngage.searching] at hcomplete
  rcases hs with h | h | h | h
  · rw [h] at hcomplete
    cases hcomplete
  · rw [h] at hcomplete
    cases h.symm.trans hcomplete
  · rw [h] at hcomplete
    cases h.symm.trans hcomplete
  · rw [h] at hcomplete
    cases h.symm.trans hcomplete

/-- Switching an output on. -/
theorem not_asks_switch {f g k : Server → Server} (msg : String)
    (hs : s.auditFile = .closed) : ¬ Asks Call.ToOpenLog (do
      lock .gpio
      if true then
        auditlog msg
        update f
      else update g
      update k
      unlock .gpio : Prog Unit) s := by
  rintro ⟨-, h⟩
  exact not_asks_auditlog msg hs ((asks_bind (auditlog msg) _).mp (h ())).1

/-- What is written is written to the closed file, where the file is closed. -/
theorem not_logOpen {P : Platform} {a : Act} (hs : s.auditFile = .closed)
    (hmessage : ∀ m, a ≠ .message m) (hwrites : s.WritesLog a) : ¬ s.LogOpen P a := by
  intro h
  cases a with
  | message m => exact absurd rfl (hmessage m)
  | spuriousWakeup => exact hwrites
  | frame f =>
      obtain ⟨hsearches, hskips⟩ := hwrites
      obtain ⟨newState, hasks, -⟩ := search_track (f := f) hsearches
      exact not_asks_track (s := s.searching) hs hsearches.state_ne hskips ((hasks _).mp h)
  | statement =>
      have hfetch : ∀ {k : Server → Prog Unit},
          Asks Call.ToOpenLog (fetch >>= k) s ↔ Asks Call.ToOpenLog (k s) s := Iff.rfl
      change Asks Call.ToOpenLog engagementStatement s at h
      rw [engagementStatement, hfetch] at h
      rcases hwrites with hpc | ⟨hpc, hpermitted⟩
      · rw [hpc] at h
        exact not_asks_switch _ hs ((asks_bind _ _).mp h).1
      · rw [hpc] at h
        have hfire := ((asks_bind _ _).mp h).1
        rw [fire, hfetch, if_neg fun hdenied => hpermitted hdenied.2] at hfire
        exact not_asks_switch _ hs hfire

end Closed

/-! ## The life of the file -/

/-- Where `NetworkInputThread` is. -/
inductive NetworkPhase where
  | created
  | looping
  | ended
  deriving DecidableEq, Repr

/-- What `NetworkInputThread` does when it has left its loop. -/
def networkThreadEnd : Prog Unit := do
  update fun s => { s with isConnected := false }
  update fun s => { s with isCameraOn := false }
  update fun s => { s with isLoggedIn := false }
  detroyAuditObj

/-- The last round of the thread, if nobody interrupts it. -/
theorem post_networkRound_last (P : Platform) (input : Input) (s : Server) :
    Post (networkRound P input) s fun again t =>
      again = false → Ends networkThreadEnd s () t := by
  refine (post_bind _ _ s _).mpr ((post_ask _ s _).mpr fun answer => ?_)
  refine (post_bind _ _ s _).mpr ((post_receive answer.1 answer.2 s).mono ?_)
  rintro received t ⟨rfl, -⟩
  cases received with
  | dispatch buffer script stream =>
      have hagain : Returns (· = true) (do
          dispatch P ⟨buffer, input.beyond, input.now⟩
          pure true : Prog Bool) := Returns.bind fun _ => Returns.pure rfl
      refine (hagain t).mono fun _ _ htrue hfalse => ?_
      cases htrue.symm.trans hfalse
  | oversized script stream => exact (post_pure true t _).mpr nofun
  | stopped headerRead why stream =>
      have hend : Post (do networkThreadEnd; pure false : Prog Bool) t fun again u =>
          again = false → Ends networkThreadEnd t () u := by
        refine (post_bind _ _ t _).mpr fun _ u hu => ?_
        exact (post_pure false u _).mpr fun _ => hu
      exact hend

/-- The server, and where `NetworkInputThread` is. -/
structure Logging where
  server : Server
  network : NetworkPhase

/-- A step of the server, or the beginning or the end of `NetworkInputThread`. -/
inductive LogAct where
  | networkStart
  | act (a : Act)
  | networkEnd

def LogAct.prog (P : Platform) : LogAct → Prog Unit
  | .networkStart => createAuditObj
  | .act a => a.prog P
  | .networkEnd => networkThreadEnd

/-- Messages are handled in the loop of the thread; frames and statements of
    `EngagementThread` come at any time. -/
inductive LogAct.Takes : LogAct → NetworkPhase → NetworkPhase → Prop where
  | networkStart : Takes .networkStart .created .looping
  | message {m : Received} : Takes (.act (.message m)) .looping .looping
  | other {a : Act} {phase : NetworkPhase} (ha : ∀ m, a ≠ .message m) :
      Takes (.act a) phase phase
  | networkEnd : Takes .networkEnd .looping .ended

namespace Logging

/-- A step: its code runs to its end. -/
structure Step (P : Platform) (l : Logging) (a : LogAct) (l' : Logging) : Prop where
  takes : a.Takes l.network l'.network
  ends : Ends (a.prog P) l.server () l'.server

/-- There is no file until `NetworkInputThread` starts. -/
def accepted (c : Config) : Logging := ⟨{ start c with auditFile := .null }, .created⟩

/-- Every line of the step goes to an open file. -/
def LogOpen (P : Platform) (l : Logging) (a : LogAct) : Prop :=
  Asks Call.ToOpenLog (a.prog P) l.server

/-- Nothing is written when the file has been closed. -/
def Quiet (l : Logging) : LogAct → Prop
  | .act a => l.server.auditFile = .closed → ¬ l.server.WritesLog a
  | .networkStart | .networkEnd => True

variable {P : Platform} {l l' : Logging} {a : LogAct}

/-- The file is only closed when `NetworkInputThread` has ended. -/
def FileKept (l : Logging) : Prop := l.network ≠ .ended → l.server.auditFile ≠ .closed

/-- `createAuditObj` leaves an open file, or none. -/
theorem post_createAuditObj (s : Server) :
    Post createAuditObj s fun _ t => t.auditFile ≠ .closed := by
  refine (post_bind _ _ s _).mpr ((post_ask _ s _).mpr fun (opened : Bool) => ?_)
  refine (post_update _ s _).mpr ?_
  cases opened <;> rintro ⟨⟩

theorem Step.fileKept (hst : Step P l a l') (hl : l.FileKept) : l'.FileKept := by
  obtain ⟨s, phase⟩ := l
  obtain ⟨s', phase'⟩ := l'
  obtain ⟨htakes, hends⟩ := hst
  have hact : ∀ a : Act, Ends (a.prog P) s () s' → s'.auditFile = s.auditFile :=
    fun a hend => (logsAt_act P a s).keeps () s' hend
  intro hphase
  cases htakes with
  | networkStart => exact post_createAuditObj s () s' hends
  | @message m =>
      have hfile : s'.auditFile = s.auditFile := hact (.message m) hends
      exact hfile.symm ▸ hl hphase
  | @other a _ _ =>
      have hfile : s'.auditFile = s.auditFile := hact a hends
      exact hfile.symm ▸ hl hphase
  | networkEnd => exact absurd rfl hphase

/-- Out of a state of a run a step writes to open files only exactly if it is quiet. -/
theorem Step.logOpen_iff (hst : Step P l a l') (hl : l.FileKept) :
    l.LogOpen P a ↔ l.Quiet a := by
  obtain ⟨s, phase⟩ := l
  obtain ⟨s', phase'⟩ := l'
  obtain ⟨htakes, -⟩ := hst
  cases htakes with
  | networkStart => exact iff_of_true ⟨trivial, fun _ => trivial⟩ trivial
  | networkEnd =>
      refine iff_of_true ?_ trivial
      change Asks Call.ToOpenLog (if s.auditFile = .null then .exit .crash
        else update fun s => { s with auditFile := .closed } : Prog Unit) _
      split <;> trivial
  | @message m =>
      have hopen : s.auditFile ≠ .closed := hl (by rintro ⟨⟩)
      have hlog : s.LogOpen P (.message m) := logOpen_of_quiet fun _ => hopen
      exact iff_of_true hlog fun hclosed => absurd hclosed hopen
  | other ha =>
      constructor
      · intro hlog hclosed hwrites
        exact not_logOpen hclosed ha hwrites hlog
      · intro hquiet
        exact logOpen_of_quiet fun hwrites hclosed => hquiet hclosed hwrites

end Logging

/-! ## Runs in which every call succeeds -/

/-- Where `NetworkInputThread` is after the step, if the step can be taken. -/
def LogAct.phase : LogAct → NetworkPhase → Option NetworkPhase
  | .networkStart, .created => some .looping
  | .networkStart, _ => none
  | .act (.message _), .looping => some .looping
  | .act (.message _), _ => none
  | .act _, phase => some phase
  | .networkEnd, .looping => some .ended
  | .networkEnd, _ => none

theorem LogAct.takes_of_phase {a : LogAct} {phase phase' : NetworkPhase}
    (h : a.phase phase = some phase') : a.Takes phase phase' := by
  cases a with
  | networkStart =>
      cases phase with
      | created =>
          cases h
          exact .networkStart
      | looping | ended => cases h
  | act a =>
      cases a with
      | message m =>
          cases phase with
          | looping =>
              cases h
              exact .message
          | created | ended => cases h
      | frame | statement | spuriousWakeup =>
          cases h
          exact .other nofun
  | networkEnd =>
      cases phase with
      | looping =>
          cases h
          exact .networkEnd
      | created | ended => cases h

namespace Logging

/-- A step in which every call succeeds at once. -/
def next (P : Platform) (l : Logging) (a : LogAct) : Option Logging :=
  match a.phase l.network, exec smooth (a.prog P) l.server with
  | some phase, .done _ s => some ⟨s, phase⟩
  | _, _ => none

theorem step_of_next {P : Platform} {l l' : Logging} {a : LogAct}
    (h : next P l a = some l') : Step P l a l' := by
  rw [next] at h
  cases hphase : a.phase l.network with
  | none =>
      rw [hphase] at h
      cases h
  | some phase =>
      rw [hphase] at h
      cases hexec : exec smooth (a.prog P) l.server with
      | done u s =>
          rw [hexec] at h
          cases h
          exact ⟨LogAct.takes_of_phase hphase, ends_of_exec hexec⟩
      | exited x s => rw [hexec] at h; cases h
      | blocked => rw [hexec] at h; cases h

/-- The session to the signal for an engagement, on a connection, and what comes after. -/
def session (acts : List LogAct) : List LogAct :=
  .networkStart :: Session.engage.map .act ++ acts

theorem reaches (acts : List LogAct) (Q : List (Logging × LogAct) → Logging → Bool)
    (h : (follow (next Session.platform) (accepted Session.config) (session acts).reverse).any
      (fun r => Q r.1 r.2) = true) :
    ∃ h l, Run (Step Session.platform) (accepted Session.config) h l ∧ Q h l = true :=
  exists_history_of_follow (fun _ _ _ => step_of_next) (session acts).reverse Q h

instance (l : Logging) (a : LogAct) : Decidable (l.Quiet a) :=
  match a with
  | .act a => inferInstanceAs (Decidable (_ = _ → ¬ l.server.WritesLog a))
  | .networkStart => isTrue trivial
  | .networkEnd => isTrue trivial

end Logging

/-- **The audit log is not written after it was closed**, in any run, if and only if no
    step that writes to it is taken after that: no laser or permitted shot of
    `EngagementThread`, and no frame in which a target is skipped. -/
theorem auditLog_open_iff (P : Platform) (c : Config) {h : List (Logging × LogAct)}
    {l : Logging} (hr : Run (Logging.Step P) (Logging.accepted c) h l) :
    EveryStep (fun _ l a _ => l.LogOpen P a) h l ↔ EveryStep (fun _ l a _ => l.Quiet a) h l :=
  Run.everyStep_iff (fun _ l => l.FileKept) (by rintro - ⟨⟩)
    (fun _ _ _ _ hl hst _ => hst.fileKept hl) (fun _ _ _ _ hl hst => hst.logOpen_iff hl) hr

/-- The connection ends between the shot and its end, of which nothing is logged. -/
theorem auditLog_open_after_shot :
    ∃ h l, Run (Logging.Step Session.platform) (Logging.accepted Session.config) h l
      ∧ (l.server.auditFile = .closed ∧ l.server.engagement = .fireFalse)
      ∧ EveryStep (fun _ l a _ => l.LogOpen Session.platform a) h l := by
  obtain ⟨h, l, hr, hl⟩ := Logging.reaches
    [.act .statement, .act .statement, .act .statement, .networkEnd, .act .statement]
    (fun h l => (l.server.auditFile = .closed ∧ l.server.engagement = .fireFalse)
      ∧ EveryStep (fun _ l a _ => l.Quiet a) h l) (by decide +kernel)
  obtain ⟨hlast, hquiet⟩ := of_decide_eq_true hl
  exact ⟨h, l, hr, hlast, (auditLog_open_iff Session.platform Session.config hr).mpr hquiet⟩

/-- The connection ends when the engagement has been signalled: the laser is logged to
    the closed file. -/
theorem closed_log_written :
    ∃ h l, Run (Logging.Step Session.platform) (Logging.accepted Session.config) h l
      ∧ ¬ EveryStep (fun _ l a _ => l.LogOpen Session.platform a) h l := by
  obtain ⟨h, l, hr, hl⟩ := Logging.reaches [.networkEnd]
    (fun _ l => (l.server.auditFile = .closed ∧ l.server.engagement = .laserTrue)
      ∧ (Logging.next Session.platform l (.act .statement)).isSome) (by decide +kernel)
  obtain ⟨⟨hclosed, hlaser⟩, hnext⟩ := of_decide_eq_true hl
  obtain ⟨l', hl'⟩ := Option.isSome_iff_exists.mp hnext
  refine ⟨_, l', .snoc hr (Logging.step_of_next hl'), fun hopen => ?_⟩
  have hwrites : l.server.WritesLog .statement := Or.inl hlaser
  have hlog : l.server.LogOpen Session.platform .statement := hopen.1
  exact not_logOpen hclosed (fun _ => Act.noConfusion) hwrites hlog

end DemoCannon
