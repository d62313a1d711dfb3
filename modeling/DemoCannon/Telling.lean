import DemoCannon.Answers
import DemoCannon.Lib.Mirror
import DemoCannon.Lib.Transcript
import DemoCannon.Signals

/-! # What a step tells the operator

    A step of the server is cut into the frames that it puts on the connection, one for
    each time that `TCP_Mutex` is locked.  Where every call succeeds, a step that changes
    `SystemState` ends with telling the operator of it, but for `EngagementThread`, which
    does so some statements later; and a change of the base state is told in the step
    itself (`step_tells`). -/

namespace DemoCannon

open Interaction Interaction.Program SystemState

/-! ## Frames -/

/-- A call in front of what is already cut. -/
def cutAt (e : Answered Call Call.Answer) (rest : Bytes × List Bytes) : Bytes × List Bytes :=
  match e.1 with
  | .lock .tcp => ([], rest.1 :: rest.2)
  | .sslWrite data => (data ++ rest.1, rest.2)
  | _ => rest

/-- What is written before `TCP_Mutex` is locked, and what each time that it is. -/
def cut (calls : List (Answered Call Call.Answer)) : Bytes × List Bytes :=
  calls.foldr cutAt ([], [])

/-- The frames of an execution. -/
def frames (calls : List (Answered Call Call.Answer)) : List Bytes :=
  (cut calls).2.filter (· ≠ [])

theorem cut_append {calls rest : List (Answered Call Call.Answer)} {fs : List Bytes}
    (h : cut rest = ([], fs)) : cut (calls ++ rest) = ((cut calls).1, (cut calls).2 ++ fs) := by
  induction calls with
  | nil => exact h
  | cons e calls ih =>
      change cutAt e (cut (calls ++ rest)) = _
      change _ = ((cutAt e (cut calls)).1, (cutAt e (cut calls)).2 ++ fs)
      rw [ih]
      obtain ⟨c, r⟩ := e
      cases c with
      | lock m => cases m <;> rfl
      | unlock | sslWrite | sslRead | auditLine | condSignal | pthreadCreate | fopenIni
      | fopenLog | never => rfl

/-- The state that a frame posts to the window of the client. -/
def posts (f : Bytes) : Option SystemState :=
  if ntohl (f.drop 4) = mtState then some (ntohl (f.drop sizeofHeader)) else none

theorem type_wordMessage (type word : BitVec 32) :
    ntohl ((wordMessage type word).drop 4) = type := ntohl_htonl type (htonl word)

@[simp] theorem posts_state (state : SystemState) :
    posts (wordMessage mtState state) = some state := by
  rw [posts, type_wordMessage, if_pos rfl]
  exact congrArg some (ntohl_htonl state [])

theorem posts_other {type : BitVec 32} (htype : type ≠ mtState) (word : BitVec 32) :
    posts (wordMessage type word) = none := by
  rw [posts, type_wordMessage, if_neg htype]

theorem posts_header {type : BitVec 32} (htype : type ≠ mtState) (n : Nat) (data : Bytes) :
    posts (header n type ++ data) = none := by
  have hread : ntohl ((header n type ++ data).drop 4) = type := ntohl_htonl type data
  rw [posts, hread, if_neg htype]

/-! ## Programs and what they tell

    `TellsAt Q p s`: wherever `p` ends from `s`, every call having succeeded, `Q` holds
    of the state before, the states told and the state after. -/

/-- What is asked of a program from a state. -/
def TellsAt {α : Type} (Q : Server → List SystemState → Server → Prop) (p : Prog α)
    (s : Server) : Prop :=
  Calls Serves p s fun calls _ t => ∃ fs, cut calls = ([], fs) ∧ Q s (fs.filterMap posts) t

/-- No state is told. -/
def Untold (_ : Server) (ws : List SystemState) (_ : Server) : Prop := ws = []

/-- No state is told, and none is changed. -/
def Silent (s : Server) (ws : List SystemState) (t : Server) : Prop :=
  ws = [] ∧ t.systemState = s.systemState

/-- The state is told as it is left. -/
def Announced (_ : Server) (ws : List SystemState) (t : Server) : Prop :=
  ws = [t.systemState]

/-- One of the two. -/
def Told (s : Server) (ws : List SystemState) (t : Server) : Prop :=
  Announced s ws t ∨ Silent s ws t

section Rules

variable {α β : Type} {Q Q' Q'' : Server → List SystemState → Server → Prop} {s : Server}

theorem TellsAt.mono {p : Prog α} (h : TellsAt Q p s)
    (hQ : ∀ ws t, Q s ws t → Q' s ws t) : TellsAt Q' p s :=
  Calls.mono h fun _ _ _ ⟨fs, hcut, hQs⟩ => ⟨fs, hcut, hQ _ _ hQs⟩

theorem TellsAt.bind {p : Prog α} {q : α → Prog β} (hp : TellsAt Q p s)
    (hq : ∀ a t ws, Q s ws t → TellsAt Q' (q a) t)
    (hQ : ∀ ws t ws' u, Q s ws t → Q' t ws' u → Q'' s (ws ++ ws') u) :
    TellsAt Q'' (p >>= q) s := by
  refine calls_bind (Calls.mono hp ?_)
  rintro calls a t ⟨fs, hcut, hQs⟩
  refine Calls.mono (hq a t _ hQs) ?_
  rintro calls' b u ⟨fs', hcut', hQt⟩
  refine ⟨fs ++ fs', ?_, ?_⟩
  · rw [cut_append hcut', hcut]
  · rw [List.filterMap_append]
    exact hQ _ _ _ _ hQs hQt

theorem TellsAt.pure {a : α} (h : Q s [] s) : TellsAt Q (Pure.pure a) s :=
  (calls_pure a _).mpr ⟨[], rfl, h⟩

theorem TellsAt.exit (x : Halt) : TellsAt Q (.exit x : Prog α) s := calls_exit x _

theorem TellsAt.never : TellsAt Q (never : Prog α) s := by
  rintro calls a t ⟨r, -⟩
  exact Empty.elim r

theorem TellsAt.fetch {k : Server → Prog α} (h : TellsAt Q (k s) s) :
    TellsAt Q (Program.fetch >>= k) s := h

theorem TellsAt.ite {c : Prop} [Decidable c] {p q : Prog α} (hp : c → TellsAt Q p s)
    (hq : ¬ c → TellsAt Q q s) : TellsAt Q (if c then p else q) s := by
  by_cases h : c
  · rw [if_pos h]; exact hp h
  · rw [if_neg h]; exact hq h

/-- A call that neither locks `TCP_Mutex` nor writes. -/
theorem TellsAt.call {c : Call} (hc : ∀ r, cutAt ⟨c, r⟩ ([], []) = ([], [])) (h : Q s [] s) :
    TellsAt Q (call c) s := (calls_ask c _).mpr fun r _ => ⟨[], hc r, h⟩

theorem TellsAt.update {f : Server → Server} (h : Q s [] (f s)) :
    TellsAt Q (Program.update f : Prog Unit) s := by
  rintro calls a t ⟨rfl, -, rfl⟩
  exact ⟨[], rfl, h⟩

/-- Programs in sequence, of which the first tells nothing and leaves the state word. -/
theorem TellsAt.afterSilent {p : Prog α} {q : α → Prog β} (hp : TellsAt Silent p s)
    (hq : ∀ a t, t.systemState = s.systemState → TellsAt Told (q a) t) :
    TellsAt Told (p >>= q) s := by
  refine hp.bind (fun a t _ h => hq a t h.2) ?_
  rintro ws t ws' u ⟨rfl, hst⟩ (htold | ⟨rfl, htu⟩)
  · exact Or.inl htold
  · exact Or.inr ⟨rfl, htu.trans hst⟩

theorem TellsAt.silent_bind {p : Prog α} {q : α → Prog β} (hp : TellsAt Silent p s)
    (hq : ∀ a t, TellsAt Silent (q a) t) : TellsAt Silent (p >>= q) s := by
  refine hp.bind (fun a t _ _ => hq a t) ?_
  rintro ws t ws' u ⟨rfl, hst⟩ ⟨rfl, htu⟩
  exact ⟨rfl, htu.trans hst⟩

theorem TellsAt.untold_bind {p : Prog α} {q : α → Prog β} (hp : TellsAt Untold p s)
    (hq : ∀ a t, TellsAt Untold (q a) t) : TellsAt Untold (p >>= q) s := by
  refine hp.bind (fun a t _ _ => hq a t) ?_
  rintro ws t ws' u rfl rfl
  rfl

/-- What has been untold is told in the end. -/
theorem TellsAt.announced_bind {p : Prog α} {q : α → Prog β} (hp : TellsAt Untold p s)
    (hq : ∀ a t, TellsAt Announced (q a) t) : TellsAt Announced (p >>= q) s := by
  refine hp.bind (fun a t _ _ => hq a t) ?_
  rintro ws t ws' u rfl h
  exact h

/-- What is told stays true. -/
theorem TellsAt.thenSilent {p : Prog α} {q : α → Prog β} (hp : TellsAt Announced p s)
    (hq : ∀ a t, TellsAt Silent (q a) t) : TellsAt Announced (p >>= q) s := by
  refine hp.bind (fun a t _ _ => hq a t) ?_
  rintro ws t ws' u rfl ⟨rfl, htu⟩
  change [t.systemState] ++ [] = [u.systemState]
  rw [htu]
  rfl

theorem TellsAt.untold {p : Prog α} (h : TellsAt Silent p s) : TellsAt Untold p s :=
  h.mono fun _ _ => And.left

theorem TellsAt.told {p : Prog α} (h : TellsAt Announced p s) : TellsAt Told p s :=
  h.mono fun _ _ => Or.inl

theorem TellsAt.silentTold {p : Prog α} (h : TellsAt Silent p s) : TellsAt Told p s :=
  h.mono fun _ _ => Or.inr

/-- A write to something else than the state word. -/
theorem silent_update {f : Server → Server} (s : Server)
    (hf : (f s).systemState = s.systemState) : TellsAt Silent (Program.update f : Prog Unit) s :=
  .update ⟨rfl, hf⟩

/-- A write that is told later. -/
theorem untold_update (f : Server → Server) (s : Server) :
    TellsAt Untold (Program.update f : Prog Unit) s := .update rfl

end Rules

/-! ## The blocks -/

theorem silent_auditlog (msg : String) (s : Server) : TellsAt Silent (auditlog msg) s :=
  .fetch (.ite (fun _ => .call (fun _ => rfl) ⟨rfl, rfl⟩) fun _ => .pure ⟨rfl, rfl⟩)

theorem silent_lock {m : Mutex} (hm : m ≠ .tcp) (s : Server) : TellsAt Silent (lock m) s := by
  refine .call (fun _ => ?_) ⟨rfl, rfl⟩
  cases m with
  | tcp => exact absurd rfl hm
  | gpio | i2c | engmnt => rfl

theorem silent_unlock (m : Mutex) (s : Server) : TellsAt Silent (unlock m) s :=
  .call (fun _ => rfl) ⟨rfl, rfl⟩

/-- A write that succeeds, and what comes after it. -/
theorem calls_writeDataTcp {β : Type} {data : Bytes} {q : Int → Prog β} {s : Server}
    {Q : List (Answered Call Call.Answer) → β → Server → Prop}
    (h : ∀ script : List SslRet, Calls Serves (q data.length) s fun rest =>
      Q (⟨.sslWrite data, script⟩ :: rest)) :
    Calls Serves (Thread.writeDataTcp data >>= q) s Q := by
  rintro calls b t ⟨script, rest, hscript, rfl, hrest⟩
  have hend : DemoCannon.writeDataTcp data.length script 0 = .returned data.length := hscript
  refine h script rest b t ?_
  change Performs Serves ((DemoCannon.writeDataTcp data.length script 0).leave >>= q) s rest b t
    at hrest
  rw [hend] at hrest
  exact hrest

/-- The call is no part of a frame. -/
def Call.Aside : Call → Prop
  | .lock m => m ≠ .tcp
  | .sslWrite _ => False
  | _ => True

theorem foldr_cutAt {calls : List (Answered Call Call.Answer)} (h : ∀ e ∈ calls, e.1.Aside)
    (rest : Bytes × List Bytes) : calls.foldr cutAt rest = rest := by
  induction calls with
  | nil => rfl
  | cons e calls ih =>
      rw [List.foldr_cons, ih fun e' he => h e' (List.mem_cons_of_mem e he)]
      have he := h e (List.mem_cons_self ..)
      obtain ⟨c, r⟩ := e
      cases c with
      | lock m =>
          cases m with
          | tcp => exact absurd rfl he
          | gpio | i2c | engmnt => rfl
      | sslWrite data => exact he.elim
      | unlock | sslRead | auditLine | condSignal | pthreadCreate | fopenIni | fopenLog
      | never => rfl

theorem asks_oledUpdateStatus (s : Server) : Asks Call.Aside oledUpdateStatus s := by
  change Asks Call.Aside (if s.haveOled then _ else _) s
  by_cases holed : s.haveOled = true
  · rw [if_pos holed]
    exact ⟨by rintro ⟨⟩, fun _ => ⟨trivial, fun _ => trivial⟩⟩
  · rw [if_neg holed]
    trivial

/-- A message under the mutex, with something done before. -/
theorem calls_section {p : Prog Unit} {data : Bytes} {s : Server}
    (hp : Asks Call.Aside p s) (hword : Post p s fun _ t => t.systemState = s.systemState) :
    Calls Serves (do
      lock .tcp
      p
      let retval ← Thread.writeDataTcp data
      unlock .tcp
      pure retval : Prog Int) s
        fun calls _ t => cut calls = ([], [data]) ∧ t.systemState = s.systemState := by
  refine calls_bind ((calls_ask _ _).mpr fun _ _ => ?_)
  refine calls_bind (((Calls.of_asks hp).and (Calls.of_post hword)).mono ?_)
  rintro calls _ t ⟨haside, ht⟩
  refine calls_writeDataTcp fun script => ?_
  refine calls_bind ((calls_ask _ _).mpr fun _ _ => (calls_pure _ _).mpr ⟨?_, ht⟩)
  rw [cut, List.singleton_append, List.foldr_cons, List.foldr_append, foldr_cutAt haside]
  change ([], [data ++ []]) = _
  rw [List.append_nil]

/-- A word that is no state. -/
theorem silent_sendWord {type : BitVec 32} (htype : type ≠ mtState) (word : BitVec 32)
    (s : Server) : TellsAt Silent (do
      lock .tcp
      let retval ← Thread.writeDataTcp (wordMessage type word)
      unlock .tcp
      pure retval : Prog Int) s := by
  have hnothing : Post (pure () : Prog Unit) s fun _ t => t.systemState = s.systemState := by
    rintro _ _ ⟨-, rfl⟩
    rfl
  have hquiet : Asks Call.Aside (pure () : Prog Unit) s := trivial
  refine Calls.mono (calls_section hquiet hnothing) ?_
  rintro calls _ t ⟨hcut, ht⟩
  refine ⟨[wordMessage type word], hcut, ?_, ht⟩
  rw [List.filterMap_cons, posts_other htype, List.filterMap_nil]

theorem announced_sendCurrentState (s : Server) : TellsAt Announced sendCurrentState s := by
  have hword : Keeps Server.systemState oledUpdateStatus := keeps_oledUpdateStatus fun _ _ => rfl
  refine TellsAt.fetch (calls_bind (Calls.mono
    (calls_section (asks_oledUpdateStatus s) (hword s)) ?_))
  rintro calls _ t ⟨hcut, ht⟩
  refine (calls_pure () _).mpr ⟨[wordMessage mtState s.systemState], ?_, ?_⟩
  · rw [List.append_nil, hcut]
  · rw [List.filterMap_cons, posts_state, List.filterMap_nil, ← ht]
    rfl

theorem silent_say (text : String) (s : Server) : TellsAt Silent (say text) s := by
  have hprintf : Calls Serves (printfSend text) s fun calls _ t =>
      ∃ fs, cut calls = ([], fs) ∧ Silent s (fs.filterMap posts) t := by
    refine calls_bind ((calls_ask _ _).mpr fun _ _ => ?_)
    by_cases htext : 0 < text.toUTF8.size
    · simp only [if_pos htext]
      refine calls_writeDataTcp fun script => ?_
      have hheader : ((header (text.toUTF8.size + 1) mtText).length : Int) = sizeofHeader := rfl
      rw [if_neg (not_not_intro hheader)]
      refine calls_writeDataTcp fun script' => ?_
      have hdata : ((text.toUTF8.data.toList ++ [0]).length : Int) = text.toUTF8.size + 1 := by
        rw [List.length_append, Array.length_toList]
        rfl
      rw [if_neg (not_not_intro hdata)]
      refine calls_bind ((calls_ask _ _).mpr fun _ _ => (calls_pure _ _).mpr ?_)
      refine ⟨[header (text.toUTF8.size + 1) mtText ++ (text.toUTF8.data.toList ++ [0] ++ [])],
        rfl, ?_, rfl⟩
      rw [List.filterMap_cons, posts_header (by decide), List.filterMap_nil]
    · simp only [if_neg htext]
      refine calls_bind ((calls_ask _ _).mpr fun _ _ => (calls_pure _ _).mpr ?_)
      exact ⟨[[]], rfl, rfl, rfl⟩
  exact TellsAt.silent_bind hprintf fun _ _ => .pure ⟨rfl, rfl⟩

/-! ## Outputs and servos -/

theorem systemState_setAngle (s : Server) (angle : Rat) (num : ServoNum) :
    (s.setAngle angle num).systemState = s.systemState := by cases num <;> rfl

theorem systemState_command (s : Server) (num : ServoNum) :
    (s.command num).systemState = s.systemState := by cases num <;> rfl

theorem silent_servoAngle (num : ServoNum) (s : Server) : TellsAt Silent (servoAngle num) s := by
  have hcommand : ∀ t, TellsAt Silent (do
      update fun s => s.command num
      unlock .i2c : Prog Unit) t := fun t =>
    (silent_update t (systemState_command t num)).silent_bind fun _ u => silent_unlock .i2c u
  have hclamp : ∀ (angle : Rat) (text : String) (t : Server), TellsAt Silent (do
      update fun s => s.setAngle angle num
      say text
      update fun s => s.command num
      unlock .i2c : Prog Unit) t := fun angle text t =>
    (silent_update t (systemState_setAngle t angle num)).silent_bind fun _ u =>
      (silent_say text u).silent_bind fun _ v => hcommand v
  refine (silent_lock (by decide) s).silent_bind fun _ t => .fetch ?_
  exact .ite (fun _ => hclamp _ _ t) fun _ => .ite (fun _ => hclamp _ _ t) fun _ => hcommand t

theorem silent_step (num : ServoNum) (delta : Rat) (s : Server) :
    TellsAt Silent (step num delta) s :=
  (silent_update s (systemState_setAngle s _ num)).silent_bind fun _ t => silent_servoAngle num t

/-- A flag that is set or cleared under the lock. -/
theorem untold_flag (f h : Server → Server) (value : Bool) (s : Server) : TellsAt Untold (do
    lock .gpio
    if value then update f else update h
    unlock .gpio : Prog Unit) s := by
  refine (silent_lock (by decide) s).untold.untold_bind fun _ t => .ite (fun _ => ?_) fun _ => ?_
  · exact (untold_update f t).untold_bind fun _ u => (silent_unlock .gpio u).untold
  · exact (untold_update h t).untold_bind fun _ u => (silent_unlock .gpio u).untold

theorem untold_armed (value : Bool) (s : Server) : TellsAt Untold (armed value) s :=
  untold_flag _ _ value s

theorem untold_calibrate (value : Bool) (s : Server) : TellsAt Untold (calibrate value) s :=
  untold_flag _ _ value s

/-- A pin with its flag. -/
theorem untold_pin (msg : String) (on off pin : Server → Server) (value : Bool) (s : Server) :
    TellsAt Untold (do
      lock .gpio
      if value then
        auditlog msg
        update on
      else update off
      update pin
      unlock .gpio : Prog Unit) s := by
  have hpin : ∀ t, TellsAt Untold (do
      update pin
      unlock .gpio : Prog Unit) t := fun t =>
    (untold_update pin t).untold_bind fun _ u => (silent_unlock .gpio u).untold
  refine (silent_lock (by decide) s).untold.untold_bind fun _ t => .ite (fun _ => ?_) fun _ => ?_
  · exact (silent_auditlog msg t).untold.untold_bind fun _ u =>
      (untold_update on u).untold_bind fun _ v => hpin v
  · exact (untold_update off t).untold_bind fun _ u => hpin u

theorem untold_laser (value : Bool) (s : Server) : TellsAt Untold (laser value) s :=
  untold_pin _ _ _ _ value s

/-- Firing is denied with a telling, and else not told. -/
theorem untold_fire {value : Bool} {s : Server}
    (h : ¬ (value = true ∧ firingDenied s.systemState)) : TellsAt Untold (fire value) s :=
  .fetch (.ite (fun hdenied => absurd hdenied h) fun _ => untold_pin _ _ _ _ value s)

theorem untold_fire_false (s : Server) : TellsAt Untold (fire false) s :=
  untold_fire fun h => absurd h.1 (by decide)

theorem announced_fire_denied {s : Server} (h : firingDenied s.systemState) :
    TellsAt Announced (fire true) s :=
  .fetch (.ite (fun _ => (silent_say _ s).untold.announced_bind fun _ t =>
      (untold_update _ t).announced_bind fun _ u => announced_sendCurrentState u)
    fun hno => absurd ⟨rfl, h⟩ hno)

/-! ## Messages -/

/-- Everything off, and then something else. -/
theorem untold_offThen {q : Prog Unit} (hq : ∀ t, TellsAt Untold q t) (s : Server) :
    TellsAt Untold (do
      laser false
      calibrate false
      fire false
      q) s :=
  (untold_laser false s).untold_bind fun _ t => (untold_calibrate false t).untold_bind
    fun _ u => (untold_fire_false u).untold_bind fun _ v => hq v

theorem untold_requestSafe (state : SystemState) (s : Server) :
    TellsAt Untold (requestSafe state) s :=
  untold_offThen (fun t => (untold_update _ t).untold_bind fun _ u => untold_update _ u) s

theorem untold_requestPrearmed (state : SystemState) (s : Server) :
    TellsAt Untold (requestPrearmed state) s := by
  refine .fetch (.ite (fun _ => ?_) fun _ => .pure rfl)
  refine (untold_laser false s).untold_bind fun _ t => (untold_fire_false t).untold_bind
    fun _ u => (untold_calibrate false u).untold_bind fun _ v => .fetch (.ite (fun _ => ?_) ?_)
  · exact (untold_update _ v).untold_bind fun _ w => untold_update _ w
  · exact fun _ => untold_update _ v

theorem untold_requestEngageAuto (state : SystemState) (s : Server) :
    TellsAt Untold (requestEngageAuto state) s := by
  refine .fetch (.ite (fun _ => (silent_say _ s).untold) fun _ => .ite (fun _ => ?_) fun _ => ?_)
  · exact (silent_say _ s).untold
  · exact untold_offThen (fun t => (untold_update _ t).untold_bind fun _ u => untold_update _ u) s

theorem untold_requestArmedManual (state : SystemState) (s : Server) :
    TellsAt Untold (requestArmedManual state) s := by
  refine .fetch (.ite (fun _ => (silent_say _ s).untold) fun _ => .ite (fun _ => ?_) fun _ => ?_)
  · exact untold_offThen (fun t => untold_update _ t) s
  · exact untold_update _ s

theorem untold_writeOffsets (s : Server) : TellsAt Untold writeOffsets s := by
  have hopened : TellsAt Silent (DemoCannon.call .fopenIni) s := .call (fun _ => rfl) ⟨rfl, rfl⟩
  exact hopened.untold.untold_bind fun (_ : IniWrite) t => untold_update _ t

theorem announced_applyFlags (s : Server) : TellsAt Announced applyFlags s := by
  refine .fetch ((untold_laser _ s).announced_bind fun _ t => .fetch (.ite (fun _ => ?_) ?_))
  · exact (untold_calibrate true t).announced_bind fun _ u =>
      (untold_update _ u).announced_bind fun _ v => announced_sendCurrentState v
  · intro _
    refine (untold_calibrate false t).announced_bind fun _ u => .fetch (.ite (fun _ => ?_) ?_)
    · exact (untold_update _ u).announced_bind fun _ v =>
        (untold_writeOffsets v).announced_bind fun _ w => announced_sendCurrentState w
    · exact fun _ => announced_sendCurrentState u

/-- **Every request is answered with the state.** -/
theorem announced_processStateChangeRequest (state : SystemState) (s : Server) :
    TellsAt Announced (processStateChangeRequest state) s := by
  have hflags : ∀ (_ : Unit) (t : Server), TellsAt Announced applyFlags t :=
    fun _ => announced_applyFlags
  refine .ite (fun _ => ?_) fun _ => .ite (fun _ => ?_) fun _ => .ite (fun _ => ?_) fun _ =>
    .ite (fun _ => ?_) fun _ => hflags () s
  · exact (untold_requestSafe state s).announced_bind hflags
  · exact (untold_requestPrearmed state s).announced_bind hflags
  · exact (untold_requestEngageAuto state s).announced_bind hflags
  · exact (untold_requestArmedManual state s).announced_bind hflags

theorem told_processPreArm (code : Bytes) (s : Server) : TellsAt Told (processPreArm code) s := by
  have hnone : TellsAt Told (pure () : Prog Unit) s := .pure (Or.inr ⟨rfl, rfl⟩)
  refine .fetch (.ite (fun _ => .ite (fun _ => .ite (fun _ => ?_) fun _ => hnone) fun _ => ?_)
    fun _ => hnone)
  · exact ((untold_update _ s).announced_bind fun _ t => announced_sendCurrentState t).told
  · exact (silent_say _ s).silentTold

theorem silent_processFiringOrder (firingOrder : Bytes) (s : Server) :
    TellsAt Silent (processFiringOrder firingOrder) s := by
  refine (silent_update s rfl).silent_bind fun _ t => ?_
  refine .ite (fun _ => .pure ⟨rfl, rfl⟩) fun _ => .fetch ?_
  refine (silent_update t rfl).silent_bind fun _ u => ?_
  refine .ite (fun _ => .pure ⟨rfl, rfl⟩) fun _ => .ite (fun _ => ?_) fun _ => ?_
  · exact (silent_update u rfl).silent_bind fun _ v => silent_update v rfl
  · exact (silent_update u rfl).silent_bind fun _ v => silent_say _ v

theorem silent_runCmd (on off : UInt8) (s : Server) : TellsAt Silent (runCmd on off) s :=
  silent_update s rfl

theorem told_processCommands (cmd : UInt8) (s : Server) :
    TellsAt Told (processCommands cmd) s := by
  have hnone : TellsAt Told (pure () : Prog Unit) s := .pure (Or.inr ⟨rfl, rfl⟩)
  have hmove : ∀ on off num delta, TellsAt Told (do
      runCmd on off
      step num delta) s := fun on off num delta =>
    ((silent_runCmd on off s).silent_bind fun _ t => silent_step num delta t).silentTold
  have hfire : ∀ on off value, ¬ (value = true ∧ firingDenied s.systemState) →
      TellsAt Told (do
        runCmd on off
        fire value
        sendCurrentState) s := by
    intro on off value hpermitted
    refine (silent_runCmd on off s).afterSilent fun _ t ht => ?_
    rw [← ht] at hpermitted
    exact ((untold_fire hpermitted).announced_bind fun _ u => announced_sendCurrentState u).told
  refine .fetch (.ite (fun _ => hnone) fun _ => .ite (fun _ => hnone) fun hmanual => ?_)
  refine .ite (fun _ => hmove _ _ _ _) fun _ => .ite (fun _ => hmove _ _ _ _) fun _ =>
    .ite (fun _ => hmove _ _ _ _) fun _ => .ite (fun _ => hmove _ _ _ _) fun _ =>
    .ite (fun hcmd => hfire _ _ true ?_) fun _ => ?_
  · -- a shot is ordered in `ARMED_MANUAL` only
    rintro ⟨-, hdenied⟩
    have hbase : base s.systemState = armedManual :=
      Decidable.byContradiction fun h => hmanual ⟨Or.inl hcmd, h⟩
    rw [firingDenied, hbase] at hdenied
    exact absurd hdenied (by decide)
  · refine .ite (fun _ => (silent_runCmd _ _ s).silentTold) fun _ =>
      .ite (fun _ => (silent_runCmd _ _ s).silentTold) fun _ =>
      .ite (fun _ => (silent_runCmd _ _ s).silentTold) fun _ =>
      .ite (fun _ => (silent_runCmd _ _ s).silentTold) fun _ =>
      .ite (fun _ => hfire _ _ false fun h => absurd h.1 (by decide)) fun _ => hnone

theorem silent_processCalibCommands (cmd : UInt8) (s : Server) :
    TellsAt Silent (processCalibCommands cmd) s := by
  have hnone : TellsAt Silent (pure () : Prog Unit) s := .pure ⟨rfl, rfl⟩
  exact .fetch (.ite (fun _ => hnone) fun _ => .ite (fun _ => silent_update s rfl) fun _ =>
    .ite (fun _ => silent_update s rfl) fun _ => .ite (fun _ => silent_update s rfl) fun _ =>
    .ite (fun _ => silent_update s rfl) fun _ => hnone)

theorem silent_processCamStateChangeRequest (state : BitVec 32) (s : Server) :
    TellsAt Silent (processCamStateChangeRequest state) s := by
  have hsend : ∀ word t, TellsAt Silent (do
      let _ ← sendCamState word
      pure () : Prog Unit) t := fun word t =>
    (silent_sendWord (by decide) word t).silent_bind fun _ _ => .pure ⟨rfl, rfl⟩
  refine .ite (fun _ => ?_) fun _ => .ite (fun _ => ?_) fun _ => .pure ⟨rfl, rfl⟩
  · exact (silent_update s rfl).silent_bind fun _ t => hsend camOn t
  · exact (silent_update s rfl).silent_bind fun _ t => hsend camOff t

/-- What is told of a message behind a login. -/
theorem told_switchType (m : Received) (s : Server) : TellsAt Told (switchType m) s := by
  have hcase : ∀ {name : String} {p : Prog Unit}, (∀ t, TellsAt Told p t) →
      TellsAt Told (do auditlog name; p) s :=
    fun hp => (silent_auditlog _ s).afterSilent fun _ t _ => hp t
  refine .ite (fun _ => hcase fun t => ?_) fun _ => .ite (fun _ => hcase fun t => ?_) fun _ =>
    .ite (fun _ => hcase fun t => ?_) fun _ => .ite (fun _ => hcase fun t => ?_) fun _ =>
    .ite (fun _ => hcase fun t => ?_) fun _ => .ite (fun _ => hcase fun t => ?_) fun _ => ?_
  · exact (silent_processCamStateChangeRequest _ t).silentTold
  · exact told_processCommands _ t
  · exact (silent_processCalibCommands _ t).silentTold
  · exact (silent_processFiringOrder _ t).silentTold
  · exact told_processPreArm _ t
  · exact (announced_processStateChangeRequest _ t).told
  · exact (silent_auditlog _ s).silentTold

theorem announced_switchType {m : Received} (hm : m.buffer.type = mtStateChangeReq) (s : Server) :
    TellsAt Announced (switchType m) s := by
  rw [switchType, hm]
  exact (silent_auditlog _ s).untold.announced_bind fun _ t =>
    announced_processStateChangeRequest _ t

/-! ## Frames of the camera -/

theorem silent_countStable (s : Server) : TellsAt Silent countStable s :=
  .fetch ((silent_update s rfl).silent_bind fun _ _ => .pure ⟨rfl, rfl⟩)

theorem silent_aimTilt (f : Frame) (d : TDetectedMatches) (s : Server) :
    TellsAt Silent (aimTilt f d) s := by
  refine .fetch ((silent_update s rfl).silent_bind fun _ t => .fetch (.ite (fun _ => ?_) ?_))
  · exact (silent_servoAngle _ t).silent_bind fun _ u => silent_countStable u
  · exact fun _ => (silent_say _ t).silent_bind fun _ _ => .pure ⟨rfl, rfl⟩

theorem silent_aimAt (f : Frame) (d : TDetectedMatches) (s : Server) :
    TellsAt Silent (aimAt f d) s := by
  refine .fetch ((silent_update s rfl).silent_bind fun _ t => .fetch (.ite (fun _ => ?_) ?_))
  · exact (silent_servoAngle _ t).silent_bind fun _ u => silent_aimTilt f d u
  · exact fun _ => (silent_say _ t).silent_bind fun _ _ => .pure ⟨rfl, rfl⟩

theorem silent_lookOn (f : Frame) (s : Server) : TellsAt Silent (lookOn f) s := by
  refine .fetch (.ite (fun _ => ?_) fun _ => .ite (fun _ => ?_) fun _ => .pure ⟨rfl, rfl⟩)
  · exact (silent_update s rfl).silent_bind fun _ _ => .pure ⟨rfl, rfl⟩
  · exact .pure ⟨rfl, rfl⟩

theorem silent_tryToMatch (f : Frame) (s : Server) : TellsAt Silent (tryToMatch f) s := by
  have hend : ∀ (state : TEngagementState) (t : Server), TellsAt Silent (do
      if state ≠ .lookingForTarget then update fun s => { s with trying := false } else pure ()
      pure state : Prog TEngagementState) t := fun state t =>
    .ite (fun _ => (silent_update t rfl).silent_bind fun _ _ => .pure ⟨rfl, rfl⟩)
      fun _ => .pure ⟨rfl, rfl⟩
  refine .fetch ?_
  cases f.detectedMatches.find? _ with
  | some d => exact (silent_aimAt f d s).silent_bind hend
  | none => exact (silent_lookOn f s).silent_bind hend

theorem told_enterState (state : TEngagementState) (s : Server) :
    TellsAt Told (enterState state) s := by
  refine .fetch ?_
  cases state with
  | lookingForTarget =>
      exact ((untold_armed false s).announced_bind fun _ t =>
        (announced_sendCurrentState t).thenSilent fun _ u => silent_say _ u).told
  | tracking =>
      exact ((untold_armed true s).announced_bind fun _ t =>
        (announced_sendCurrentState t).thenSilent fun _ u => silent_say _ u).told
  | trackingStable =>
      refine ((silent_say _ s).silent_bind fun _ t => (silent_update t rfl).silent_bind
        fun _ u => ?_).silentTold
      have hsignal : TellsAt Silent (DemoCannon.call .condSignal) u :=
        .call (fun _ => rfl) ⟨rfl, rfl⟩
      refine hsignal.silent_bind fun (_ : Int) v => .ite (fun _ => .exit _) fun _ => ?_
      refine silent_update v ?_
      rw [Server.signal]
      by_cases h : v.engagement = .waiting
      · rw [if_pos h]
      · rw [if_neg h]
  | engagementComplete =>
      exact ((silent_say _ s).silent_bind fun _ t => silent_auditlog _ t).silentTold
  | notActive | activate | newTarget | engagementInProgress =>
      exact .pure (Or.inr ⟨rfl, rfl⟩)

theorem told_track (f : Frame) (newState : Bool) (s : Server) :
    TellsAt Told (track f newState) s := by
  have hnone : ∀ t, TellsAt Told (pure () : Prog Unit) t := fun t => .pure (Or.inr ⟨rfl, rfl⟩)
  refine (silent_tryToMatch f s).afterSilent fun state t _ => ?_
  refine .fetch (.ite (fun _ => ?_) fun _ => ?_)
  · refine (silent_update t rfl).afterSilent fun _ u _ => ?_
    exact .ite (fun _ => told_enterState state u) fun _ => hnone u
  · exact .ite (fun _ => told_enterState state t) fun _ => hnone t

theorem told_nextTarget (s : Server) : TellsAt Told nextTarget s := by
  refine (silent_update s rfl).afterSilent fun _ t _ => .fetch (.ite (fun _ => ?_) fun _ => ?_)
  · exact ((untold_update _ t).announced_bind fun _ u => (untold_update _ u).announced_bind
      fun _ v => (announced_sendCurrentState v).thenSilent fun _ w => silent_say _ w).told
  · exact (silent_update t rfl).silentTold

theorem told_processTargetEngagements (f : Frame) (s : Server) :
    TellsAt Told (processTargetEngagements f) s := by
  have hnone : TellsAt Told (pure () : Prog Unit) s := .pure (Or.inr ⟨rfl, rfl⟩)
  refine .fetch ?_
  cases s.autoEngage.state with
  | notActive | engagementInProgress | trackingStable => exact hnone
  | activate =>
      exact (silent_update s rfl).afterSilent fun _ t _ =>
        (silent_update t rfl).afterSilent fun _ u _ => told_track f true u
  | newTarget => exact (silent_update s rfl).afterSilent fun _ t _ => told_track f true t
  | lookingForTarget | tracking => exact told_track f false s
  | engagementComplete => exact told_nextTarget s

/-! ## Logins -/

theorem silent_processLogin (P : Platform) (m : Received) (s : Server) :
    TellsAt Silent (processLogin P m) s := by
  have hheartBeat : ∀ t, TellsAt Silent (do
      let s ← fetch
      if s.isLoggedIn = true ∧ s.heartBeatThread = false then
        let created : Int ← DemoCannon.call .pthreadCreate
        if created ≠ 0 then .exit .pthreadCreate
        else update fun s => { s with heartBeatThread := true }
      else pure () : Prog Unit) t := by
    intro t
    have hcreate : TellsAt Silent (DemoCannon.call .pthreadCreate) t :=
      .call (fun _ => rfl) ⟨rfl, rfl⟩
    refine .fetch (.ite (fun _ => ?_) fun _ => .pure ⟨rfl, rfl⟩)
    exact hcreate.silent_bind fun (_ : Int) u =>
      .ite (fun _ => .exit _) fun _ => silent_update u rfl
  refine .fetch ?_
  cases checkLogin P m s.user with
  | none => exact .exit _
  | some result =>
      exact (silent_update s rfl).silent_bind fun _ t =>
        (silent_sendWord (by decide) _ t).silent_bind fun _ u =>
          (silent_update u rfl).silent_bind fun _ v => hheartBeat v

theorem told_dispatch (P : Platform) (m : Received) (s : Server) :
    TellsAt Told (dispatch P m) s := by
  refine .ite (fun _ => ?_) fun _ => .fetch (.ite (fun _ => ?_) fun _ => told_switchType m s)
  · exact (silent_auditlog _ s).afterSilent fun _ t _ => (silent_processLogin P _ t).silentTold
  · exact .pure (Or.inr ⟨rfl, rfl⟩)

/-- A request that is handled is answered. -/
theorem announced_dispatch (P : Platform) {m : Received} {s : Server}
    (hm : m.buffer.type = mtStateChangeReq) (hin : s.isLoggedIn = true) :
    TellsAt Announced (dispatch P m) s := by
  rw [dispatch, hm]
  refine .fetch ?_
  rw [hin]
  exact announced_switchType hm s

/-! ## `EngagementThread` -/

/-- The thread has changed `SystemState` and not sent it. -/
def EngagementPc.owing : EngagementPc → Bool
  | .sendLaser | .sendFire | .laserFalse | .armedFalse | .sendEngaged => true
  | _ => false

/-- What is told of a statement: the state as it is left, or nothing, if it is as it was
    or the thread is going to tell it. -/
def Engaged (s : Server) (ws : List SystemState) (t : Server) : Prop :=
  Announced s ws t ∨ ws = [] ∧ (t.engagement.owing = true
    ∨ t.engagement.owing = false ∧ s.engagement.owing = false ∧ t.systemState = s.systemState)

theorem engaged_engagementStatement (s : Server) : TellsAt Engaged engagementStatement s := by
  have hgo : ∀ {p : Prog Unit} {Q : Server → List SystemState → Server → Prop}
      {pc : EngagementPc}, TellsAt Q p s →
      (∀ ws t, Q s ws t → Engaged s ws { t with engagement := pc }) →
      TellsAt Engaged (do p; goto pc) s := by
    intro p Q pc hp hQ
    have hgoto : ∀ t, TellsAt (fun t ws u => ws = [] ∧ u = { t with engagement := pc })
        (goto pc) t := fun _ => .update ⟨rfl, rfl⟩
    refine hp.bind (fun _ t _ _ => hgoto t) ?_
    rintro ws t ws' u hst ⟨rfl, rfl⟩
    rw [List.append_nil]
    exact hQ ws t hst
  have htold : ∀ {p : Prog Unit} {pc : EngagementPc}, TellsAt Announced p s →
      TellsAt Engaged (do p; goto pc) s := fun hp => hgo hp fun _ _ h => Or.inl h
  have howes : ∀ {p : Prog Unit} {pc : EngagementPc}, TellsAt Untold p s → pc.owing = true →
      TellsAt Engaged (do p; goto pc) s := fun hp hpc => hgo hp fun _ _ h => Or.inr ⟨h, Or.inl hpc⟩
  have hsilent : ∀ {p : Prog Unit} {pc : EngagementPc}, TellsAt Silent p s →
      s.engagement.owing = false → pc.owing = false → TellsAt Engaged (do p; goto pc) s :=
    fun hp hs hpc => hgo hp fun _ _ h => Or.inr ⟨h.1, Or.inr ⟨hpc, hs, h.2⟩⟩
  refine .fetch ?_
  cases hpc : s.engagement with
  | wait => exact hsilent (silent_lock (by decide) s) (by rw [hpc]; rfl) rfl
  | waiting => exact .never
  | laserTrue => exact howes (untold_laser true s) rfl
  | sendLaser | sendFire | sendEngaged => exact htold (announced_sendCurrentState s)
  | fireTrue =>
      by_cases hdenied : firingDenied s.systemState
      · exact htold (announced_fire_denied hdenied)
      · exact howes (untold_fire fun h => hdenied h.2) rfl
  | fireFalse => exact howes (untold_fire_false s) rfl
  | laserFalse => exact howes (untold_laser false s) rfl
  | armedFalse => exact howes (untold_armed false s) rfl
  | printfEngaged => exact hsilent (silent_say _ s) (by rw [hpc]; rfl) rfl
  | setComplete => exact hsilent (silent_update s rfl) (by rw [hpc]; rfl) rfl
  | unlock => exact hsilent (silent_unlock .engmnt s) (by rw [hpc]; rfl) rfl

/-! ## All steps -/

/-- The base state of the display: a client that has not been told shows the controls of
    `SAFE`. -/
def shownBase (w : SystemState) : SystemState := if base w = unknown then safe else base w

/-- How base states follow each other on the display: the armed ones on PREARMED only. -/
def Follows (b b' : SystemState) : Prop := b' = b ∨ b' = safe ∨ b' = prearmed ∨ b = prearmed

/-- The server tells the states on its way from one to another. -/
def Server.Tells (s : Server) (ws : List SystemState) (t : Server) : Prop :=
  Mirror.Tells Follows shownBase s.systemState s.engagement.owing ws t.systemState
    t.engagement.owing

theorem shownBase_of_sound {s : Server} (hs : s.control.Sound) :
    shownBase s.systemState = base s.systemState := by
  refine if_neg fun hunknown => ?_
  have hbase : s.control.base = unknown := hunknown
  rcases hs.base with h | h | h | h <;> exact absurd (hbase.symm.trans h) (by decide)

theorem Control.Move.follows {c d : Control} {e : Control.Event} (hm : Move c e d)
    (hd : d.Sound) : Follows c.base d.base := by
  by_cases hsame : d.base = c.base
  · exact Or.inl hsame
  rcases hd.base with h | h | h | h
  · exact Or.inr (Or.inl h)
  · exact Or.inr (Or.inr (Or.inl h))
  · exact Or.inr (Or.inr (Or.inr (hm.arms (Or.inl rfl) h fun hc => hsame (h.trans hc.symm)).1))
  · exact Or.inr (Or.inr (Or.inr (hm.arms (Or.inr rfl) h fun hc => hsame (h.trans hc.symm)).1))

section Steps

variable {P : Platform} {s t : Server} {a : Act} {ws : List SystemState}

theorem step_follows (hs : s.control.Sound) (hst : Step P s a t) :
    Follows (shownBase s.systemState) (shownBase t.systemState) := by
  have ht := sound_step hs hst
  obtain ⟨e, -, hm⟩ := step_move hst
  rw [shownBase_of_sound hs, shownBase_of_sound ht]
  exact hm.follows ht

theorem Announced.tells (h : Announced s ws t)
    (hfollows : Follows (shownBase s.systemState) (shownBase t.systemState)) :
    s.Tells ws t := by
  obtain rfl : ws = [t.systemState] := h
  exact ⟨.cons_cons hfollows (.singleton _), rfl,
    fun _ => ⟨Or.inr (List.cons_ne_nil _ _), rfl⟩⟩

theorem Told.tells (h : Told s ws t)
    (hfollows : Follows (shownBase s.systemState) (shownBase t.systemState))
    (howing : t.engagement.owing = s.engagement.owing) : s.Tells ws t := by
  rcases h with h | ⟨rfl, hst⟩
  · exact h.tells hfollows
  · rw [Server.Tells, howing, hst]
    exact .refl _ _

theorem Engaged.tells (h : Engaged s ws t)
    (hfollows : Follows (shownBase s.systemState) (shownBase t.systemState))
    (hbase : ws = [] → shownBase t.systemState = shownBase s.systemState) : s.Tells ws t := by
  rcases h with h | ⟨rfl, h⟩
  · exact h.tells hfollows
  · refine ⟨.singleton _, (hbase rfl).symm, fun howing => ?_⟩
    rcases h with h | ⟨-, hs, hst⟩
    · exact absurd (h.symm.trans howing) (by decide)
    · exact ⟨Or.inl hs, hst.symm⟩

theorem Announced.truthful (h : Announced s ws t) : ∀ w ∈ ws, w = t.systemState := by
  obtain rfl : ws = [t.systemState] := h
  exact fun w hw => List.mem_singleton.mp hw

theorem Told.truthful (h : Told s ws t) : ∀ w ∈ ws, w = t.systemState := by
  rcases h with h | ⟨rfl, -⟩
  · exact h.truthful
  · rintro w ⟨⟩

theorem Engaged.truthful (h : Engaged s ws t) : ∀ w ∈ ws, w = t.systemState := by
  rcases h with h | ⟨rfl, -⟩
  · exact h.truthful
  · rintro w ⟨⟩

/-- A frame leaves `EngagementThread` where it is, or wakes it. -/
theorem frame_owing {f : Frame} (hst : Step P s (.frame f) t) :
    t.engagement.owing = s.engagement.owing := by
  cases post_frameSignal f s () t hst with
  | signal hsignals hstable hthread =>
      by_cases hwaiting : s.engagement = .waiting
      · rw [if_pos hwaiting] at hthread
        rw [hthread, hwaiting]
        rfl
      · rw [if_neg hwaiting] at hthread
        rw [hthread]
  | silent hsignals hstable hthread => rw [hthread]

/-- A statement that tells nothing leaves the base state. -/
theorem statement_base (hst : Step P s .statement t)
    (h : ¬ (s.engagement = .fireTrue ∧ firingDenied s.systemState)) :
    base t.systemState = base s.systemState := by
  have ht := congrArg Control.base (step_statement hst)
  change base t.systemState = s.control.effect.base at ht
  rw [ht, Control.effect]
  cases hpc : s.control.engagement with
  | laserTrue => exact Control.base_laser true _
  | fireTrue =>
      have hpermitted : ¬ firingDenied s.control.systemState := fun hd => h ⟨hpc, hd⟩
      dsimp only
      rw [Control.fire_true_permitted hpermitted]
      exact Control.base_flag .firing true _
  | fireFalse => exact Control.base_fire_false _
  | laserFalse => exact Control.base_laser false _
  | armedFalse => exact Control.base_flag .armed false _
  | _ => rfl

end Steps

/-- A statement that tells nothing is no denied shot. -/
theorem told_fireTrue {s : Server} (hpc : s.engagement = .fireTrue)
    (hdenied : firingDenied s.systemState) :
    TellsAt (fun _ ws _ => ws ≠ []) engagementStatement s := by
  refine .fetch ?_
  rw [hpc]
  have hgoto : ∀ {pc} t, TellsAt (fun _ ws' _ => ws' = []) (goto pc) t := fun _ => .update rfl
  refine (announced_fire_denied hdenied).bind (fun _ t _ _ => hgoto t) ?_
  rintro ws t ws' u rfl rfl
  exact List.cons_ne_nil _ _

/-- **What a step tells.**  Whatever the step is, wherever it ends with every call having
    succeeded, the states on its frames lead from the state before to the state after. -/
theorem step_tells (P : Platform) {s : Server} (hs : s.control.Sound) (a : Act) :
    Calls Serves (a.prog P) s fun calls _ t =>
      s.Tells ((frames calls).filterMap posts) t
        ∧ ∀ w ∈ (frames calls).filterMap posts, w = t.systemState := by
  have hframes : ∀ {calls : List (Answered Call Call.Answer)} {fs : List Bytes},
      cut calls = ([], fs) → (frames calls).filterMap posts = fs.filterMap posts := by
    intro calls fs hcut
    rw [frames, hcut, List.filterMap_filter]
    refine List.filterMap_congr fun f _ => ?_
    by_cases hf : f = []
    · subst hf
      rfl
    · rw [if_pos (decide_eq_true hf)]
  intro calls u t hperforms
  have hst : Step P s a t := hperforms.ends
  have hfollows := step_follows hs hst
  cases a with
  | message m =>
      obtain ⟨fs, hcut, htold⟩ := told_dispatch P m s calls u t hperforms
      rw [hframes hcut]
      exact ⟨htold.tells hfollows (congrArg EngagementPc.owing (message_engagement hst)),
        htold.truthful⟩
  | frame f =>
      obtain ⟨fs, hcut, htold⟩ := told_processTargetEngagements f s calls u t hperforms
      rw [hframes hcut]
      exact ⟨htold.tells hfollows (frame_owing hst), htold.truthful⟩
  | statement =>
      obtain ⟨fs, hcut, hengaged⟩ := engaged_engagementStatement s calls u t hperforms
      rw [hframes hcut]
      refine ⟨hengaged.tells hfollows fun hnone => ?_, hengaged.truthful⟩
      rw [shownBase, shownBase, statement_base hst]
      rintro ⟨hpc, hdenied⟩
      obtain ⟨fs', hcut', htold⟩ := told_fireTrue hpc hdenied calls u t hperforms
      rw [hcut] at hcut'
      cases hcut'
      exact htold hnone
  | spuriousWakeup =>
      have hwake : TellsAt (fun s ws t => ws = [] ∧ t.systemState = s.systemState
          ∧ t.engagement.owing = s.engagement.owing) wakeUp s := by
        refine .fetch (.ite (fun hwaiting => .update ⟨rfl, rfl, ?_⟩) fun _ => .never)
        rw [hwaiting]
        rfl
      obtain ⟨fs, hcut, hnone, hstate, howing⟩ := hwake calls u t hperforms
      rw [hframes hcut]
      have htold : Told s (fs.filterMap posts) t := Or.inr ⟨hnone, hstate⟩
      exact ⟨htold.tells hfollows howing, htold.truthful⟩

/-- A request that is handled is told of. -/
theorem request_told {P : Platform} {s t : Server} {m : Received}
    {calls : List (Answered Call Call.Answer)} (hm : m.buffer.type = mtStateChangeReq)
    (hin : s.isLoggedIn = true) (h : Performs Serves (dispatch P m) s calls () t) :
    (frames calls).filterMap posts ≠ [] := by
  obtain ⟨fs, hcut, htold⟩ := announced_dispatch P hm hin calls () t h
  intro hnone
  have hmem : t.systemState ∈ fs.filterMap posts := by
    rw [show fs.filterMap posts = [t.systemState] from htold]
    exact List.mem_singleton_self _
  obtain ⟨f, hf, hposts⟩ := List.mem_filterMap.mp hmem
  have hframe : f ∈ frames calls := by
    rw [frames, hcut]
    refine List.mem_filter.mpr ⟨hf, decide_eq_true ?_⟩
    rintro rfl
    cases hposts
  exact List.ne_nil_of_mem (List.mem_filterMap.mpr ⟨f, hframe, hposts⟩) hnone

end DemoCannon
