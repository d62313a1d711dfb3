import DemoCannon.Guarded
import DemoCannon.Shutdown

/-! # The mutexes and their order

    The mutexes are nested in two places, and in two orders: `SendSystemState`
    holds `TCP_Mutex` while `OLED_UpdateStatus` takes `I2C_Mutex`, and
    `ServoAngle` holds `I2C_Mutex` while it sends the message that a limit is
    reached.  A monitor of the locks (`nestingWatch`) shows that there is no
    third place, so every deadlock is one thread at each (`deadlock_iff`), and
    a run has none exactly as long as no step takes a thread there while
    another is at the other place (`no_deadlock_iff`). -/

namespace DemoCannon

open Interaction Interaction.Program

/-! ## Waiting and deadlock -/

namespace Process

/-- A thread is about to lock a mutex. -/
def Wants (p : Process) (i : Tid) (m : Mutex) : Prop :=
  ∃ k, p.pool.threads i = .running (.call (.lock m) k)

def Holds (p : Process) (i : Tid) (m : Mutex) : Prop :=
  ∃ n, p.pool.locks m = some (i, n)

/-- `TCP_Mutex`, `I2C_Mutex` and `GPIO_Mutex`. -/
def shared : List Mutex := [.tcp, .i2c, .gpio]

/-- A thread waits for a mutex that another holds. -/
def WaitsFor (p : Process) (i j : Tid) : Prop :=
  i ≠ j ∧ ∃ m ∈ shared, p.Wants i m ∧ p.Holds j m

/-- A cycle of threads, each of which waits for a mutex that the next holds. -/
def Deadlock (p : Process) : Prop := ∃ i, Relation.TransGen p.WaitsFor i i

end Process

/-! ## How the code nests the mutexes -/

/-- Which of the mutexes a thread holds, in the order in which it took them;
    with one of them, whether it has accessed the shared state since its last
    call. -/
inductive Nesting where
  | free
  | tcp (accessed : Bool)
  | tcpI2c
  | i2c (accessed : Bool)
  | i2cTcp
  | gpio
  deriving DecidableEq

namespace Nesting

def holds : Nesting → List Mutex
  | .free => []
  | .tcp _ => [.tcp]
  | .tcpI2c | .i2cTcp => [.tcp, .i2c]
  | .i2c _ => [.i2c]
  | .gpio => [.gpio]

/-- A second mutex is locked in two places only. -/
def lock : Nesting → Mutex → Option Nesting
  | .free, .tcp => some (.tcp false)
  | .free, .i2c => some (.i2c false)
  | .free, .gpio => some .gpio
  | .free, .engmnt => some .free
  | .tcp true, .i2c => some .tcpI2c
  | .i2c true, .tcp => some .i2cTcp
  | _, _ => none

def unlock : Nesting → Mutex → Option Nesting
  | .free, .engmnt => some .free
  | .tcp _, .tcp => some .free
  | .tcpI2c, .i2c => some (.tcp false)
  | .i2c _, .i2c => some .free
  | .i2cTcp, .tcp => some (.i2c false)
  | .gpio, .gpio => some .free
  | _, _ => none

def accessed : Nesting → Nesting
  | .tcp _ => .tcp true
  | .i2c _ => .i2c true
  | w => w

def called : Nesting → Nesting
  | .tcp _ => .tcp false
  | .i2c _ => .i2c false
  | w => w

/-- A second mutex may be locked. -/
def MayNest : Nesting → Prop
  | .tcp true | .i2c true => True
  | _ => False

/-- Never right after a call. -/
theorem not_mayNest_lock {w w' : Nesting} {m : Mutex} (h : w.lock m = some w') :
    ¬ w'.MayNest := by
  rw [lock.eq_def] at h
  split at h <;> cases h <;> exact id

theorem not_mayNest_unlock {w w' : Nesting} {m : Mutex} (h : w.unlock m = some w') :
    ¬ w'.MayNest := by
  rw [unlock.eq_def] at h
  split at h <;> cases h <;> exact id

theorem not_mayNest_called (w : Nesting) : ¬ w.called.MayNest := by
  cases w <;> exact id

end Nesting

/-- The end of `ServoAngle` where a limit is reached. -/
def clamp (num : ServoNum) (angle : Rat) (text : String) : Prog Unit := do
  update fun s => s.setAngle angle num
  say text
  update fun s => s.command num
  unlock .i2c

/-- What comes next is there already, and does not lock `m`. -/
def GoesOn (m : Mutex) {α : Type} : Prog α → Prop
  | .ret _ => False
  | .call c _ => c ≠ .lock m
  | .atom _ _ | .exit _ => True

theorem GoesOn.bind {m : Mutex} {α β : Type} {p : Prog α} {f : α → Prog β}
    (h : GoesOn m p) : GoesOn m (p >>= f) := by
  cases p with
  | ret a => exact h.elim
  | call c k => exact h
  | atom g k => trivial
  | exit x => trivial

/-- The accesses a thread may make with one mutex: with `TCP_Mutex` only the test
    of `OLED_UpdateStatus`, and with `I2C_Mutex`, before `TCP_Mutex` is locked,
    only the one that sets an angle to its limit. -/
def Nesting.allows {α : Type} (w : Nesting) (f : Server → Server)
    (k : Server → Prog α) : Prop :=
  match w with
  | .tcp _ => ∃ k', Program.atom f k = oledUpdateStatus >>= k' ∧ GoesOn .i2c (k' ())
  | .i2c _ => (∃ num angle text k', Program.atom f k = clamp num angle text >>= k')
      ∨ ∀ s, GoesOn .tcp (k s)
  | _ => True

theorem Nesting.allows_bind {α β : Type} {w : Nesting} {f : Server → Server}
    {k : Server → Prog α} (g : α → Prog β) (h : w.allows f k) :
    w.allows f (fun s => k s >>= g) := by
  cases w with
  | tcp accessed =>
      obtain ⟨k', hk', hgoes⟩ := h
      refine ⟨fun a => k' a >>= g, ?_, hgoes.bind⟩
      rw [← bind_assoc, ← hk']
      rfl
  | i2c accessed =>
      rcases h with ⟨num, angle, text, k', hk'⟩ | h
      · refine Or.inl ⟨num, angle, text, fun a => k' a >>= g, ?_⟩
        rw [← bind_assoc, ← hk']
        rfl
      · exact Or.inr fun s => (h s).bind
  | free | tcpI2c | i2cTcp | gpio => trivial

/-- The monitor of the locks. -/
def nestingWatch : Watch Nesting where
  atom w _ _ := w.accessed
  call w c _ :=
    match c with
    | .lock m => w.lock m
    | .unlock m => w.unlock m
    | _ => some w.called
  allows := fun w => w.allows
  allows_bind := fun g h => Nesting.allows_bind g h

/-! ### The blocks -/

/-- `p` nests the mutexes as above, and takes a thread from `w` to `w'`. -/
abbrev Nests {α : Type} (w : Nesting) (p : Prog α) (w' : Nesting) : Prop :=
  nestingWatch.Follows w p fun _ v => v = w'

section Blocks

variable {α β : Type} {w w' w'' : Nesting}

theorem Nests.bind {p : Prog α} {f : α → Prog β} (hp : Nests w p w')
    (hf : ∀ a, Nests w' (f a) w'') : Nests w (p >>= f) w'' := by
  refine hp.seq ?_
  rintro a _ rfl
  exact hf a

theorem nests_lock {m : Mutex} (h : w.lock m = some w') : Nests w (lock m) w' := by
  intro r _
  exact ⟨w', h, rfl⟩

theorem nests_unlock {m : Mutex} (h : w.unlock m = some w') : Nests w (unlock m) w' := by
  intro r _
  exact ⟨w', h, rfl⟩

/-- Calls other than on the mutexes. -/
theorem nests_call {c : Call} (hc : c.Plain) (hlock : ∀ m, c ≠ .lock m)
    (hunlock : ∀ m, c ≠ .unlock m) : Nests w (call c) w.called := by
  intro r _
  cases c with
  | lock m => exact absurd rfl (hlock m)
  | unlock m => exact absurd rfl (hunlock m)
  | sslWrite data => exact hc.elim
  | sslRead | auditLine | condSignal | pthreadCreate | fopenIni | fopenLog | never =>
      exact ⟨_, rfl, rfl⟩

theorem nests_never : Nests w (never : Prog α) w' := by
  intro r _
  exact Empty.elim r

theorem nests_writeDataTcp (data : Bytes) (hw : w.called = w') :
    Nests w (Thread.writeDataTcp data) w' := by
  intro script _
  refine ⟨w', congrArg some hw, ?_⟩
  change Nests w' (DemoCannon.writeDataTcp data.length script 0).leave w'
  cases DemoCannon.writeDataTcp data.length script 0 with
  | returned retval => rfl
  | exited => trivial
  | waiting => exact nests_never

/-- A text is sent from `w`, with `TCP_Mutex` alone or inside `I2C_Mutex`. -/
theorem nests_printfSend {inside : Nesting} (text : String)
    (hlock : w.lock .tcp = some inside) (hwrite : inside.called = inside)
    (hunlock : inside.unlock .tcp = some w') : Nests w (printfSend text) w' := by
  have hdone : ∀ n : Int, Nests inside (do unlock .tcp; pure n) w' := by
    intro n
    exact (nests_unlock hunlock).bind fun _ => rfl
  have hsend := fun data => nests_writeDataTcp data hwrite
  refine (nests_lock hlock).bind fun _ => Monitor.Follows.ite ?_ (hdone _)
  refine (hsend _).bind fun _ => Monitor.Follows.ite (hdone _) ?_
  exact (hsend _).bind fun _ => Monitor.Follows.ite (hdone _) (hdone _)

theorem nests_say {inside : Nesting} (text : String)
    (hlock : w.lock .tcp = some inside) (hwrite : inside.called = inside)
    (hunlock : inside.unlock .tcp = some w') : Nests w (say text) w' :=
  (nests_printfSend text hlock hwrite hunlock).bind fun _ => rfl

/-- A send of one word under the lock. -/
theorem nests_sendWord (data : Bytes) : Nests .free (do
    lock .tcp
    let retval ← Thread.writeDataTcp data
    unlock .tcp
    pure retval) .free :=
  (nests_lock rfl).bind fun _ => (nests_writeDataTcp data rfl).bind fun _ =>
    (nests_unlock rfl).bind fun _ => rfl

theorem nests_oledUpdateStatus {q : Unit → Prog α} (hgoes : GoesOn .i2c (q ()))
    (hq : ∀ accessed, Nests (.tcp accessed) (q ()) w) :
    Nests (.tcp false) (oledUpdateStatus >>= q) w := by
  have hdraw : Nests (.tcp true) (do
      lock .i2c
      update fun s => { s with oled := s.oled.updateStatus s.systemState }
      unlock .i2c) (.tcp false) := by
    refine (nests_lock rfl : Nests _ _ .tcpI2c).bind fun _ => ?_
    exact Monitor.Follows.write trivial fun _ _ => nests_unlock rfl
  refine ⟨⟨q, rfl, hgoes⟩, fun s _ => ?_⟩
  change Nests (.tcp true) ((if s.haveOled then _ else pure ()) >>= q) w
  by_cases holed : s.haveOled = true
  · rw [if_pos holed]
    exact hdraw.bind fun _ => hq false
  · rw [if_neg holed]
    exact hq true

theorem nests_sendSystemState (state : SystemState) :
    Nests .free (sendSystemState state) .free := by
  refine (nests_lock rfl : Nests _ _ (.tcp false)).bind fun _ => ?_
  refine nests_oledUpdateStatus ?_ fun accessed => ?_
  · rintro ⟨⟩
  · exact (nests_writeDataTcp _ rfl).bind fun _ => (nests_unlock rfl).bind fun _ => rfl

theorem nests_sendCurrentState : Nests .free sendCurrentState .free :=
  Monitor.Follows.read trivial fun _ _ =>
    (nests_sendSystemState _).bind fun _ => rfl

/-- The limit message is sent with `I2C_Mutex` held. -/
theorem nests_servoAngle (num : ServoNum) : Nests .free (servoAngle num) .free := by
  have hcommand : ∀ accessed, Nests (.i2c accessed) (do
      update fun s => s.command num
      unlock .i2c) .free := by
    intro accessed
    refine Monitor.Follows.write (Or.inr fun _ => ?_) fun _ _ => nests_unlock rfl
    rintro ⟨⟩
  have hclamp : ∀ angle text, Nests (.i2c true) (clamp num angle text) .free := by
    intro angle text
    refine Monitor.Follows.write ?_ fun _ _ => ?_
    · exact Or.inl ⟨num, angle, text, pure, (bind_pure _).symm⟩
    · exact (nests_say text (rfl : (Nesting.i2c true).lock .tcp = some .i2cTcp) rfl rfl).bind
        fun _ => hcommand false
  have hgoes : ∀ {c : Prop} [Decidable c] {p q : Prog Unit}, GoesOn .tcp p → GoesOn .tcp q →
      GoesOn .tcp (if c then p else q) := by
    intro c _ p q hp hq
    by_cases h : c
    · rw [if_pos h]; exact hp
    · rw [if_neg h]; exact hq
  refine (nests_lock rfl : Nests _ _ (.i2c false)).bind fun _ => ?_
  refine Monitor.Follows.read (Or.inr fun s => ?_) fun s _ => ?_
  · exact hgoes trivial (hgoes trivial trivial)
  · exact (hclamp _ _).ite ((hclamp _ _).ite (hcommand true))

/-- What a function does with `GPIO_Mutex` held: it may log, and it writes. -/
theorem nests_write {f : Server → Server} {q : Unit → Prog α}
    (hq : Nests .gpio (q ()) w') : Nests .gpio (update f >>= q) w' :=
  Monitor.Follows.write trivial fun _ _ => hq

theorem nests_auditlog (msg : String) : Nests .gpio (auditlog msg) .gpio := by
  refine Monitor.Follows.read trivial fun s _ => Monitor.Follows.ite ?_ rfl
  exact nests_call trivial (by rintro m ⟨⟩) (by rintro m ⟨⟩)

theorem nests_laser (value : Bool) : Nests .free (laser value) .free := by
  have hset : Nests .gpio (do
      update fun s => { s with gpio18 := value }
      unlock .gpio : Prog Unit) .free := nests_write (nests_unlock rfl)
  refine (nests_lock rfl : Nests _ _ .gpio).bind fun _ => Monitor.Follows.ite ?_ ?_
  · exact (nests_auditlog _).bind fun _ => nests_write hset
  · exact nests_write hset

theorem nests_fire (value : Bool) : Nests .free (fire value) .free := by
  have hset : Nests .gpio (do
      update fun s => { s with gpio17 := value }
      unlock .gpio : Prog Unit) .free := nests_write (nests_unlock rfl)
  refine Monitor.Follows.read trivial fun s _ => Monitor.Follows.ite ?_ ?_
  · refine (nests_say _ (rfl : Nesting.free.lock .tcp = some (.tcp false)) rfl rfl).bind
      fun _ => ?_
    exact Monitor.Follows.write trivial fun _ _ => nests_sendCurrentState
  · refine (nests_lock rfl : Nests _ _ .gpio).bind fun _ => Monitor.Follows.ite ?_ ?_
    · exact (nests_auditlog _).bind fun _ => nests_write hset
    · exact nests_write hset

/-- A flag of the state word that is set or cleared under the lock. -/
theorem nests_flag {f g : Server → Server} (value : Bool) : Nests .free (do
    lock .gpio
    if value then update f else update g
    unlock .gpio : Prog Unit) .free :=
  (nests_lock rfl : Nests _ _ .gpio).bind fun _ =>
    Monitor.Follows.ite (nests_write (nests_unlock rfl)) (nests_write (nests_unlock rfl))

theorem nests_imageSection (sendbuff : Option Bytes) : Nests .free (do
    lock .tcp
    let _ ← tcpSendImageAsJpeg sendbuff
    unlock .tcp : Prog Unit) .free := by
  refine (nests_lock rfl : Nests _ _ (.tcp false)).bind fun _ => ?_
  have hsend : Nests (.tcp false) (tcpSendImageAsJpeg sendbuff) (.tcp false) := by
    cases sendbuff with
    | none => rfl
    | some sendbuff =>
        exact (nests_writeDataTcp _ rfl).bind fun _ =>
          Monitor.Follows.ite rfl (nests_writeDataTcp _ rfl)
  exact hsend.bind fun _ => nests_unlock rfl

theorem nests_heartBeatRound : Nests .free heartBeatRound .free := by
  refine (nests_lock rfl : Nests _ _ (.tcp false)).bind fun _ => ?_
  refine (nests_writeDataTcp _ rfl).bind fun _ => (nests_unlock rfl).bind fun _ => ?_
  exact Monitor.Follows.ite (Monitor.Follows.write trivial fun _ _ => rfl) rfl

/-- **Nothing else nests the mutexes.** -/
theorem roundBlocks_nests : RoundBlocks fun _ p => Nests .free p .free where
  pure _ := rfl
  bind := Nests.bind
  fetch := ⟨trivial, fun _ _ => rfl⟩
  exit _ := trivial
  never := nests_never
  call c hc := by
    cases c with
    | lock m | unlock m =>
        cases hc
        intro r _
        exact ⟨_, rfl, rfl⟩
    | sslWrite data => exact hc.elim
    | sslRead | auditLine | condSignal | pthreadCreate | fopenIni | fopenLog | never =>
        exact nests_call hc (by rintro m ⟨⟩) (by rintro m ⟨⟩)
  update _ _ := ⟨trivial, fun _ _ => rfl⟩
  updateState _ _ := ⟨trivial, fun _ _ => rfl⟩
  signal := ⟨trivial, fun _ _ => rfl⟩
  updateSettings _ _ := ⟨trivial, fun _ _ => rfl⟩
  say text := nests_say text (rfl : Nesting.free.lock .tcp = some (.tcp false)) rfl rfl
  sendCurrentState := nests_sendCurrentState
  sendLoginState _ := nests_sendWord _
  sendCamState _ := nests_sendWord _
  servoAngle := nests_servoAngle
  fire := nests_fire
  armed := nests_flag
  calibrate := nests_flag
  laser := nests_laser
  readSection := (nests_lock rfl : Nests _ _ (.tcp false)).bind fun _ => nests_unlock rfl
  imageSection := nests_imageSection
  heartBeatRound := nests_heartBeatRound

end Blocks

/-- Between its rounds a thread holds none of the mutexes. -/
abbrev nestingIdle (_ : Tid) (_ : Bool) (w : Nesting) : Prop := w = .free

theorem rounds_nesting (P : Platform) :
    Rounds P nestingWatch .free .free nestingIdle :=
  roundBlocks_nests.rounds P (fun _ => ⟨trivial, fun _ _ => rfl⟩)
    (roundBlocks_nests.switchOff.mono fun _ _ _ => trivial)

/-! ## The locks and the monitors -/

namespace Nesting

/-- A mutex that is locked inside another. -/
theorem place_of_lock {w w' : Nesting} {m m' : Mutex} (h : w.lock m = some w')
    (hheld : m' ∈ w.holds) :
    (w = .i2c true ∧ m = .tcp ∧ m' = .i2c) ∨ (w = .tcp true ∧ m = .i2c ∧ m' = .tcp) := by
  rw [lock.eq_def] at h
  split at h
  · cases hheld
  · cases hheld
  · cases hheld
  · cases hheld
  · exact Or.inr ⟨rfl, rfl, List.mem_singleton.mp hheld⟩
  · exact Or.inl ⟨rfl, rfl, List.mem_singleton.mp hheld⟩
  · cases h

@[simp] theorem holds_accessed (w : Nesting) : w.accessed.holds = w.holds := by
  cases w <;> rfl

@[simp] theorem holds_called (w : Nesting) : w.called.holds = w.holds := by
  cases w <;> rfl

end Nesting

theorem tracks_nesting :
    Tracks nestingWatch (· ≠ .engmnt) fun w m => m ∈ w.holds where
  atom w _ _ m _ := by
    change m ∈ w.accessed.holds ↔ m ∈ w.holds
    rw [Nesting.holds_accessed]
  lock {w w' m' r} h m hm := by
    change w.lock m' = some w' at h
    rw [Nesting.lock.eq_def] at h
    split at h <;> cases h <;> cases m <;> simp_all [Nesting.holds]
  unlock {w w' m' r} h m hm := by
    change w.unlock m' = some w' at h
    rw [Nesting.unlock.eq_def] at h
    split at h <;> cases h <;> cases m <;> simp_all [Nesting.holds]
  other {w w' c r} hlock hunlock h m _ := by
    cases c with
    | lock m => exact absurd rfl (hlock m)
    | unlock m => exact absurd rfl (hunlock m)
    | sslWrite | sslRead | auditLine | condSignal | pthreadCreate | fopenIni | fopenLog
    | never =>
        cases h
        rw [Nesting.holds_called]

namespace Process

variable {P : Platform} {p q : Process} {a : Tick} {w : Tid → Nesting}

/-- The threads nest the mutexes as the monitor has it, and hold what it says. -/
abbrev Nested (p : Process) (w : Tid → Nesting) : Prop :=
  p.Guarded nestingWatch .free nestingIdle (· ≠ .engmnt) (fun w m => m ∈ w.holds) w

theorem nested_accepted (P : Platform) (c : Config) : (accepted c).Nested fun _ => .free :=
  guarded_accepted (rounds_nesting P) (fun _ _ => List.not_mem_nil) c

theorem Nested.step (hp : p.Nested w) (hst : Step P p a q) :
    q.Nested (p.advance nestingWatch .free w a) := by
  refine Guarded.step (rounds_nesting P) tracks_nesting hp hst ?_ fun _ => trivial
  cases a with
  | step l => cases l <;> trivial
  | halt | goOn | heartBeat | spuriousWakeup | controlC | cancelled | joined => trivial

/-! ## The two places -/

/-- In `ServoAngle`, with `I2C_Mutex` held, about to send the limit message. -/
def AtMessage (p : Process) (i : Tid) : Prop := p.Holds i .i2c ∧ p.Wants i .tcp

/-- In `OLED_UpdateStatus`, with `TCP_Mutex` held, about to redraw the OLED. -/
def AtOled (p : Process) (i : Tid) : Prop := p.Holds i .tcp ∧ p.Wants i .i2c

/-- A thread that waits with a mutex held is at one of the two places. -/
theorem Nested.place (hp : p.Nested w) (hoff : ∀ cause, p.phase ≠ .switchingOff cause)
    {i : Tid} {m m' : Mutex} (hm : m' ≠ .engmnt) (hwants : p.Wants i m)
    (hholds : p.Holds i m') :
    (w i = .i2c true ∧ m = .tcp ∧ m' = .i2c) ∨ (w i = .tcp true ∧ m = .i2c ∧ m' = .tcp) := by
  obtain ⟨k, hi⟩ := hwants
  obtain ⟨n, hlocks⟩ := hholds
  have hrest : ∀ again, (Program.call (.lock m) k : Prog Bool) ≠ .ret again := by
    rintro again ⟨⟩
  obtain ⟨-, hheld⟩ := (Guarded.agree_of_running hp hi hrest hoff m' n hm).mp hlocks
  obtain ⟨w', hcall, -⟩ := hp.watched.of_running hi hrest () trivial
  exact Nesting.place_of_lock hcall hheld

theorem Wants.inj {i : Tid} {m m' : Mutex} (h : p.Wants i m) (h' : p.Wants i m') :
    m = m' := by
  obtain ⟨k, hk⟩ := h
  obtain ⟨k', hk'⟩ := h'
  cases hk.symm.trans hk'
  rfl

theorem AtMessage.ne {i j : Tid} (hi : p.AtMessage i) (hj : p.AtOled j) : i ≠ j := by
  rintro rfl
  cases hi.2.inj hj.2

/-- In its last part `main` is the only thread, and waits for nobody. -/
theorem not_switchingOff (hs : p.Sound) {i j : Tid} {m m' : Mutex} (hne : i ≠ j)
    (hi : p.Wants i m) (hj : p.Wants j m') : ∀ cause, p.phase ≠ .switchingOff cause := by
  intro cause hphase
  obtain ⟨k, hk⟩ := hi
  obtain ⟨k', hk'⟩ := hj
  have hmain : i = .main := hs.eq_main (by rw [hk]; rintro ⟨⟩) hphase
  have hmain' : j = .main := hs.eq_main (by rw [hk']; rintro ⟨⟩) hphase
  exact hne (hmain.trans hmain'.symm)

theorem mem_shared_ne {m : Mutex} (hm : m ∈ shared) : m ≠ .engmnt := by
  rintro rfl
  simp [shared] at hm

/-- **Every deadlock is one thread at each of the two places.** -/
theorem deadlock_iff (hs : p.Sound) (hp : p.Nested w) :
    p.Deadlock ↔ ∃ i j, p.AtMessage i ∧ p.AtOled j := by
  constructor
  · rintro ⟨i, hcycle⟩
    -- somebody waits for `i`, which waits for `j`, which waits as well
    obtain ⟨d, -, hd⟩ := Relation.TransGen.tail'_iff.mp hcycle
    obtain ⟨j, hij, hj⟩ := Relation.TransGen.head'_iff.mp hcycle
    obtain ⟨-, m₀, hm₀, -, hheld⟩ := hd
    obtain ⟨hne, m, hm, hwants, hholds⟩ := hij
    rcases Relation.ReflTransGen.cases_head hj with rfl | ⟨k, hjk, -⟩
    · exact absurd rfl hne
    obtain ⟨-, m', hm', hwants', -⟩ := hjk
    have hoff := not_switchingOff hs hne hwants hwants'
    rcases hp.place hoff (mem_shared_ne hm₀) hwants hheld with
      ⟨-, rfl, rfl⟩ | ⟨-, rfl, rfl⟩
    · rcases hp.place hoff (mem_shared_ne hm) hwants' hholds with ⟨-, -, h⟩ | ⟨-, rfl, -⟩
      · cases h
      · exact ⟨i, j, ⟨hheld, hwants⟩, ⟨hholds, hwants'⟩⟩
    · rcases hp.place hoff (mem_shared_ne hm) hwants' hholds with ⟨-, rfl, -⟩ | ⟨-, -, h⟩
      · exact ⟨j, i, ⟨hholds, hwants'⟩, ⟨hheld, hwants⟩⟩
      · cases h
  · rintro ⟨i, j, hi, hj⟩
    have hne := hi.ne hj
    have hij : p.WaitsFor i j := ⟨hne, .tcp, by simp [shared], hi.2, hj.1⟩
    have hji : p.WaitsFor j i := ⟨hne.symm, .i2c, by simp [shared], hj.2, hi.1⟩
    exact ⟨i, .head hij (.single hji)⟩

/-! ## The ways to the two places -/

/-- In `ServoAngle`, with `I2C_Mutex` held, about to set an angle to its limit. -/
def AtClamp (p : Process) (i : Tid) : Prop :=
  p.Holds i .i2c
    ∧ ∃ num angle text k, p.pool.threads i = .running (clamp num angle text >>= k)

/-- In `SendSystemState`, with `TCP_Mutex` held, about to test for the OLED. -/
def AtTest (p : Process) (i : Tid) : Prop :=
  p.Holds i .tcp ∧ ∃ k, p.pool.threads i = .running (oledUpdateStatus >>= k)

theorem not_mayNest_of_call {v v' : Nesting} {c : Call} {r : c.Answer}
    (h : nestingWatch.call v c r = some v') : ¬ v'.MayNest := by
  cases c with
  | lock m => exact Nesting.not_mayNest_lock h
  | unlock m => exact Nesting.not_mayNest_unlock h
  | sslWrite | sslRead | auditLine | condSignal | pthreadCreate | fopenIni | fopenLog | never =>
      cases h
      exact Nesting.not_mayNest_called v

/-- A thread at one of the two places was there before the step, or comes there by
    an access. -/
theorem Nested.before (hp : p.Nested w) (hst : Step P p a q)
    (hoff : ∀ cause, q.phase ≠ .switchingOff cause) {i : Tid} {m m' : Mutex}
    (hm : m' ≠ .engmnt) (hwants : q.Wants i m) (hholds : q.Holds i m') :
    (p.Wants i m ∧ p.Holds i m')
      ∨ ∃ f k k', a = .step (.atom i) ∧ p.pool.threads i = .running (.atom f k)
        ∧ k p.server = .call (.lock m) k' ∧ p.Holds i m' := by
  have hmay : (p.advance nestingWatch .free w a i).MayNest := by
    rcases (hp.step hst).place hoff hm hwants hholds with ⟨h, -, -⟩ | ⟨h, -, -⟩
    · rw [h]; trivial
    · rw [h]; trivial
  obtain ⟨k₀, hi⟩ := hwants
  by_cases ha : ∃ l, a = .step l
  · obtain ⟨l, rfl⟩ := ha
    cases hst with
    | @step _ pool hrun hst =>
        by_cases hil : i = l.thread
        · cases hst with
          | @atom j f k hj =>
              obtain rfl : i = j := hil
              have hk := Thread.running.inj ((Pool.set_threads_self ..).symm.trans hi)
              exact Or.inr ⟨f, k, k₀, rfl, hj, hk, hholds⟩
          | @call j c k locks r hj hlocks =>
              obtain rfl : i = j := hil
              obtain ⟨w', hcall, -⟩ := hp.watched.of_running hj (by rintro _ ⟨⟩) r trivial
              change (p.pool.advance nestingWatch w (.call i c r) i).MayNest at hmay
              rw [Pool.advance_call hcall, Function.update_self] at hmay
              exact absurd hmay (not_mayNest_of_call hcall)
        · refine Or.inl ⟨⟨k₀, (hst.others hil).symm.trans hi⟩, ?_⟩
          obtain ⟨n, hn⟩ := hholds
          cases hst with
          | atom _ => exact ⟨n, hn⟩
          | call r _ hlocks => exact ⟨n, (Locks.grant_others hlocks hil).mp hn⟩
  · have hno : ∀ l, a ≠ .step l := fun l h => ha ⟨l, h⟩
    have hlocks := (hst.frame hno).1
    cases hp.watched.began hst hno hi with
    | same hsame _ =>
        obtain ⟨n, hn⟩ := hholds
        exact Or.inl ⟨⟨k₀, hsame⟩, n, hlocks ▸ hn⟩
    | done again _ _ h => cases h
    | first _ h | off _ _ h | idle again _ h =>
        rw [h] at hmay
        exact hmay.elim

/-- Setting an angle to its limit leads to the message. -/
theorem clamp_bind (num : ServoNum) (angle : Rat) (text : String) (k : Unit → Prog Bool) :
    ∃ f k', clamp num angle text >>= k = .atom f fun _ => .call (.lock .tcp) k' :=
  ⟨_, _, rfl⟩

/-- The test for the OLED leads to its redrawing. -/
theorem oledUpdateStatus_bind (k : Unit → Prog Bool) :
    ∃ k', oledUpdateStatus >>= k = .atom id k'
      ∧ (∀ s : Server, s.haveOled = true → ∃ k'', k' s = .call (.lock .i2c) k'')
      ∧ ∀ s : Server, s.haveOled = false → k' s = k () := by
  refine ⟨_, rfl, ?_, ?_⟩
  · intro s holed
    change ∃ k'', ((if s.haveOled then _ else pure ()) >>= k) = _
    rw [if_pos holed]
    exact ⟨_, rfl⟩
  · intro s holed
    change ((if s.haveOled then _ else pure ()) >>= k) = _
    rw [if_neg (by rw [holed]; exact Bool.false_ne_true)]
    rfl

/-- A thread that an access takes to one of the two places. -/
theorem Nested.allows (hp : p.Nested w) (hoff : ∀ cause, p.phase ≠ .switchingOff cause)
    {i : Tid} {f : Server → Server} {k : Server → Prog Bool} {m m' : Mutex}
    (hm : m' ≠ .engmnt) {k' : Unit → Prog Bool}
    (hi : p.pool.threads i = .running (.atom f k))
    (hk : k p.server = .call (.lock m) k') (hholds : p.Holds i m') :
    (w i).allows f k
      ∧ ((w i).accessed = .i2c true ∧ m = .tcp ∧ m' = .i2c
        ∨ (w i).accessed = .tcp true ∧ m = .i2c ∧ m' = .tcp) := by
  have hrest : ∀ again, (Program.atom f k : Prog Bool) ≠ .ret again := by
    rintro again ⟨⟩
  obtain ⟨n, hlocks⟩ := hholds
  obtain ⟨-, hheld⟩ := (Guarded.agree_of_running hp hi hrest hoff m' n hm).mp hlocks
  obtain ⟨hallows, hfollows⟩ := hp.watched.of_running hi hrest
  have hnext := hfollows p.server trivial
  rw [hk] at hnext
  obtain ⟨w', hcall, -⟩ := hnext () trivial
  rw [← Nesting.holds_accessed] at hheld
  exact ⟨hallows, Nesting.place_of_lock hcall hheld⟩

/-- A step of a program leaves the phase alone. -/
theorem not_switchingOff_of_step {l : Pool.Label Tid Call Call.Answer}
    (hst : Step P p (.step l) q) (hoff : ∀ cause, q.phase ≠ .switchingOff cause) :
    ∀ cause, p.phase ≠ .switchingOff cause := by
  cases hst with
  | step hrun hst => exact hoff

theorem Nested.atMessage_before (hp : p.Nested w) (hst : Step P p a q)
    (hoff : ∀ cause, q.phase ≠ .switchingOff cause) {i : Tid} (hi : q.AtMessage i) :
    p.AtMessage i ∨ a = .step (.atom i) ∧ p.AtClamp i := by
  rcases hp.before hst hoff (by decide) hi.2 hi.1 with
    ⟨hwants, hholds⟩ | ⟨f, k, k', rfl, hthread, hk, hholds⟩
  · exact Or.inl ⟨hholds, hwants⟩
  · have hoff' := not_switchingOff_of_step hst hoff
    obtain ⟨hallows, hplace⟩ := hp.allows hoff' (by decide) hthread hk hholds
    rcases hplace with ⟨hw, -, -⟩ | ⟨-, h, -⟩
    · cases hwi : w i with
      | i2c accessed =>
          rw [hwi] at hallows
          rcases hallows with ⟨num, angle, text, k₀, hclamp⟩ | hgoes
          · exact Or.inr ⟨rfl, hholds, num, angle, text, k₀, hclamp ▸ hthread⟩
          · have h := hgoes p.server
            rw [hk] at h
            exact absurd rfl h
      | free | tcp accessed | tcpI2c | i2cTcp | gpio => rw [hwi] at hw; cases hw
    · cases h

theorem Nested.atOled_before (hp : p.Nested w) (hst : Step P p a q)
    (hoff : ∀ cause, q.phase ≠ .switchingOff cause) {i : Tid} (hi : q.AtOled i) :
    p.AtOled i ∨ a = .step (.atom i) ∧ p.AtTest i ∧ p.server.haveOled = true := by
  rcases hp.before hst hoff (by decide) hi.2 hi.1 with
    ⟨hwants, hholds⟩ | ⟨f, k, k', rfl, hthread, hk, hholds⟩
  · exact Or.inl ⟨hholds, hwants⟩
  · have hoff' := not_switchingOff_of_step hst hoff
    obtain ⟨hallows, hplace⟩ := hp.allows hoff' (by decide) hthread hk hholds
    rcases hplace with ⟨-, h, -⟩ | ⟨hw, -, -⟩
    · cases h
    · cases hwi : w i with
      | tcp accessed =>
          rw [hwi] at hallows
          obtain ⟨k₀, htest, hgoes⟩ := hallows
          have htest' : p.AtTest i := ⟨hholds, k₀, htest ▸ hthread⟩
          refine Or.inr ⟨rfl, htest', ?_⟩
          -- without the OLED the thread goes on to its write
          cases holed : p.server.haveOled with
          | true => rfl
          | false =>
              obtain ⟨k₁, hk₁, -, hwithout⟩ := oledUpdateStatus_bind k₀
              rw [hk₁] at htest
              cases htest
              rw [← hwithout p.server holed, hk] at hgoes
              exact absurd rfl hgoes
      | free | i2c accessed | tcpI2c | i2cTcp | gpio => rw [hwi] at hw; cases hw

/-- A step takes a thread to one of the two places while another is at the
    other. -/
def Crosses (p : Process) (a : Tick) : Prop :=
  ∃ i, a = .step (.atom i)
    ∧ ((p.AtClamp i ∧ ∃ j, p.AtOled j)
      ∨ (p.AtTest i ∧ p.server.haveOled = true ∧ ∃ j, p.AtMessage j))

theorem AtClamp.step {i : Tid} (hi : p.AtClamp i) (hst : Step P p (.step (.atom i)) q) :
    q.AtMessage i := by
  obtain ⟨hholds, num, angle, text, k, hthread⟩ := hi
  obtain ⟨f, k', hk'⟩ := clamp_bind num angle text k
  cases hst with
  | step hrun hst =>
      cases hst with
      | atom hatom =>
          rw [hk'] at hthread
          cases hthread.symm.trans hatom
          exact ⟨hholds, k', Pool.set_threads_self ..⟩

theorem AtTest.step {i : Tid} (hi : p.AtTest i) (holed : p.server.haveOled = true)
    (hst : Step P p (.step (.atom i)) q) : q.AtOled i := by
  obtain ⟨hholds, k, hthread⟩ := hi
  obtain ⟨k', hk', hredraw, -⟩ := oledUpdateStatus_bind k
  obtain ⟨k'', hk''⟩ := hredraw p.server holed
  cases hst with
  | step hrun hst =>
      cases hst with
      | atom hatom =>
          rw [hk'] at hthread
          cases hthread.symm.trans hatom
          refine ⟨hholds, k'', ?_⟩
          rw [← hk'']
          exact Pool.set_threads_self ..

/-- An access of one thread leaves the others where they are. -/
theorem wants_holds_of_atom {i j : Tid} {m m' : Mutex}
    (hst : Step P p (.step (.atom i)) q) (hwants : p.Wants j m) (hholds : p.Holds j m') :
    q.Wants j m ∧ q.Holds j m' := by
  obtain ⟨k, hk⟩ := hwants
  cases hst with
  | step hrun hst =>
      cases hst with
      | atom hi =>
          have hne : j ≠ i := by
            rintro rfl
            cases hi.symm.trans hk
          exact ⟨⟨k, (Pool.set_threads_of_ne hne).trans hk⟩, hholds⟩

/-- **The step lemma, with the condition.** -/
theorem step_deadlock_iff (hs : p.Sound) (hp : p.Nested w) (hst : Step P p a q)
    (hfree : ¬ p.Deadlock) : ¬ q.Deadlock ↔ ¬ p.Crosses a := by
  rw [not_iff_not, deadlock_iff (hs.step hst) (hp.step hst)]
  rw [deadlock_iff hs hp] at hfree
  constructor
  · rintro ⟨i, j, hi, hj⟩
    have hoff := not_switchingOff (hs.step hst) (hi.ne hj) hi.2 hj.2
    rcases hp.atMessage_before hst hoff hi with hbefore | ⟨rfl, hclamp⟩
    · rcases hp.atOled_before hst hoff hj with hbefore' | ⟨rfl, htest, holed⟩
      · exact absurd ⟨i, j, hbefore, hbefore'⟩ hfree
      · exact ⟨j, rfl, Or.inr ⟨htest, holed, i, hbefore⟩⟩
    · rcases hp.atOled_before hst hoff hj with hbefore' | ⟨h, -, -⟩
      · exact ⟨i, rfl, Or.inl ⟨hclamp, j, hbefore'⟩⟩
      · cases h
        exact absurd rfl (hi.ne hj)
  · rintro ⟨i, rfl, ⟨hclamp, j, hj⟩ | ⟨htest, holed, j, hj⟩⟩
    · obtain ⟨hwants, hholds⟩ := wants_holds_of_atom hst hj.2 hj.1
      exact ⟨i, j, hclamp.step hst, hholds, hwants⟩
    · obtain ⟨hwants, hholds⟩ := wants_holds_of_atom hst hj.2 hj.1
      exact ⟨j, i, ⟨hholds, hwants⟩, htest.step holed hst⟩

theorem not_deadlock_accepted (c : Config) : ¬ (accepted c).Deadlock := by
  rintro ⟨i, hcycle⟩
  obtain ⟨j, -, -, m, -, -, n, hn⟩ := Relation.TransGen.tail'_iff.mp hcycle
  cases hn

end Process

/-- **No deadlock**, in exactly the runs in which no thread comes to the limit
    message of `ServoAngle` while another waits to redraw the OLED, or the
    other way round. -/
theorem no_deadlock_iff {P : Platform} {c : Config} {h : List (Process × Tick)}
    {p : Process} (hr : ProcessRun P c h p) :
    EveryState (fun p => ¬ p.Deadlock) h p
      ↔ EveryStep (fun _ p a _ => ¬ p.Crosses a) h p := by
  refine Run.everyState_iff
    (fun p => p.Sound ∧ (∃ w, p.Nested w) ∧ ¬ p.Deadlock) ?_ ?_ ?_ ?_ hr
  · exact ⟨Process.sound_accepted c, ⟨_, Process.nested_accepted P c⟩,
      Process.not_deadlock_accepted c⟩
  · exact Process.not_deadlock_accepted c
  · rintro p a q ⟨hs, ⟨w, hp⟩, -⟩ hst hq
    exact ⟨hs.step hst, ⟨_, hp.step hst⟩, hq⟩
  · rintro p a q ⟨hs, ⟨w, hp⟩, hfree⟩ hst
    exact Process.step_deadlock_iff hs hp hst hfree

/-! ## A session with an OLED -/

namespace Session

/-- The server has an OLED. -/
def oledConfig : Config := { config with haveOled := true }

/-- A frame with target 3 far off to the right. -/
def farFrame : Frame :=
  { detectedMatches := [⟨3, 3000, 630⟩], width := 1920, height := 1080, now := 0 }

/-- From the connection to a target that was skipped at the pan limit. -/
def toSkipped : List Process.Order :=
  List.replicate 4 (.turn .main smooth {}) ++ .turn .network smooth {}
    :: ([login, prearm, order, request .engageAuto].map fun m => receives m (sends m))
    ++ [.turn .main smooth { frame := some farFrame }]

/-- The target list completes while the operator pans: the network thread has
    read the command, `main` is in `SendSystemState`, the network thread goes
    on. -/
def panAtLimit : List Process.Turn :=
  let command := sends (command panLeftStart)
  [⟨.network, command, {}, 5⟩, ⟨.main, smooth, { frame := some farFrame }, 9⟩,
    ⟨.network, command, {}, 50⟩]

/-- A session with an OLED is a run of the process. -/
theorem reaches_oled (orders : List Process.Order) (turns : List Process.Turn)
    (Q : Process → Bool)
    (hQ : Q (turns.foldl (Process.take platform)
      (orders.foldl (Process.obey platform) (accepted oledConfig))) = true) :
    ∃ h p, ProcessRun platform oledConfig h p ∧ Q p = true := by
  obtain ⟨hist, hr⟩ := Process.exists_run_of_orders orders
    (Run.start : ProcessRun platform oledConfig [] (accepted oledConfig))
  obtain ⟨hist', hr'⟩ := Process.exists_run_of_turns turns hr
  exact ⟨hist', _, hr', hQ⟩

/-- The mutex that a thread is about to lock. -/
def wanted (p : Process) (i : Tid) : Option Mutex :=
  match p.pool.threads i with
  | .running (.call (.lock m) _) => some m
  | _ => none

theorem wants_of_wanted {p : Process} {i : Tid} {m : Mutex} (h : wanted p i = some m) :
    p.Wants i m := by
  rw [wanted] at h
  split at h
  · rename_i m' k hi
    cases h
    exact ⟨k, hi⟩
  · cases h

end Session

/-- A target is skipped at the limit, and `main` goes on. -/
theorem no_deadlock_iff_skipped :
    ∃ h p, ProcessRun Session.platform Session.oledConfig h p
      ∧ Session.wanted p .main = some .i2c
      ∧ (EveryState (fun p => ¬ p.Deadlock) h p
        ↔ EveryStep (fun _ p a _ => ¬ p.Crosses a) h p) := by
  obtain ⟨h, p, hr, hp⟩ := Session.reaches_oled Session.toSkipped
    (Session.panAtLimit.take 2) (fun p => Session.wanted p .main = some .i2c)
    (by decide +kernel)
  exact ⟨h, p, hr, of_decide_eq_true hp, no_deadlock_iff hr⟩

/-- `main` holds `TCP_Mutex` and waits for `I2C_Mutex`, which the network thread
    holds while it waits for `TCP_Mutex`. -/
theorem pan_at_limit_deadlocks :
    ∃ h p, ProcessRun Session.platform Session.oledConfig h p ∧ p.Deadlock := by
  obtain ⟨h, p, hr, hp⟩ := Session.reaches_oled Session.toSkipped Session.panAtLimit
    (fun p => decide (Session.wanted p .main = some .i2c)
      && decide (Session.wanted p .network = some .tcp)
      && decide (p.pool.locks .tcp = some (.main, 1))
      && decide (p.pool.locks .i2c = some (.network, 1))) (by decide +kernel)
  simp only [Bool.and_eq_true, decide_eq_true_eq] at hp
  obtain ⟨⟨⟨hmain, hnetwork⟩, htcp⟩, hi2c⟩ := hp
  have hforth : p.WaitsFor .main .network :=
    ⟨by decide, .i2c, by decide, Session.wants_of_wanted hmain, 1, hi2c⟩
  have hback : p.WaitsFor .network .main :=
    ⟨by decide, .tcp, by decide, Session.wants_of_wanted hnetwork, 1, htcp⟩
  exact ⟨h, p, hr, .main, .head hforth (.single hback)⟩

end DemoCannon
