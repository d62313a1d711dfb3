import DemoCannon.Watch

/-! # Monitors and the mutexes

    A monitor may know which mutexes its thread holds (`Tracks`).  Then it is
    right about them in every run (`Guarded.step`): a mutex is held by at most
    one thread, once, and only by the thread whose monitor says so.  Only `main`
    may leave mutexes locked that its monitor does not know of, when Control-C
    takes it away from its work. -/

namespace DemoCannon

open Interaction Interaction.Program

namespace Locks

variable {locks locks' : Locks} {i j : Tid} {c : Call} {m : Mutex} {n : Nat}

/-- What locking does: the mutex was free, or is held once more. -/
theorem grant_lock {m' : Mutex} (h : locks.grant i (.lock m') = some locks') :
    (∀ m, m ≠ m' → locks' m = locks m)
      ∧ (locks m' = none ∧ locks' m' = some (i, 1)
        ∨ ∃ n, locks m' = some (i, n) ∧ locks' m' = some (i, n + 1)) := by
  rw [grant] at h
  cases hm' : locks m' with
  | none =>
      simp only [hm', Option.some.injEq] at h
      subst h
      exact ⟨fun m hm => if_neg hm, Or.inl ⟨rfl, if_pos rfl⟩⟩
  | some held =>
      obtain ⟨j, n⟩ := held
      simp only [hm'] at h
      by_cases hown : j = i
      · simp only [hown, if_true, Option.some.injEq] at h
        subst h
        exact ⟨fun m hm => if_neg hm, Or.inr ⟨n, by rw [hown], if_pos rfl⟩⟩
      · simp [hown] at h

/-- What unlocking does: nothing to a mutex of another thread. -/
theorem grant_unlock {m' : Mutex} (h : locks.grant i (.unlock m') = some locks') :
    (∀ m, m ≠ m' → locks' m = locks m)
      ∧ ((∀ n, locks m' ≠ some (i, n)) ∧ locks' m' = locks m'
        ∨ ∃ n, locks m' = some (i, n)
          ∧ locks' m' = if n ≤ 1 then none else some (i, n - 1)) := by
  rw [grant] at h
  cases hm' : locks m' with
  | none =>
      simp only [hm', Option.some.injEq] at h
      subst h
      exact ⟨fun _ _ => rfl, Or.inl ⟨by rintro n ⟨⟩, hm'⟩⟩
  | some held =>
      obtain ⟨j, n⟩ := held
      simp only [hm'] at h
      by_cases hown : j = i
      · simp only [hown, if_true, Option.some.injEq] at h
        subst h
        exact ⟨fun m hm => if_neg hm, Or.inr ⟨n, by rw [hown], if_pos rfl⟩⟩
      · simp only [hown, if_false, Option.some.injEq] at h
        subst h
        refine ⟨fun _ _ => rfl, Or.inl ⟨?_, hm'⟩⟩
        rintro n' ⟨⟩
        exact hown rfl

/-- A thread neither takes nor gives up a mutex for another. -/
theorem grant_others (h : locks.grant i c = some locks') (hj : j ≠ i) :
    locks' m = some (j, n) ↔ locks m = some (j, n) := by
  have hne : ∀ n', some (i, n') ≠ some (j, n) := by
    rintro n' ⟨⟩
    exact hj rfl
  cases c with
  | lock m' =>
      obtain ⟨hsame, hm'⟩ := grant_lock h
      by_cases hm : m = m'
      · subst hm
        rcases hm' with ⟨hbefore, hafter⟩ | ⟨n', hbefore, hafter⟩
        · simp [hbefore, hafter, hne]
        · simp [hbefore, hafter, hne]
      · rw [hsame m hm]
  | unlock m' =>
      obtain ⟨hsame, hm'⟩ := grant_unlock h
      by_cases hm : m = m'
      · subst hm
        rcases hm' with ⟨-, hafter⟩ | ⟨n', hbefore, hafter⟩
        · rw [hafter]
        · rw [hbefore, hafter]
          by_cases hlast : n' ≤ 1
          · simp [hlast, hne]
          · simp [hlast, hne]
      · rw [hsame m hm]
  | sslWrite | sslRead | auditLine | condSignal | pthreadCreate | fopenIni | fopenLog | never =>
      cases h
      rfl

/-- The thread holds those of the mutexes `S` that it is said to. -/
def Agree (S holds : Mutex → Prop) (locks : Locks) (i : Tid) : Prop :=
  ∀ m n, S m → (locks m = some (i, n) ↔ n = 1 ∧ holds m)

end Locks

variable {κ : Type}

/-- The monitor knows which of the mutexes `S` its thread holds, none of them
    twice. -/
structure Tracks (M : Watch κ) (S : Mutex → Prop) (holds : κ → Mutex → Prop) : Prop where
  atom (w : κ) (s t : Server) {m : Mutex} : S m → (holds (M.atom w s t) m ↔ holds w m)
  lock {w w' : κ} {m' : Mutex} {r : Call.Answer (.lock m')} :
    M.call w (.lock m') r = some w' → ∀ m, S m →
      (m = m' → ¬ holds w m) ∧ (holds w' m ↔ m = m' ∨ holds w m)
  unlock {w w' : κ} {m' : Mutex} {r : Call.Answer (.unlock m')} :
    M.call w (.unlock m') r = some w' → ∀ m, S m →
      (m = m' → holds w m) ∧ (holds w' m ↔ m ≠ m' ∧ holds w m)
  other {w w' : κ} {c : Call} {r : c.Answer} :
    (∀ m, c ≠ .lock m) → (∀ m, c ≠ .unlock m) → M.call w c r = some w' →
      ∀ m, S m → (holds w' m ↔ holds w m)

theorem Tracks.grant {M : Watch κ} {S : Mutex → Prop} {holds : κ → Mutex → Prop}
    (hM : Tracks M S holds) {locks locks' : Locks} {i : Tid} {c : Call} {r : c.Answer}
    {w w' : κ} (hw : Locks.Agree S (holds w) locks i)
    (h : locks.grant i c = some locks') (hcall : M.call w c r = some w') :
    Locks.Agree S (holds w') locks' i := by
  intro m n hm
  cases c with
  | lock m' =>
      obtain ⟨hnot, hholds⟩ := hM.lock hcall m hm
      obtain ⟨hsame, hm'⟩ := Locks.grant_lock h
      rw [hholds]
      by_cases hmm : m = m'
      · subst hmm
        rcases hm' with ⟨hbefore, hafter⟩ | ⟨n', hbefore, hafter⟩
        · rw [hafter]
          simp [eq_comm]
        · exact absurd ((hw m n' hm).mp hbefore).2 (hnot rfl)
      · rw [hsame m hmm, hw m n hm]
        simp [hmm]
  | unlock m' =>
      obtain ⟨hmem, hholds⟩ := hM.unlock hcall m hm
      obtain ⟨hsame, hm'⟩ := Locks.grant_unlock h
      rw [hholds]
      by_cases hmm : m = m'
      · subst hmm
        have hheld : locks m = some (i, 1) := (hw m 1 hm).mpr ⟨rfl, hmem rfl⟩
        rcases hm' with ⟨hbefore, -⟩ | ⟨n', hbefore, hafter⟩
        · exact absurd hheld (hbefore 1)
        · rw [hbefore] at hheld
          cases hheld
          simp [hafter]
      · rw [hsame m hmm, hw m n hm]
        simp [hmm]
  | sslWrite | sslRead | auditLine | condSignal | pthreadCreate | fopenIni | fopenLog | never =>
      cases h
      rw [hM.other (by rintro _ ⟨⟩) (by rintro _ ⟨⟩) hcall m hm]
      exact hw m n hm

namespace Process

/-- The threads follow the monitor, which is right about the mutexes `S`. -/
structure Guarded (M : Watch κ) (first : κ) (idle : Tid → Bool → κ → Prop)
    (S : Mutex → Prop) (holds : κ → Mutex → Prop) (p : Process) (w : Tid → κ) : Prop where
  watched : p.Watched M first idle w
  agree (i : Tid) : (i = .main → ¬ p.phase.Closing) →
    Locks.Agree S (holds (w i)) p.pool.locks i

variable {P : Platform} {M : Watch κ} {first off : κ} {idle : Tid → Bool → κ → Prop}
  {S : Mutex → Prop} {holds : κ → Mutex → Prop} {p q : Process} {a : Tick} {w : Tid → κ}

theorem guarded_accepted (R : Rounds P M first off idle)
    (hfirst : ∀ m, S m → ¬ holds first m) (c : Config) :
    (accepted c).Guarded M first idle S holds fun _ => first where
  watched := watched_accepted R c
  agree i _ m n hm := by
    constructor
    · rintro ⟨⟩
    · rintro ⟨-, h⟩
      exact absurd h (hfirst m hm)

/-- **The step lemma.** -/
theorem Guarded.step (R : Rounds P M first off idle) (hM : Tracks M S holds)
    (hp : p.Guarded M first idle S holds w) (hst : Step P p a q)
    (hassumed : Assumed M w a) (hrelies : ∀ i, M.relies (w i) p.server) :
    q.Guarded M first idle S holds (p.advance M off w a) := by
  refine ⟨hp.watched.step R hst hassumed hrelies, ?_⟩
  intro i hmain
  have hold : Locks.Agree S (holds (w i)) p.pool.locks i := hp.agree i fun h hclosing =>
    hmain h (hst.closing hclosing)
  cases hst with
  | @step l pool hrun hst =>
      change Locks.Agree S (holds (p.pool.advance M w l i)) pool.locks i
      by_cases hi : i = l.thread
      · subst hi
        cases hst with
        | @atom i f k hi =>
            rw [Pool.advance_atom hi, show (Pool.Label.atom i).thread = i from rfl,
              Function.update_self]
            intro m n hm
            rw [hM.atom _ _ _ hm]
            exact hold m n hm
        | @call i c k locks r hi hlocks =>
            obtain ⟨w', hcall, -⟩ := hp.watched.of_running hi (by rintro _ ⟨⟩) r hassumed
            rw [Pool.advance_call hcall, show (Pool.Label.call i c r).thread = i from rfl,
              Function.update_self]
            exact hM.grant hold hlocks hcall
      · rw [Pool.advance_of_ne hi]
        cases hst with
        | atom hi => exact hold
        | call r _ hlocks =>
            intro m n hm
            rw [Locks.grant_others hlocks hi]
            exact hold m n hm
  | halt hrun _ | spuriousWakeup hrun _ _ | controlC hrun _ _ | cancelled hrun _
  | heartBeat hrun _ _ => exact hold
  | goOn input hrun hj hq =>
      rw [(goOn_frame hq).2.1]
      exact hold
  | @joined cause j hrun hphase hj =>
      cases j with
      | network | engagement => exact hold
      | heartBeat | main =>
          have hne : i ≠ .main := fun h => hmain h trivial
          change Locks.Agree S (holds (Function.update w .main off i)) p.pool.locks i
          rw [Function.update_of_ne hne]
          exact hold

/-- The thread runs its program, and is not `main` in its last part. -/
theorem Guarded.agree_of_running (hp : p.Guarded M first idle S holds w) {i : Tid}
    {rest : Prog Bool} (hi : p.pool.threads i = .running rest)
    (hrest : ∀ again, rest ≠ .ret again) (hoff : ∀ cause, p.phase ≠ .switchingOff cause) :
    Locks.Agree S (holds (w i)) p.pool.locks i := by
  refine hp.agree i ?_
  rintro rfl hclosing
  cases hphase : p.phase with
  | starting | creatingNetwork | creatingEngagement | looping =>
      rw [hphase] at hclosing
      exact hclosing
  | joining cause j =>
      obtain ⟨again, h⟩ := hp.watched.joining rest ⟨cause, j, hphase⟩ hi
      exact hrest again h
  | switchingOff cause => exact hoff cause hphase

end Process

end DemoCannon
