import DemoCannon.Lib.Program
import DemoCannon.Lib.Run

/-! # Threads over a shared state

    A pool of threads, each with the rest of its program, takes turns in single
    steps.  A discipline says which thread may make which call when: it holds
    the locks, say, and a call that takes one is granted only while nobody else
    has it.

    A thread that is alone for a while runs its program as `Ends` has it
    (`Pool.steps_of_alone`), whatever the discipline. -/

namespace Interaction

open Program Relation

/-- What a thread has still to do. -/
inductive Thread (σ ι : Type) (ρ : ι → Type) (χ α : Type) where
  | notCreated
  | running (rest : Program σ ι ρ χ α)
  | stopped

/-- Threads, what they share, and where the discipline stands. -/
structure Pool (τ σ ι : Type) (ρ : ι → Type) (χ α δ : Type) where
  shared : σ
  locks : δ
  threads : τ → Thread σ ι ρ χ α

namespace Pool

variable {τ σ ι χ α δ : Type} {ρ : ι → Type} [DecidableEq τ]

/-- Put a thread into another state. -/
def set (p : Pool τ σ ι ρ χ α δ) (i : τ) (t : Thread σ ι ρ χ α) :
    Pool τ σ ι ρ χ α δ :=
  { p with threads := fun j => if j = i then t else p.threads j }

@[simp] theorem set_threads_self (p : Pool τ σ ι ρ χ α δ) (i : τ)
    (t : Thread σ ι ρ χ α) : (p.set i t).threads i = t := if_pos rfl

theorem set_threads_of_ne {p : Pool τ σ ι ρ χ α δ} {i j : τ}
    {t : Thread σ ι ρ χ α} (h : j ≠ i) : (p.set i t).threads j = p.threads j :=
  if_neg h

/-- Putting a thread into another state takes none back to where it was before its
    creation. -/
theorem notCreated_of_set {p : Pool τ σ ι ρ χ α δ} {i j : τ} {t : Thread σ ι ρ χ α}
    (ht : t ≠ .notCreated) (h : (p.set i t).threads j = .notCreated) :
    p.threads j = .notCreated := by
  by_cases hj : j = i
  · subst hj
    exact absurd ((set_threads_self ..).symm.trans h) ht
  · exact (set_threads_of_ne hj).symm.trans h

/-- What is seen of a step. -/
inductive Label (τ ι : Type) (ρ : ι → Type) where
  /-- A thread reads and writes the shared state. -/
  | atom (i : τ)
  /-- A call of a thread is answered. -/
  | call (i : τ) (c : ι) (r : ρ c)

/-- The thread that takes the step. -/
def Label.thread : Label τ ι ρ → τ
  | .atom i => i
  | .call i _ _ => i

/-- One step of one thread.  `grant` is the discipline: whether a thread may
    make a call, and where the discipline stands afterwards. -/
inductive Step (grant : δ → τ → ι → Option δ) (p : Pool τ σ ι ρ χ α δ) :
    Label τ ι ρ → Pool τ σ ι ρ χ α δ → Prop where
  | atom {i : τ} {f : σ → σ} {k : σ → Program σ ι ρ χ α}
      (hi : p.threads i = .running (.atom f k)) :
      Step grant p (.atom i)
        { p.set i (.running (k p.shared)) with shared := f p.shared }
  | call {i : τ} {c : ι} {k : ρ c → Program σ ι ρ χ α} {locks : δ} (r : ρ c)
      (hi : p.threads i = .running (.call c k))
      (hlocks : grant p.locks i c = some locks) :
      Step grant p (.call i c r) { p.set i (.running (k r)) with locks := locks }

variable {grant : δ → τ → ι → Option δ} {p q : Pool τ σ ι ρ χ α δ}
  {a : Label τ ι ρ}

/-- A step is one of the program of its thread. -/
theorem Step.program (h : Step grant p a q) :
    ∃ rest rest', p.threads a.thread = .running rest
      ∧ q.threads a.thread = .running rest'
      ∧ Program.Step (rest, p.shared) (rest', q.shared) := by
  cases h with
  | atom hi => exact ⟨_, _, hi, set_threads_self .., .atom ..⟩
  | call r hi hlocks => exact ⟨_, _, hi, set_threads_self .., .call ..⟩

/-- A step leaves the other threads where they are. -/
theorem Step.others (h : Step grant p a q) {j : τ} (hj : j ≠ a.thread) :
    q.threads j = p.threads j := by
  cases h with
  | atom hi => exact set_threads_of_ne hj
  | call r hi hlocks => exact set_threads_of_ne hj

/-- **A thread that is alone runs its program.** -/
theorem steps_of_alone {i : τ} {rest : Program σ ι ρ χ α}
    (hp : p.threads i = .running rest)
    {h : List (Pool τ σ ι ρ χ α δ × Label τ ι ρ)}
    (hr : Run (Step grant) p h q) (halone : ∀ x ∈ h, x.2.thread = i) :
    ∃ rest', q.threads i = .running rest'
      ∧ ReflTransGen Program.Step (rest, p.shared) (rest', q.shared) := by
  induction hr with
  | start => exact ⟨rest, hp, .refl⟩
  | @snoc h s t a _ hst ih =>
      obtain ⟨mid, hmid, hsteps⟩ := ih fun x hx => halone x (List.mem_cons_of_mem _ hx)
      obtain ⟨rest₁, rest₂, h₁, h₂, hstep⟩ := hst.program
      rw [halone (s, a) (List.mem_cons_self ..)] at h₁ h₂
      -- the step takes the program on from where the steps before left it
      obtain rfl : mid = rest₁ := Thread.running.inj (hmid.symm.trans h₁)
      exact ⟨rest₂, h₂, hsteps.tail hstep⟩

/-- A thread that was alone from the start of a program to its end has run
    it. -/
theorem ends_of_alone {i : τ} {prog : Program σ ι ρ χ α} {b : α}
    (hp : p.threads i = .running prog) (hq : q.threads i = .running (.ret b))
    {h : List (Pool τ σ ι ρ χ α δ × Label τ ι ρ)}
    (hr : Run (Step grant) p h q) (halone : ∀ x ∈ h, x.2.thread = i) :
    Ends prog p.shared b q.shared := by
  obtain ⟨rest, hrest, hsteps⟩ := steps_of_alone hp hr halone
  obtain rfl : Program.ret b = rest := Thread.running.inj (hq.symm.trans hrest)
  exact (ends_iff_steps prog p.shared b q.shared).mpr hsteps

/-! ## Steps with a fixed environment -/

/-- The step of thread `i`, its calls answered by `env`. -/
def next (grant : δ → τ → ι → Option δ) (env : (c : ι) → Option (ρ c))
    (p : Pool τ σ ι ρ χ α δ) (i : τ) : Option (Pool τ σ ι ρ χ α δ) :=
  match p.threads i with
  | .running (.atom f k) =>
      some { p.set i (.running (k p.shared)) with shared := f p.shared }
  | .running (.call c k) =>
      match env c, grant p.locks i c with
      | some r, some locks =>
          some { p.set i (.running (k r)) with locks := locks }
      | _, _ => none
  | _ => none

/-- What is seen of that step. -/
def nextLabel (env : (c : ι) → Option (ρ c)) (p : Pool τ σ ι ρ χ α δ) (i : τ) :
    Option (Label τ ι ρ) :=
  match p.threads i with
  | .running (.atom _ _) => some (.atom i)
  | .running (.call c _) => (env c).map (.call i c)
  | _ => none

theorem step_of_next {env : (c : ι) → Option (ρ c)} {i : τ}
    (h : next grant env p i = some q) :
    ∃ a, nextLabel env p i = some a ∧ a.thread = i ∧ Step grant p a q := by
  rw [next] at h
  split at h
  · rename_i f k hi
    cases h
    exact ⟨.atom i, by rw [nextLabel, hi], rfl, .atom hi⟩
  · rename_i c k hi
    split at h
    · rename_i r locks hr hlocks
      cases h
      have hlabel : nextLabel env p i = some (.call i c r) := by
        rw [nextLabel, hi]
        exact congrArg (Option.map _) hr
      exact ⟨.call i c r, hlabel, rfl, .call r hi hlocks⟩
    · cases h
  · cases h

end Pool

end Interaction
