import DemoCannon.Lib.Calls

/-! # The calls of an execution

    `Performs` is an execution with everything that was called and answered on the way;
    `Calls` says what holds of the calls of every execution that ends.  `record` computes
    an execution from an environment. -/

namespace Interaction

namespace Program

variable {σ ι χ α β γ : Type} {ρ : ι → Type} {A : (i : ι) → ρ i → Prop}

/-- From `s`, with answers that `A` allows, `p` comes to its end with `a` in `t`, and
    `calls` are its calls. -/
def Performs (A : (i : ι) → ρ i → Prop) : Program σ ι ρ χ α → σ →
    List (Answered ι ρ) → α → σ → Prop
  | .ret a, s, calls, b, t => calls = [] ∧ a = b ∧ s = t
  | .atom f k, s, calls, b, t => Performs A (k s) (f s) calls b t
  | .call i k, s, calls, b, t =>
      ∃ r rest, A i r ∧ calls = ⟨i, r⟩ :: rest ∧ Performs A (k r) s rest b t
  | .exit _, _, _, _, _ => False

/-- Whenever `p` comes to its end, `Q` holds of its calls, its result and its state. -/
def Calls (A : (i : ι) → ρ i → Prop) (p : Program σ ι ρ χ α) (s : σ)
    (Q : List (Answered ι ρ) → α → σ → Prop) : Prop :=
  ∀ calls a t, Performs A p s calls a t → Q calls a t

section Rules

variable {s : σ}

theorem Performs.ends {p : Program σ ι ρ χ α} {calls : List (Answered ι ρ)} {a : α} {t : σ}
    (h : Performs A p s calls a t) : Ends p s a t := by
  induction p generalizing s calls with
  | ret b => exact ⟨h.2.1.symm, h.2.2.symm⟩
  | atom f k ih => exact ih s h
  | call i k ih =>
      obtain ⟨r, rest, -, -, hk⟩ := h
      exact ⟨r, ih r hk⟩
  | exit x => exact h

/-- What holds at every end holds at the end of an execution. -/
theorem Calls.of_post {p : Program σ ι ρ χ α} {Q : α → σ → Prop} (h : Post p s Q) :
    Calls A p s fun _ a t => Q a t := fun _ a t hp => h a t hp.ends

theorem Calls.and {p : Program σ ι ρ χ α} {Q R : List (Answered ι ρ) → α → σ → Prop}
    (h : Calls A p s Q) (h' : Calls A p s R) :
    Calls A p s fun calls a t => Q calls a t ∧ R calls a t :=
  fun calls a t hp => ⟨h calls a t hp, h' calls a t hp⟩

theorem Calls.mono {p : Program σ ι ρ χ α} {Q R : List (Answered ι ρ) → α → σ → Prop}
    (h : Calls A p s Q) (hQR : ∀ calls a t, Q calls a t → R calls a t) : Calls A p s R :=
  fun calls a t hp => hQR calls a t (h calls a t hp)

/-- A promise is kept by every execution. -/
theorem Calls.of_delivers {p : Program σ ι ρ χ α} {Q : List (Answered ι ρ) → α → σ → Prop}
    (h : Delivers A p s Q) : Calls A p s Q := by
  induction p generalizing s Q with
  | ret a =>
      rintro calls b t ⟨rfl, rfl, rfl⟩
      exact h
  | atom f k ih => exact ih s h
  | call i k ih =>
      rintro calls a t ⟨r, rest, hr, rfl, hk⟩
      exact ih r (h.2 r hr) rest a t hk
  | exit x => exact fun _ _ _ hno => hno.elim

/-- There is an execution. -/
theorem Delivers.exists_performs {p : Program σ ι ρ χ α} {Q : List (Answered ι ρ) → α → σ → Prop}
    (h : Delivers A p s Q) : ∃ calls a t, Performs A p s calls a t := by
  induction p generalizing s Q with
  | ret a => exact ⟨[], a, s, rfl, rfl, rfl⟩
  | atom f k ih => exact ih s h
  | call i k ih =>
      obtain ⟨r, hr⟩ := h.1
      obtain ⟨calls, a, t, hk⟩ := ih r (h.2 r hr)
      exact ⟨⟨i, r⟩ :: calls, a, t, r, calls, hr, rfl, hk⟩
  | exit x => exact h.elim

/-- The calls are among those that a program makes. -/
theorem Calls.of_asks {G : ι → Prop} {p : Program σ ι ρ χ α} (h : Asks G p s) :
    Calls A p s fun calls _ _ => ∀ e ∈ calls, G e.1 := by
  induction p generalizing s with
  | ret a =>
      rintro calls b t ⟨rfl, -⟩ e he
      cases he
  | atom f k ih => exact ih s h
  | call i k ih =>
      rintro calls a t ⟨r, rest, -, rfl, hk⟩ e he
      rcases List.mem_cons.mp he with rfl | he
      · exact h.1
      · exact ih r (h.2 r) rest a t hk e he
  | exit x => exact fun _ _ _ hno => hno.elim

@[simp] theorem calls_pure (a : α) (Q : List (Answered ι ρ) → α → σ → Prop) :
    Calls A (pure a : Program σ ι ρ χ α) s Q ↔ Q [] a s := by
  constructor
  · exact fun h => h [] a s ⟨rfl, rfl, rfl⟩
  · rintro h calls b t ⟨rfl, rfl, rfl⟩
    exact h

theorem calls_exit (x : χ) (Q : List (Answered ι ρ) → α → σ → Prop) :
    Calls A (.exit x : Program σ ι ρ χ α) s Q := fun _ _ _ hno => hno.elim

theorem calls_ask (i : ι) (Q : List (Answered ι ρ) → ρ i → σ → Prop) :
    Calls A (ask i : Program σ ι ρ χ (ρ i)) s Q ↔ ∀ r, A i r → Q [⟨i, r⟩] r s := by
  constructor
  · exact fun h r hr => h [⟨i, r⟩] r s ⟨r, [], hr, rfl, rfl, rfl, rfl⟩
  · rintro h calls a t ⟨r, rest, hr, rfl, rfl, rfl, rfl⟩
    exact h r hr

/-- An execution of programs in sequence is one of each. -/
theorem performs_bind (p : Program σ ι ρ χ α) (f : α → Program σ ι ρ χ β)
    {calls : List (Answered ι ρ)} {b : β} {t : σ} :
    Performs A (p >>= f) s calls b t
      ↔ ∃ calls' a u rest, Performs A p s calls' a u ∧ Performs A (f a) u rest b t
        ∧ calls = calls' ++ rest := by
  change Performs A (bind p f) s calls b t ↔ _
  induction p generalizing s calls with
  | ret a =>
      constructor
      · exact fun h => ⟨[], a, s, calls, ⟨rfl, rfl, rfl⟩, h, rfl⟩
      · rintro ⟨_, _, _, rest, ⟨rfl, rfl, rfl⟩, h, rfl⟩
        exact h
  | atom g k ih => exact ih s
  | call i k ih =>
      constructor
      · rintro ⟨r, rest, hr, rfl, hk⟩
        obtain ⟨calls', a, u, rest', hp, hf, rfl⟩ := (ih r).mp hk
        exact ⟨⟨i, r⟩ :: calls', a, u, rest', ⟨r, calls', hr, rfl, hp⟩, hf, rfl⟩
      · rintro ⟨_, a, u, rest', ⟨r, calls', hr, rfl, hp⟩, hf, rfl⟩
        exact ⟨r, calls' ++ rest', hr, rfl, (ih r).mpr ⟨calls', a, u, rest', hp, hf, rfl⟩⟩
  | exit x =>
      constructor
      · exact fun h => h.elim
      · rintro ⟨_, _, _, _, h, -⟩
        exact h.elim

theorem calls_bind {p : Program σ ι ρ χ α} {f : α → Program σ ι ρ χ β}
    {Q : List (Answered ι ρ) → β → σ → Prop}
    (h : Calls A p s fun calls a t => Calls A (f a) t fun rest => Q (calls ++ rest)) :
    Calls A (p >>= f) s Q := by
  intro calls b t hp
  obtain ⟨calls', a, u, rest, hfirst, hrest, rfl⟩ := (performs_bind p f).mp hp
  exact h calls' a u hfirst rest b t hrest

end Rules

/-- The execution with the answers of `env`, if it comes to an end. -/
def record (env : (i : ι) → Option (ρ i)) :
    Program σ ι ρ χ α → σ → Option (List (Answered ι ρ) × α × σ)
  | .ret a, s => some ([], a, s)
  | .atom f k, s => record env (k s) (f s)
  | .call i k, s =>
      match env i with
      | none => none
      | some r => (record env (k r) s).map fun e => (⟨i, r⟩ :: e.1, e.2)
  | .exit _, _ => none

theorem performs_of_record {env : (i : ι) → Option (ρ i)} (hA : ∀ i r, env i = some r → A i r)
    {p : Program σ ι ρ χ α} {s t : σ} {calls : List (Answered ι ρ)} {a : α}
    (h : record env p s = some (calls, a, t)) : Performs A p s calls a t := by
  induction p generalizing s calls with
  | ret b =>
      cases h
      exact ⟨rfl, rfl, rfl⟩
  | atom f k ih => exact ih s h
  | call i k ih =>
      rw [record] at h
      cases hr : env i with
      | none => rw [hr] at h; cases h
      | some r =>
          rw [hr] at h
          obtain ⟨⟨rest, b, u⟩, hrest, heq⟩ := Option.map_eq_some_iff.mp h
          cases heq
          exact ⟨r, rest, hA i r hr, rfl, ih r hrest⟩
  | exit x => cases h

end Program

end Interaction
