import DemoCannon.Lib.Program

/-! # The calls that a program makes

    `Post` says what holds if a program comes to its end.  `Delivers` says that it
    does, whatever its environment answers within an assumption, and what holds of
    the calls it makes on the way: total correctness, with the calls in view.

    An execution with an environment that keeps to the assumption ends as promised
    (`Delivers.exec`). -/

namespace Interaction

/-- A call, and what was answered. -/
abbrev Answered (ι : Type) (ρ : ι → Type) := (i : ι) × ρ i

namespace Program

variable {σ ι χ α β : Type} {ρ : ι → Type} {A : (i : ι) → ρ i → Prop}

/-- From `s`, with any answers that `A` allows, `p` returns, and its calls, its result
    and the state it leaves satisfy `Q`.  A call that `A` allows no answer to does
    not return. -/
def Delivers (A : (i : ι) → ρ i → Prop) : Program σ ι ρ χ α → σ →
    (List (Answered ι ρ) → α → σ → Prop) → Prop
  | .ret a, s, Q => Q [] a s
  | .atom f k, s, Q => Delivers A (k s) (f s) Q
  | .call i k, s, Q =>
      (∃ r, A i r) ∧ ∀ r, A i r → Delivers A (k r) s fun calls => Q (⟨i, r⟩ :: calls)
  | .exit _, _, _ => False

theorem Delivers.mono {p : Program σ ι ρ χ α} {s : σ}
    {Q R : List (Answered ι ρ) → α → σ → Prop} (h : Delivers A p s Q)
    (hQR : ∀ calls a t, Q calls a t → R calls a t) : Delivers A p s R := by
  induction p generalizing s Q R with
  | ret a => exact hQR [] a s h
  | atom f k ih => exact ih s h hQR
  | call i k ih => exact ⟨h.1, fun r hr => ih r (h.2 r hr) fun calls => hQR (⟨i, r⟩ :: calls)⟩
  | exit x => exact h

/-! ## The rules -/

section Rules

variable {s : σ}

@[simp] theorem delivers_pure (a : α) (Q : List (Answered ι ρ) → α → σ → Prop) :
    Delivers A (pure a : Program σ ι ρ χ α) s Q ↔ Q [] a s := Iff.rfl

@[simp] theorem delivers_fetch (Q : List (Answered ι ρ) → σ → σ → Prop) :
    Delivers A (fetch : Program σ ι ρ χ σ) s Q ↔ Q [] s s := Iff.rfl

@[simp] theorem delivers_update (f : σ → σ) (Q : List (Answered ι ρ) → Unit → σ → Prop) :
    Delivers A (update f : Program σ ι ρ χ Unit) s Q ↔ Q [] () (f s) := Iff.rfl

@[simp] theorem delivers_exit (x : χ) (Q : List (Answered ι ρ) → α → σ → Prop) :
    ¬ Delivers A (.exit x : Program σ ι ρ χ α) s Q := id

/-- Of programs in sequence the first has to return, and its calls come first. -/
theorem delivers_bind (p : Program σ ι ρ χ α) (f : α → Program σ ι ρ χ β)
    (Q : List (Answered ι ρ) → β → σ → Prop) :
    Delivers A (p >>= f) s Q
      ↔ Delivers A p s fun calls a t =>
        Delivers A (f a) t fun calls' => Q (calls ++ calls') := by
  change Delivers A (bind p f) s Q ↔ _
  induction p generalizing s Q with
  | ret a => exact Iff.rfl
  | atom g k ih => exact ih s (Q := Q)
  | call i k ih =>
      exact and_congr_right fun _ => forall₂_congr fun r _ =>
        ih r (Q := fun calls => Q (⟨i, r⟩ :: calls))
  | exit x => exact Iff.rfl

end Rules

/-! ## What a promise is worth -/

section Adequacy

variable {p : Program σ ι ρ χ α} {s : σ} {Q : List (Answered ι ρ) → α → σ → Prop}

/-- It holds at every end. -/
theorem Delivers.postUnder (h : Delivers A p s Q) :
    PostUnder A p s fun a t => ∃ calls, Q calls a t := by
  induction p generalizing s Q with
  | ret a =>
      rintro b t ⟨rfl, rfl⟩
      exact ⟨[], h⟩
  | atom f k ih => exact ih s h
  | call i k ih =>
      rintro a t ⟨r, hr, hk⟩
      obtain ⟨calls, hQ⟩ := ih r (h.2 r hr) a t hk
      exact ⟨⟨i, r⟩ :: calls, hQ⟩
  | exit x => exact fun _ _ hno => hno.elim

/-- There is an end. -/
theorem Delivers.exists_endsUnder (h : Delivers A p s Q) : ∃ a t, EndsUnder A p s a t := by
  induction p generalizing s Q with
  | ret a => exact ⟨a, s, rfl, rfl⟩
  | atom f k ih => exact ih s h
  | call i k ih =>
      obtain ⟨r, hr⟩ := h.1
      obtain ⟨a, t, hk⟩ := ih r (h.2 r hr)
      exact ⟨a, t, r, hr, hk⟩
  | exit x => exact h.elim

/-- An environment that answers what can be answered, and within the assumption, takes
    the program to its end. -/
theorem Delivers.exec {env : (i : ι) → Option (ρ i)} (h : Delivers A p s Q)
    (hsome : ∀ i, (∃ r, A i r) → (env i).isSome) (hA : ∀ i r, env i = some r → A i r) :
    ∃ a t, Program.exec env p s = .done a t ∧ ∃ calls, Q calls a t := by
  induction p generalizing s Q with
  | ret a => exact ⟨a, s, rfl, [], h⟩
  | atom f k ih => exact ih s h
  | call i k ih =>
      obtain ⟨r, hr⟩ := Option.isSome_iff_exists.mp (hsome i h.1)
      obtain ⟨a, t, hexec, calls, hQ⟩ := ih r (h.2 r (hA i r hr))
      refine ⟨a, t, ?_, ⟨i, r⟩ :: calls, hQ⟩
      rw [Program.exec, hr]
      exact hexec
  | exit x => exact h.elim

/-- Promises about one program from one state do not contradict each other. -/
theorem Delivers.exists_both {R : List (Answered ι ρ) → α → σ → Prop} (h : Delivers A p s Q)
    (hR : Delivers A p s R) : ∃ calls a t, Q calls a t ∧ R calls a t := by
  induction p generalizing s Q R with
  | ret a => exact ⟨[], a, s, h, hR⟩
  | atom f k ih => exact ih s h hR
  | call i k ih =>
      obtain ⟨r, hr⟩ := h.1
      obtain ⟨calls, a, t, hboth⟩ := ih r (h.2 r hr) (hR.2 r hr)
      exact ⟨⟨i, r⟩ :: calls, a, t, hboth⟩
  | exit x => exact h.elim

end Adequacy

/-! ## Whatever is answered

    `Asks G p s`: `p` calls for nothing but what `G` holds of, in whatever way it
    goes on. -/

/-- From `s`, with no other thread in between and any answers, every call of `p` is one
    of `G`. -/
def Asks (G : ι → Prop) : Program σ ι ρ χ α → σ → Prop
  | .ret _, _ => True
  | .atom f k, s => Asks G (k s) (f s)
  | .call i k, s => G i ∧ ∀ r, Asks G (k r) s
  | .exit _, _ => True

section Asks

variable {G H : ι → Prop} {s : σ}

theorem asks_bind (p : Program σ ι ρ χ α) (f : α → Program σ ι ρ χ β) :
    Asks G (p >>= f) s ↔ Asks G p s ∧ Post p s fun a t => Asks G (f a) t := by
  change Asks G (bind p f) s ↔ _
  induction p generalizing s with
  | ret a =>
      constructor
      · intro h
        refine ⟨trivial, ?_⟩
        rintro _ _ ⟨rfl, rfl⟩
        exact h
      · rintro ⟨-, h⟩
        exact h a s ⟨rfl, rfl⟩
  | atom g k ih => exact ih s
  | call i k ih =>
      constructor
      · rintro ⟨hi, hk⟩
        refine ⟨⟨hi, fun r => ((ih r).mp (hk r)).1⟩, ?_⟩
        rintro a t ⟨r, hr⟩
        exact ((ih r).mp (hk r)).2 a t hr
      · rintro ⟨⟨hi, hk⟩, hpost⟩
        exact ⟨hi, fun r => (ih r).mpr ⟨hk r, fun a t hr => hpost a t ⟨r, hr⟩⟩⟩
  | exit x => exact ⟨fun _ => ⟨trivial, fun _ _ h => h.elim⟩, fun _ => trivial⟩

theorem Asks.mono {p : Program σ ι ρ χ α} (h : Asks G p s) (hGH : ∀ i, G i → H i) :
    Asks H p s := by
  induction p generalizing s with
  | ret a => trivial
  | atom f k ih => exact ih s h
  | call i k ih => exact ⟨hGH i h.1, fun r => ih r (h.2 r)⟩
  | exit x => trivial

end Asks

end Program

end Interaction
