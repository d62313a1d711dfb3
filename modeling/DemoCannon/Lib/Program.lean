import Mathlib.Logic.Relation

/-! # Programs over a shared state

    A thread of a multi-threaded program is a tree: it accesses the shared
    state in indivisible steps, it calls its environment and branches on the
    answer, and it ends by returning or by ending the whole process.  The
    environment is every answer at once, so a tree describes what the thread
    does whatever its calls return.

    Two readings are given and connected.  `Ends` and `Exits` run a program to
    its end with no other thread in between; `Step` is one indivisible step,
    for the interleavings.  `ends_iff_steps` and `exits_iff_steps` say that
    the first is a run of the second. -/

namespace Interaction

/-- A program over the shared state `σ`, calling its environment with
    requests `ι` answered in `ρ`; it returns in `α` or ends the process
    with `χ`. -/
inductive Program (σ ι : Type) (ρ : ι → Type) (χ α : Type) where
  /-- The program is over. -/
  | ret (a : α)
  /-- One indivisible access: write by `f`, then go on from what was there. -/
  | atom (f : σ → σ) (k : σ → Program σ ι ρ χ α)
  /-- Ask the environment and go on from its answer. -/
  | call (i : ι) (k : ρ i → Program σ ι ρ χ α)
  /-- End the process, whatever the other threads are doing. -/
  | exit (x : χ)

namespace Program

variable {σ ι χ α β γ : Type} {ρ : ι → Type}

/-- Run `p`, then what `f` makes of its result. -/
def bind (p : Program σ ι ρ χ α) (f : α → Program σ ι ρ χ β) :
    Program σ ι ρ χ β :=
  match p with
  | .ret a => f a
  | .atom g k => .atom g (fun s => bind (k s) f)
  | .call i k => .call i (fun r => bind (k r) f)
  | .exit x => .exit x

instance : Monad (Program σ ι ρ χ) where
  pure := .ret
  bind := .bind

/-- Read the shared state. -/
def fetch : Program σ ι ρ χ σ := .atom id .ret

/-- Write the shared state. -/
def update (f : σ → σ) : Program σ ι ρ χ Unit := .atom f (fun _ => .ret ())

/-- Ask the environment. -/
def ask (i : ι) : Program σ ι ρ χ (ρ i) := .call i .ret

/-- Sequences can be regrouped. -/
theorem bind_assoc (p : Program σ ι ρ χ α) (f : α → Program σ ι ρ χ β)
    (g : β → Program σ ι ρ χ γ) : p >>= f >>= g = p >>= fun a => f a >>= g := by
  change bind (bind p f) g = bind p fun a => bind (f a) g
  induction p with
  | ret a => rfl
  | atom u k ih => exact congrArg (Program.atom u) (funext ih)
  | call i k ih => exact congrArg (Program.call i) (funext ih)
  | exit x => rfl

theorem bind_pure (p : Program σ ι ρ χ α) : p >>= pure = p := by
  change bind p Program.ret = p
  induction p with
  | ret a => rfl
  | atom u k ih => exact congrArg (Program.atom u) (funext ih)
  | call i k ih => exact congrArg (Program.call i) (funext ih)
  | exit x => rfl

/-! ## Running a program alone -/

/-- `Ends p s a t`: from `s`, with no other thread in between and some answers
    of the environment, `p` returns `a` and leaves `t`. -/
def Ends : Program σ ι ρ χ α → σ → α → σ → Prop
  | .ret a, s, b, t => b = a ∧ t = s
  | .atom f k, s, b, t => Ends (k s) (f s) b t
  | .call _ k, s, b, t => ∃ r, Ends (k r) s b t
  | .exit _, _, _, _ => False

/-- `Exits p s x t`: from `s`, with no other thread in between and some
    answers of the environment, `p` ends the process with `x` in state `t`. -/
def Exits : Program σ ι ρ χ α → σ → χ → σ → Prop
  | .ret _, _, _, _ => False
  | .atom f k, s, y, t => Exits (k s) (f s) y t
  | .call _ k, s, y, t => ∃ r, Exits (k r) s y t
  | .exit x, s, y, t => y = x ∧ t = s

@[simp] theorem ends_ask (i : ι) (r : ρ i) (s t : σ) :
    Ends (ask i : Program σ ι ρ χ (ρ i)) s r t ↔ t = s := by
  constructor
  · rintro ⟨r', -, ht⟩
    exact ht
  · intro ht
    exact ⟨r, rfl, ht⟩

theorem ends_bind (p : Program σ ι ρ χ α) (f : α → Program σ ι ρ χ β)
    (s t : σ) (b : β) :
    Ends (p >>= f) s b t ↔ ∃ a m, Ends p s a m ∧ Ends (f a) m b t := by
  -- on the tree `p`; the state moves on with it
  change Ends (bind p f) s b t ↔ _
  induction p generalizing s with
  | ret a =>
      constructor
      · intro h
        exact ⟨a, s, ⟨rfl, rfl⟩, h⟩
      · rintro ⟨a', m, ⟨rfl, rfl⟩, h⟩
        exact h
  | atom g k ih => exact ih s (g s)
  | call i k ih =>
      constructor
      · rintro ⟨r, hr⟩
        obtain ⟨a, m, hp, hf⟩ := (ih r s).mp hr
        exact ⟨a, m, ⟨r, hp⟩, hf⟩
      · rintro ⟨a, m, ⟨r, hp⟩, hf⟩
        exact ⟨r, (ih r s).mpr ⟨a, m, hp, hf⟩⟩
  | exit x =>
      constructor
      · intro h
        exact h.elim
      · rintro ⟨_, _, h, _⟩
        exact h.elim

theorem exits_bind (p : Program σ ι ρ χ α) (f : α → Program σ ι ρ χ β)
    (s t : σ) (x : χ) :
    Exits (p >>= f) s x t
      ↔ Exits p s x t ∨ ∃ a m, Ends p s a m ∧ Exits (f a) m x t := by
  change Exits (bind p f) s x t ↔ _
  induction p generalizing s with
  | ret a =>
      constructor
      · intro h
        exact Or.inr ⟨a, s, ⟨rfl, rfl⟩, h⟩
      · rintro (h | ⟨a', m, ⟨rfl, rfl⟩, h⟩)
        · exact h.elim
        · exact h
  | atom g k ih => exact ih s (g s)
  | call i k ih =>
      constructor
      · rintro ⟨r, hr⟩
        rcases (ih r s).mp hr with hp | ⟨a, m, hp, hf⟩
        · exact Or.inl ⟨r, hp⟩
        · exact Or.inr ⟨a, m, ⟨r, hp⟩, hf⟩
      · rintro (⟨r, hp⟩ | ⟨a, m, ⟨r, hp⟩, hf⟩)
        · exact ⟨r, (ih r s).mpr (Or.inl hp)⟩
        · exact ⟨r, (ih r s).mpr (Or.inr ⟨a, m, hp, hf⟩)⟩
  | exit y =>
      constructor
      · intro h
        exact Or.inl h
      · rintro (h | ⟨_, _, h, _⟩)
        · exact h
        · exact h.elim

/-! ## Postconditions

    `Post p s Q`: every end of `p` from `s` satisfies `Q`.  The rules take a
    program apart from its first statement on. -/

/-- Partial correctness of a program run alone from `s`. -/
def Post (p : Program σ ι ρ χ α) (s : σ) (Q : α → σ → Prop) : Prop :=
  ∀ a t, Ends p s a t → Q a t

theorem Post.mono {p : Program σ ι ρ χ α} {s : σ} {Q R : α → σ → Prop}
    (h : Post p s Q) (hQR : ∀ a t, Q a t → R a t) : Post p s R :=
  fun a t he => hQR a t (h a t he)

@[simp] theorem post_pure (a : α) (s : σ) (Q : α → σ → Prop) :
    Post (pure a : Program σ ι ρ χ α) s Q ↔ Q a s := by
  constructor
  · intro h
    exact h a s ⟨rfl, rfl⟩
  · rintro h _ _ ⟨rfl, rfl⟩
    exact h

@[simp] theorem post_fetch (s : σ) (Q : σ → σ → Prop) :
    Post (fetch : Program σ ι ρ χ σ) s Q ↔ Q s s := by
  constructor
  · intro h
    exact h s s ⟨rfl, rfl⟩
  · rintro h _ _ ⟨rfl, rfl⟩
    exact h

@[simp] theorem post_update (f : σ → σ) (s : σ) (Q : Unit → σ → Prop) :
    Post (update f : Program σ ι ρ χ Unit) s Q ↔ Q () (f s) := by
  constructor
  · intro h
    exact h () (f s) ⟨rfl, rfl⟩
  · rintro h _ _ ⟨rfl, rfl⟩
    exact h

@[simp] theorem post_ask (i : ι) (s : σ) (Q : ρ i → σ → Prop) :
    Post (ask i : Program σ ι ρ χ (ρ i)) s Q ↔ ∀ r, Q r s := by
  constructor
  · intro h r
    exact h r s ((ends_ask i r s s).mpr rfl)
  · intro h r t ht
    rw [(ends_ask i r s t).mp ht]
    exact h r

@[simp] theorem post_exit (x : χ) (s : σ) (Q : α → σ → Prop) :
    Post (.exit x : Program σ ι ρ χ α) s Q ↔ True :=
  ⟨fun _ => trivial, fun _ _ _ h => h.elim⟩

@[simp] theorem post_bind (p : Program σ ι ρ χ α) (f : α → Program σ ι ρ χ β)
    (s : σ) (Q : β → σ → Prop) :
    Post (p >>= f) s Q ↔ Post p s (fun a t => Post (f a) t Q) := by
  constructor
  · intro h a m hp b t hf
    exact h b t ((ends_bind p f s t b).mpr ⟨a, m, hp, hf⟩)
  · intro h b t hb
    obtain ⟨a, m, hp, hf⟩ := (ends_bind p f s t b).mp hb
    exact h a m hp b t hf

theorem Post.and {p : Program σ ι ρ χ α} {s : σ} {Q R : α → σ → Prop}
    (hQ : Post p s Q) (hR : Post p s R) :
    Post p s (fun a t => Q a t ∧ R a t) :=
  fun a t he => ⟨hQ a t he, hR a t he⟩

/-! ## Assumptions on the environment

    `EndsUnder A`: as `Ends`, with every answer of the environment one that `A`
    allows.  `PostUnder A` is the postcondition that goes with it. -/

/-- `p` ends from `s` with answers that `A` allows. -/
def EndsUnder (A : (i : ι) → ρ i → Prop) : Program σ ι ρ χ α → σ → α → σ → Prop
  | .ret a, s, b, t => b = a ∧ t = s
  | .atom f k, s, b, t => EndsUnder A (k s) (f s) b t
  | .call i k, s, b, t => ∃ r, A i r ∧ EndsUnder A (k r) s b t
  | .exit _, _, _, _ => False

section Under

variable {A : (i : ι) → ρ i → Prop}

theorem EndsUnder.ends {p : Program σ ι ρ χ α} {s t : σ} {a : α}
    (h : EndsUnder A p s a t) : Ends p s a t := by
  induction p generalizing s with
  | ret b => exact h
  | atom f k ih => exact ih s h
  | call i k ih =>
      obtain ⟨r, -, hr⟩ := h
      exact ⟨r, ih r hr⟩
  | exit x => exact h.elim

/-- Every end is one under no assumption. -/
theorem Ends.under {p : Program σ ι ρ χ α} {s t : σ} {a : α} (h : Ends p s a t) :
    EndsUnder (fun _ _ => True) p s a t := by
  induction p generalizing s with
  | ret b => exact h
  | atom f k ih => exact ih s h
  | call i k ih =>
      obtain ⟨r, hr⟩ := h
      exact ⟨r, trivial, ih r hr⟩
  | exit x => exact h.elim

theorem endsUnder_bind (p : Program σ ι ρ χ α) (f : α → Program σ ι ρ χ β)
    (s t : σ) (b : β) :
    EndsUnder A (p >>= f) s b t
      ↔ ∃ a m, EndsUnder A p s a m ∧ EndsUnder A (f a) m b t := by
  change EndsUnder A (bind p f) s b t ↔ _
  induction p generalizing s with
  | ret a =>
      constructor
      · intro h
        exact ⟨a, s, ⟨rfl, rfl⟩, h⟩
      · rintro ⟨a', m, ⟨rfl, rfl⟩, h⟩
        exact h
  | atom g k ih => exact ih s (g s)
  | call i k ih =>
      constructor
      · rintro ⟨r, hA, hr⟩
        obtain ⟨a, m, hp, hf⟩ := (ih r s).mp hr
        exact ⟨a, m, ⟨r, hA, hp⟩, hf⟩
      · rintro ⟨a, m, ⟨r, hA, hp⟩, hf⟩
        exact ⟨r, hA, (ih r s).mpr ⟨a, m, hp, hf⟩⟩
  | exit x =>
      constructor
      · intro h
        exact h.elim
      · rintro ⟨_, _, h, _⟩
        exact h.elim

/-- Partial correctness of a program run alone from `s`, under `A`. -/
def PostUnder (A : (i : ι) → ρ i → Prop) (p : Program σ ι ρ χ α) (s : σ)
    (Q : α → σ → Prop) : Prop :=
  ∀ a t, EndsUnder A p s a t → Q a t

/-- What holds whatever the environment answers holds under an assumption. -/
theorem Post.under {p : Program σ ι ρ χ α} {s : σ} {Q : α → σ → Prop}
    (h : Post p s Q) : PostUnder A p s Q := fun a t he => h a t he.ends

theorem PostUnder.mono {p : Program σ ι ρ χ α} {s : σ} {Q R : α → σ → Prop}
    (h : PostUnder A p s Q) (hQR : ∀ a t, Q a t → R a t) : PostUnder A p s R :=
  fun a t he => hQR a t (h a t he)

theorem PostUnder.ask {i : ι} {s : σ} {Q : ρ i → σ → Prop} (h : ∀ r, A i r → Q r s) :
    PostUnder A (ask i : Program σ ι ρ χ (ρ i)) s Q := by
  rintro a t ⟨_, hA, rfl, rfl⟩
  exact h a hA

theorem PostUnder.bind {p : Program σ ι ρ χ α} {f : α → Program σ ι ρ χ β}
    {s : σ} {Q : β → σ → Prop}
    (h : PostUnder A p s fun a t => PostUnder A (f a) t Q) :
    PostUnder A (p >>= f) s Q := by
  intro b t hb
  obtain ⟨a, m, hp, hf⟩ := (endsUnder_bind p f s t b).mp hb
  exact h a m hp b t hf

end Under

/-- Whatever the state, the result of `p` satisfies `R`. -/
def Returns (R : α → Prop) (p : Program σ ι ρ χ α) : Prop :=
  ∀ s, Post p s (fun a _ => R a)

theorem Returns.pure {R : α → Prop} {a : α} (h : R a) :
    Returns R (Pure.pure a : Program σ ι ρ χ α) :=
  fun s => (post_pure a s _).mpr h

/-- Only the last program in a sequence decides about the result. -/
theorem Returns.bind {R : β → Prop} {p : Program σ ι ρ χ α}
    {f : α → Program σ ι ρ χ β} (h : ∀ a, Returns R (f a)) :
    Returns R (p >>= f) := by
  intro s
  rw [post_bind]
  intro a m _
  exact h a m

theorem Returns.seq {Q : α → Prop} {R : β → Prop} {p : Program σ ι ρ χ α}
    {f : α → Program σ ι ρ χ β} (hp : Returns Q p)
    (hf : ∀ a, Q a → Returns R (f a)) : Returns R (p >>= f) := by
  intro s
  rw [post_bind]
  refine (hp s).mono ?_
  intro a m ha
  exact hf a ha m

theorem Returns.ite {R : α → Prop} {c : Prop} [Decidable c]
    {p q : Program σ ι ρ χ α} (hp : Returns R p) (hq : Returns R q) :
    Returns R (if c then p else q) := by
  by_cases h : c
  · rw [if_pos h]; exact hp
  · rw [if_neg h]; exact hq

/-! ## Programs seen through a projection

    `Acts π f p`: whatever `p` does to the rest of the state, on the
    projection `π` it acts as the function `f`. -/

/-- Every end of `p` changes the projection `π` of the state by `f`. -/
def Acts (π : σ → γ) (f : γ → γ) (p : Program σ ι ρ χ α) : Prop :=
  ∀ s, Post p s (fun _ t => π t = f (π s))

/-- Every end of `p` leaves the projection `π` of the state alone. -/
abbrev Keeps (π : σ → γ) (p : Program σ ι ρ χ α) : Prop := Acts π id p

variable {π : σ → γ} {f g : γ → γ}

theorem Acts.pure (a : α) : Keeps π (Pure.pure a : Program σ ι ρ χ α) :=
  fun s => (post_pure a s _).mpr rfl

theorem Acts.ask (i : ι) : Keeps π (Program.ask i : Program σ ι ρ χ (ρ i)) :=
  fun s => (post_ask i s _).mpr (fun _ => rfl)

/-- A program that does not come back has no end to speak of. -/
theorem Acts.exit (x : χ) : Acts π f (.exit x : Program σ ι ρ χ α) :=
  fun s => (post_exit x s _).mpr trivial

theorem Acts.update {u : σ → σ} (h : ∀ s, π (u s) = f (π s)) :
    Acts π f (Program.update u : Program σ ι ρ χ Unit) :=
  fun s => (post_update u s _).mpr (h s)

/-- Programs in sequence compose their actions. -/
theorem Acts.bind {p : Program σ ι ρ χ α} {q : α → Program σ ι ρ χ β}
    (hp : Acts π f p) (hq : ∀ a, Acts π g (q a)) : Acts π (g ∘ f) (p >>= q) := by
  intro s
  rw [post_bind]
  refine (hp s).mono ?_
  intro a m hm
  refine (hq a m).mono ?_
  intro _ t ht
  rw [ht, hm]
  rfl

/-- Reading the state first: the rest may depend on what was read. -/
theorem Acts.fetch {k : σ → Program σ ι ρ χ α}
    (h : ∀ s, Post (k s) s (fun _ t => π t = f (π s))) :
    Acts π f (Program.fetch >>= k) := by
  intro s
  rw [post_bind, post_fetch]
  exact h s

/-- A test of the projection chooses between two actions. -/
theorem Acts.test (c : γ → Prop) [DecidablePred c]
    {p q : σ → Program σ ι ρ χ α} (hp : ∀ s, Acts π f (p s))
    (hq : ∀ s, Acts π g (q s)) :
    Acts π (fun x => if c x then f x else g x)
      (Program.fetch >>= fun s => if c (π s) then p s else q s) := by
  refine Acts.fetch ?_
  intro s
  by_cases h : c (π s)
  · rw [if_pos h, if_pos h]; exact hp s s
  · rw [if_neg h, if_neg h]; exact hq s s

/-- Reading the state for what does not matter to the projection. -/
theorem Acts.read {k : σ → Program σ ι ρ χ α} (h : ∀ s, Acts π f (k s)) :
    Acts π f (Program.fetch >>= k) :=
  Acts.fetch (fun s => h s s)

theorem Acts.ite {c : Prop} [Decidable c] {p q : Program σ ι ρ χ α}
    (hp : Acts π f p) (hq : Acts π f q) : Acts π f (if c then p else q) := by
  by_cases h : c
  · rw [if_pos h]; exact hp
  · rw [if_neg h]; exact hq

theorem Acts.congr {p : Program σ ι ρ χ α} (hp : Acts π f p)
    (h : ∀ c, f c = g c) : Acts π g p := by
  intro s
  refine (hp s).mono ?_
  intro _ t ht
  rw [ht, h]

/-- A statement that leaves the projection alone, before or after. -/
theorem Acts.bind_keeps {p : Program σ ι ρ χ α} {q : α → Program σ ι ρ χ β}
    (hp : Acts π f p) (hq : ∀ a, Keeps π (q a)) : Acts π f (p >>= q) :=
  hp.bind hq

theorem Acts.keeps_bind {p : Program σ ι ρ χ α} {q : α → Program σ ι ρ χ β}
    (hp : Keeps π p) (hq : ∀ a, Acts π f (q a)) : Acts π f (p >>= q) :=
  Acts.bind hp hq

/-- Two actions in sequence make the third. -/
theorem Acts.seq (f g : γ → γ) {k : γ → γ} {p : Program σ ι ρ χ α}
    {q : α → Program σ ι ρ χ β} (hp : Acts π f p) (hq : ∀ a, Acts π g (q a))
    (h : ∀ c, g (f c) = k c) : Acts π k (p >>= q) :=
  (hp.bind hq).congr h

/-- A write and then what does not matter to the projection. -/
theorem Acts.update_then {u : σ → σ} {q : Unit → Program σ ι ρ χ β}
    (h : ∀ s, π (u s) = f (π s)) (hq : ∀ a, Keeps π (q a)) :
    Acts π f (Program.update u >>= q) :=
  (Acts.update h).bind_keeps hq

/-! ## Programs seen through a relation

    `Guarantees R p`: however `p` ends, the state it leaves is in the relation `R` to
    the one it found.  A preorder goes through sequences. -/

/-- Every end of `p` is related to its start. -/
def Guarantees (R : σ → σ → Prop) (p : Program σ ι ρ χ α) : Prop :=
  ∀ s, Post p s (fun _ t => R s t)

section Guarantees

variable {R : σ → σ → Prop}

/-- What leaves a projection alone guarantees what follows from its being alone. -/
theorem Guarantees.of_keeps {p : Program σ ι ρ χ α} (hp : Keeps π p)
    (h : ∀ s t, π t = π s → R s t) : Guarantees R p :=
  fun s => (hp s).mono fun _ t ht => h s t ht

theorem Guarantees.exit (x : χ) : Guarantees R (.exit x : Program σ ι ρ χ α) :=
  fun s => (post_exit x s _).mpr trivial

theorem Guarantees.update {u : σ → σ} (h : ∀ s, R s (u s)) :
    Guarantees R (Program.update u : Program σ ι ρ χ Unit) :=
  fun s => (post_update u s _).mpr (h s)

/-- Reading the state first. -/
theorem Guarantees.read {k : σ → Program σ ι ρ χ α} (h : ∀ s, Guarantees R (k s)) :
    Guarantees R (Program.fetch >>= k) := by
  intro s
  rw [post_bind, post_fetch]
  exact h s s

theorem Guarantees.ite {c : Prop} [Decidable c] {p q : Program σ ι ρ χ α}
    (hp : Guarantees R p) (hq : Guarantees R q) : Guarantees R (if c then p else q) := by
  by_cases h : c
  · rw [if_pos h]
    exact hp
  · rw [if_neg h]
    exact hq

variable [IsPreorder σ R]

theorem Guarantees.pure (a : α) : Guarantees R (Pure.pure a : Program σ ι ρ χ α) :=
  fun s => (post_pure a s _).mpr (refl_of R s)

theorem Guarantees.ask (i : ι) : Guarantees R (Program.ask i : Program σ ι ρ χ (ρ i)) :=
  fun s => (post_ask i s _).mpr fun _ => refl_of R s

theorem Guarantees.bind {p : Program σ ι ρ χ α} {q : α → Program σ ι ρ χ β}
    (hp : Guarantees R p) (hq : ∀ a, Guarantees R (q a)) : Guarantees R (p >>= q) := by
  intro s
  rw [post_bind]
  refine (hp s).mono ?_
  intro a m hm
  refine (hq a m).mono ?_
  intro _ t ht
  exact trans_of R hm ht

end Guarantees

/-! ## How a program can and cannot exit

    `ExitPost p s E`: every exit of `p` from `s` is one of `E`. -/

/-- Partial correctness of the exits of a program run alone from `s`. -/
def ExitPost (p : Program σ ι ρ χ α) (s : σ) (E : χ → Prop) : Prop :=
  ∀ x t, Exits p s x t → E x

section ExitPost

variable {s : σ} {E : χ → Prop}

@[simp] theorem exitPost_update (f : σ → σ) :
    ExitPost (update f : Program σ ι ρ χ Unit) s E ↔ True :=
  ⟨fun _ => trivial, fun _ _ _ h => h.elim⟩

@[simp] theorem exitPost_bind (p : Program σ ι ρ χ α) (f : α → Program σ ι ρ χ β) :
    ExitPost (p >>= f) s E
      ↔ ExitPost p s E ∧ Post p s fun a t => ExitPost (f a) t E := by
  constructor
  · intro h
    refine ⟨fun x t hx => h x t ((exits_bind p f s t x).mpr (Or.inl hx)), ?_⟩
    intro a m hp x t hx
    exact h x t ((exits_bind p f s t x).mpr (Or.inr ⟨a, m, hp, hx⟩))
  · rintro ⟨hp, hf⟩ x t hx
    rcases (exits_bind p f s t x).mp hx with hx | ⟨a, m, ha, hx⟩
    · exact hp x t hx
    · exact hf a m ha x t hx

end ExitPost

/-- Nowhere in the program is the process ended with `x`. -/
def Avoids (x : χ) : Program σ ι ρ χ α → Prop
  | .ret _ => True
  | .atom _ k => ∀ s, Avoids x (k s)
  | .call _ k => ∀ r, Avoids x (k r)
  | .exit y => y ≠ x

theorem Avoids.not_exits {x : χ} {p : Program σ ι ρ χ α} (h : Avoids x p) (s t : σ) :
    ¬ Exits p s x t := by
  induction p generalizing s with
  | ret a => exact id
  | atom f k ih => exact ih s (h s) (f s)
  | call i k ih =>
      rintro ⟨r, hr⟩
      exact ih r (h r) s hr
  | exit y =>
      rintro ⟨rfl, -⟩
      exact h rfl

theorem Avoids.bind {x : χ} {p : Program σ ι ρ χ α} {q : α → Program σ ι ρ χ β}
    (hp : Avoids x p) (hq : ∀ a, Avoids x (q a)) : Avoids x (p >>= q) := by
  change Avoids x (Program.bind p q)
  induction p with
  | ret a => exact hq a
  | atom f k ih => exact fun s => ih s (hp s)
  | call i k ih => exact fun r => ih r (hp r)
  | exit y => exact hp

theorem Avoids.ite {x : χ} {c : Prop} [Decidable c] {p q : Program σ ι ρ χ α}
    (hp : Avoids x p) (hq : Avoids x q) : Avoids x (if c then p else q) := by
  by_cases h : c
  · rw [if_pos h]
    exact hp
  · rw [if_neg h]
    exact hq

/-! ## Single accesses

    `Accesses R p`: each access of `p` to the shared state leads from the state it finds
    to one in the relation `R` to it, whatever the other threads have done before. -/

/-- Every access of `p` is in `R`. -/
def Accesses (R : σ → σ → Prop) : Program σ ι ρ χ α → Prop
  | .ret _ => True
  | .atom f k => (∀ s, R s (f s)) ∧ ∀ s, Accesses R (k s)
  | .call _ k => ∀ r, Accesses R (k r)
  | .exit _ => True

section Accesses

variable {R : σ → σ → Prop}

theorem Accesses.pure (a : α) : Accesses R (Pure.pure a : Program σ ι ρ χ α) := trivial

theorem Accesses.exit (x : χ) : Accesses R (.exit x : Program σ ι ρ χ α) := trivial

theorem Accesses.ask (i : ι) : Accesses R (Program.ask i : Program σ ι ρ χ (ρ i)) :=
  fun _ => trivial

theorem Accesses.update {u : σ → σ} (h : ∀ s, R s (u s)) :
    Accesses R (Program.update u : Program σ ι ρ χ Unit) := ⟨h, fun _ => trivial⟩

theorem Accesses.bind {p : Program σ ι ρ χ α} {q : α → Program σ ι ρ χ β}
    (hp : Accesses R p) (hq : ∀ a, Accesses R (q a)) : Accesses R (p >>= q) := by
  change Accesses R (Program.bind p q)
  induction p with
  | ret a => exact hq a
  | atom f k ih => exact ⟨hp.1, fun s => ih s (hp.2 s)⟩
  | call i k ih => exact fun r => ih r (hp r)
  | exit x => trivial

theorem Accesses.ite {c : Prop} [Decidable c] {p q : Program σ ι ρ χ α}
    (hp : Accesses R p) (hq : Accesses R q) : Accesses R (if c then p else q) := by
  by_cases h : c
  · rw [if_pos h]
    exact hp
  · rw [if_neg h]
    exact hq

/-- Reading the state, where that is in `R`. -/
theorem Accesses.read {k : σ → Program σ ι ρ χ α} (hR : ∀ s, R s s)
    (h : ∀ s, Accesses R (k s)) : Accesses R (Program.fetch >>= k) := ⟨hR, h⟩

/-- `Stops p s t`: run alone from `s`, `p` ends in `t`, by itself or with the process. -/
def Stops (p : Program σ ι ρ χ α) (s t : σ) : Prop := (∃ a, Ends p s a t) ∨ ∃ x, Exits p s x t

theorem stops_bind {p : Program σ ι ρ χ α} {q : α → Program σ ι ρ χ β} {s t : σ} :
    Stops (p >>= q) s t
      ↔ (∃ x, Exits p s x t) ∨ ∃ a m, Ends p s a m ∧ Stops (q a) m t := by
  constructor
  · rintro (⟨b, h⟩ | ⟨x, h⟩)
    · obtain ⟨a, m, hp, hq⟩ := (ends_bind ..).mp h
      exact Or.inr ⟨a, m, hp, Or.inl ⟨b, hq⟩⟩
    · rcases (exits_bind ..).mp h with hp | ⟨a, m, hp, hq⟩
      · exact Or.inl ⟨x, hp⟩
      · exact Or.inr ⟨a, m, hp, Or.inr ⟨x, hq⟩⟩
  · rintro (⟨x, hp⟩ | ⟨a, m, hp, ⟨b, hq⟩ | ⟨x, hq⟩⟩)
    · exact Or.inr ⟨x, (exits_bind ..).mpr (Or.inl hp)⟩
    · exact Or.inl ⟨b, (ends_bind ..).mpr ⟨a, m, hp, hq⟩⟩
    · exact Or.inr ⟨x, (exits_bind ..).mpr (Or.inr ⟨a, m, hp, hq⟩)⟩

/-- What every access keeps, the program keeps, however it ends. -/
theorem Accesses.stops {p : Program σ ι ρ χ α} (hp : Accesses R p) (hrefl : ∀ s, R s s)
    (htrans : ∀ s m t, R s m → R m t → R s t) {s t : σ} (h : Stops p s t) : R s t := by
  induction p generalizing s with
  | ret a =>
      rcases h with ⟨b, -, rfl⟩ | ⟨x, h⟩
      · exact hrefl _
      · exact h.elim
  | atom f k ih => exact htrans _ _ _ (hp.1 s) (ih s (hp.2 s) h)
  | call i k ih =>
      rcases h with ⟨b, r, h⟩ | ⟨x, r, h⟩
      · exact ih r (hp r) (Or.inl ⟨b, h⟩)
      · exact ih r (hp r) (Or.inr ⟨x, h⟩)
  | exit y =>
      rcases h with ⟨b, h⟩ | ⟨x, -, rfl⟩
      · exact h.elim
      · exact hrefl _

end Accesses

/-- What is left of a program after some of its steps, whatever the other threads have
    done in between. -/
inductive Remains : Program σ ι ρ χ α → Program σ ι ρ χ α → Prop where
  | refl (p : Program σ ι ρ χ α) : Remains p p
  | atom {f : σ → σ} {k : σ → Program σ ι ρ χ α} {q : Program σ ι ρ χ α} (s : σ) :
      Remains (k s) q → Remains (.atom f k) q
  | call {i : ι} {k : ρ i → Program σ ι ρ χ α} {q : Program σ ι ρ χ α} (r : ρ i) :
      Remains (k r) q → Remains (.call i k) q

/-- A thread that has `rest` still to do is inside `p`, which `k` comes after. -/
def Within (p : Program σ ι ρ χ α) (k : α → Program σ ι ρ χ β)
    (rest : Program σ ι ρ χ β) : Prop :=
  ∃ part, Remains p part ∧ (∀ a, part ≠ .ret a) ∧ rest = part >>= k

/-- A thread with nothing to do is inside nothing. -/
theorem not_within_ret {p : Program σ ι ρ χ α} {k : α → Program σ ι ρ χ β} {b : β} :
    ¬ Within p k (.ret b) := by
  rintro ⟨part, -, hpart, h⟩
  cases part with
  | ret a => exact hpart a rfl
  | atom f k => cases h
  | call i k => cases h
  | exit x => cases h

/-! ## Single steps -/

/-- One indivisible step of a program on the shared state. -/
inductive Step : Program σ ι ρ χ α × σ → Program σ ι ρ χ α × σ → Prop where
  | atom (f : σ → σ) (k : σ → Program σ ι ρ χ α) (s : σ) :
      Step (.atom f k, s) (k s, f s)
  | call (i : ι) (k : ρ i → Program σ ι ρ χ α) (r : ρ i) (s : σ) :
      Step (.call i k, s) (k r, s)

open Relation

theorem ends_of_steps {c : Program σ ι ρ χ α × σ} {a : α} {t : σ}
    (h : ReflTransGen Step c (.ret a, t)) : Ends c.1 c.2 a t := by
  induction h using ReflTransGen.head_induction_on with
  | refl => exact ⟨rfl, rfl⟩
  | head hstep _ ih =>
      cases hstep with
      | atom f k s => exact ih
      | call i k r s => exact ⟨r, ih⟩

theorem exits_of_steps {c : Program σ ι ρ χ α × σ} {x : χ} {t : σ}
    (h : ReflTransGen Step c (.exit x, t)) : Exits c.1 c.2 x t := by
  induction h using ReflTransGen.head_induction_on with
  | refl => exact ⟨rfl, rfl⟩
  | head hstep _ ih =>
      cases hstep with
      | atom f k s => exact ih
      | call i k r s => exact ⟨r, ih⟩

/-- Running a program alone is taking its single steps to the end. -/
theorem ends_iff_steps (p : Program σ ι ρ χ α) (s : σ) (a : α) (t : σ) :
    Ends p s a t ↔ ReflTransGen Step (p, s) (.ret a, t) := by
  -- from right to left the steps are taken off one by one, the first first
  refine ⟨?_, ends_of_steps⟩
  induction p generalizing s with
  | ret b =>
      rintro ⟨rfl, rfl⟩
      exact .refl
  | atom f k ih =>
      intro h
      exact .head (.atom f k s) (ih s (f s) h)
  | call i k ih =>
      rintro ⟨r, h⟩
      exact .head (.call i k r s) (ih r s h)
  | exit x => exact fun h => h.elim

/-- An exit of a program run alone is a run of its single steps to the
    exit. -/
theorem exits_iff_steps (p : Program σ ι ρ χ α) (s : σ) (x : χ) (t : σ) :
    Exits p s x t ↔ ReflTransGen Step (p, s) (.exit x, t) := by
  refine ⟨?_, exits_of_steps⟩
  induction p generalizing s with
  | ret b => exact fun h => h.elim
  | atom f k ih =>
      intro h
      exact .head (.atom f k s) (ih s (f s) h)
  | call i k ih =>
      rintro ⟨r, h⟩
      exact .head (.call i k r s) (ih r s h)
  | exit y =>
      rintro ⟨rfl, rfl⟩
      exact .refl

/-- What holds at every end of a program still does after a step of it. -/
theorem Post.step {p p' : Program σ ι ρ χ α} {s s' : σ} {Q : α → σ → Prop}
    (h : Post p s Q) (hst : Step (p, s) (p', s')) : Post p' s' Q := by
  cases hst with
  | atom f k s => exact h
  | call i k r s => exact fun a t he => h a t ⟨r, he⟩

/-! ## Execution with a fixed environment -/

/-- How an execution ends. -/
inductive Outcome (σ χ α : Type) where
  | done (a : α) (t : σ)
  | exited (x : χ) (t : σ)
  | blocked

/-- Execute `p` from `s`, every call answered by `env`; a call that `env`
    does not answer never returns. -/
def exec (env : (i : ι) → Option (ρ i)) :
    Program σ ι ρ χ α → σ → Outcome σ χ α
  | .ret a, s => .done a s
  | .atom f k, s => exec env (k s) (f s)
  | .call i k, s =>
      match env i with
      | some r => exec env (k r) s
      | none => .blocked
  | .exit x, s => .exited x s

/-- An execution whose environment keeps to an assumption. -/
theorem endsUnder_of_exec {A : (i : ι) → ρ i → Prop} {env : (i : ι) → Option (ρ i)}
    (hA : ∀ i r, env i = some r → A i r) {p : Program σ ι ρ χ α} {s t : σ} {a : α}
    (h : exec env p s = .done a t) : EndsUnder A p s a t := by
  induction p generalizing s with
  | ret b =>
      cases h
      exact ⟨rfl, rfl⟩
  | atom f k ih => exact ih s h
  | call i k ih =>
      rw [exec] at h
      cases hr : env i with
      | none => rw [hr] at h; cases h
      | some r =>
          rw [hr] at h
          exact ⟨r, hA i r hr, ih r h⟩
  | exit x => cases h

theorem ends_of_exec {env : (i : ι) → Option (ρ i)} {p : Program σ ι ρ χ α}
    {s t : σ} {a : α} (h : exec env p s = .done a t) : Ends p s a t :=
  (endsUnder_of_exec (fun _ _ _ => trivial) h : EndsUnder (fun _ _ => True) p s a t).ends

end Program

end Interaction
