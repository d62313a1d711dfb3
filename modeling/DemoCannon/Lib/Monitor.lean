import DemoCannon.Lib.Threads
import Mathlib.Logic.Function.Basic

/-! # Monitors

    A monitor watches one thread of a multi-threaded program: a state of its
    own moves with every access of the thread to the shared state and with
    every answered call, and says what the thread may do next.  `Follows` says
    that a program does only what the monitor lets it do, whatever the other
    threads do to the shared state in between; it is the logic in which facts
    about interleavings are proved a thread at a time.

    The rules take a program apart from its first statement on, as those of
    `Post` do for a program that runs alone.  `Pool.Step.follows` takes it
    through a step of a pool of threads. -/

namespace Interaction

/-- A monitor with states `κ` for programs over `σ` and `ι`. -/
structure Monitor (σ ι : Type) (ρ : ι → Type) (χ κ : Type) where
  /-- The state after an access that finds the one and leaves the other. -/
  atom : κ → σ → σ → κ := fun w _ _ => w
  /-- The state after an answered call; `none` where the call may not be made. -/
  call : κ → (i : ι) → ρ i → Option κ
  /-- The answers that are counted on. -/
  assumes : κ → (i : ι) → ρ i → Prop := fun _ _ _ => True
  /-- What the other threads leave true of the shared state. -/
  relies : κ → σ → Prop := fun _ _ => True
  /-- The accesses that may be made, by what they write and what comes next. -/
  allows : κ → {α : Type} → (σ → σ) → (σ → Program σ ι ρ χ α) → Prop :=
    fun _ {_} _ _ => True
  /-- Whether an access may be made does not depend on what comes much later. -/
  allows_bind : ∀ {w : κ} {α β : Type} {f : σ → σ} {k : σ → Program σ ι ρ χ α}
    (g : α → Program σ ι ρ χ β),
    allows w f k → allows w f (fun s => k s >>= g) := by intros; trivial

namespace Monitor

variable {σ ι χ κ α β : Type} {ρ : ι → Type} {M : Monitor σ ι ρ χ κ}

/-- `M.Follows w p Q`: from the monitor's state `w` on, `p` does only what the
    monitor allows, and where it ends its result and the monitor's state
    satisfy `Q`. -/
def Follows (M : Monitor σ ι ρ χ κ) :
    κ → Program σ ι ρ χ α → (α → κ → Prop) → Prop
  | w, .ret a, Q => Q a w
  | w, .atom f k, Q =>
      M.allows w f k ∧ ∀ s, M.relies w s → Follows M (M.atom w s (f s)) (k s) Q
  | w, .call i k, Q =>
      ∀ r, M.assumes w i r → ∃ w', M.call w i r = some w' ∧ Follows M w' (k r) Q
  | _, .exit _, _ => True

theorem Follows.mono {w : κ} {p : Program σ ι ρ χ α} {Q R : α → κ → Prop}
    (h : M.Follows w p Q) (hQR : ∀ a w', Q a w' → R a w') : M.Follows w p R := by
  induction p generalizing w with
  | ret a => exact hQR a w h
  | atom f k ih =>
      obtain ⟨hallows, hk⟩ := h
      exact ⟨hallows, fun s hs => ih s (hk s hs)⟩
  | call i k ih =>
      intro r hr
      obtain ⟨w', hw', hk⟩ := h r hr
      exact ⟨w', hw', ih r hk⟩
  | exit x => trivial

/-- What comes next starts where the program before it has led. -/
theorem Follows.bind {w : κ} {p : Program σ ι ρ χ α} {f : α → Program σ ι ρ χ β}
    {Q : β → κ → Prop}
    (h : M.Follows w p fun a w' => M.Follows w' (f a) Q) :
    M.Follows w (p >>= f) Q := by
  change M.Follows w (Program.bind p f) Q
  induction p generalizing w with
  | ret a => exact h
  | atom g k ih =>
      obtain ⟨hallows, hk⟩ := h
      exact ⟨M.allows_bind f hallows, fun s hs => ih s (hk s hs)⟩
  | call i k ih =>
      intro r hr
      obtain ⟨w', hw', hk⟩ := h r hr
      exact ⟨w', hw', ih r hk⟩
  | exit x => trivial

/-- A program known by its ends, and what comes next. -/
theorem Follows.seq {w : κ} {p : Program σ ι ρ χ α} {f : α → Program σ ι ρ χ β}
    {R : α → κ → Prop} {Q : β → κ → Prop} (hp : M.Follows w p R)
    (hf : ∀ a w', R a w' → M.Follows w' (f a) Q) : M.Follows w (p >>= f) Q :=
  Follows.bind (hp.mono hf)

theorem Follows.ite {w : κ} {c : Prop} [Decidable c] {p q : Program σ ι ρ χ α}
    {Q : α → κ → Prop} (hp : M.Follows w p Q) (hq : M.Follows w q Q) :
    M.Follows w (if c then p else q) Q := by
  by_cases h : c
  · rw [if_pos h]; exact hp
  · rw [if_neg h]; exact hq

theorem Follows.pure {w : κ} {a : α} {Q : α → κ → Prop} (h : Q a w) :
    M.Follows w (Pure.pure a : Program σ ι ρ χ α) Q := h

/-- Reading the state, and what is done with it. -/
theorem Follows.read {w : κ} {k : σ → Program σ ι ρ χ α} {Q : α → κ → Prop}
    (hallows : M.allows w id k)
    (h : ∀ s, M.relies w s → M.Follows (M.atom w s s) (k s) Q) :
    M.Follows w (Program.fetch >>= k) Q := ⟨hallows, h⟩

/-- Writing the state, and what comes after. -/
theorem Follows.write {w : κ} {f : σ → σ} {q : Unit → Program σ ι ρ χ α}
    {Q : α → κ → Prop} (hallows : M.allows w f fun _ => q ())
    (h : ∀ s, M.relies w s → M.Follows (M.atom w s (f s)) (q ()) Q) :
    M.Follows w (Program.update f >>= q) Q := ⟨hallows, h⟩

/-- A call that moves the monitor on alike for all answers, and what comes
    after. -/
theorem Follows.ask {w w' : κ} {i : ι} {q : ρ i → Program σ ι ρ χ α}
    {Q : α → κ → Prop} (hcall : ∀ r, M.call w i r = some w')
    (h : ∀ r, M.assumes w i r → M.Follows w' (q r) Q) :
    M.Follows w (Program.ask i >>= q) Q := by
  intro r hr
  exact ⟨w', hcall r, h r hr⟩

/-! ### Along the way

    `Throughout` says of every point of a program what `Follows` says of its end. -/

/-- From the monitor's state `w` on `p` does only what the monitor allows; `I` holds of
    the monitor's state and of the rest of `p` until `p` ends, and then `Q`. -/
def Throughout (M : Monitor σ ι ρ χ κ) (I : κ → Program σ ι ρ χ α → Prop) (Q : α → κ → Prop) :
    κ → Program σ ι ρ χ α → Prop
  | w, .ret a => Q a w
  | w, .atom f k =>
      I w (.atom f k) ∧ M.allows w f k
        ∧ ∀ s, M.relies w s → Throughout M I Q (M.atom w s (f s)) (k s)
  | w, .call i k =>
      I w (.call i k)
        ∧ ∀ r, M.assumes w i r → ∃ w', M.call w i r = some w' ∧ Throughout M I Q w' (k r)
  | w, .exit x => I w (.exit x)

variable {I J : κ → Program σ ι ρ χ α → Prop} {Q R : α → κ → Prop}

theorem Throughout.follows {w : κ} {p : Program σ ι ρ χ α} (h : M.Throughout I Q w p) :
    M.Follows w p Q := by
  induction p generalizing w with
  | ret a => exact h
  | atom f k ih =>
      obtain ⟨-, hallows, hk⟩ := h
      exact ⟨hallows, fun s hs => ih s (hk s hs)⟩
  | call i k ih =>
      intro r hr
      obtain ⟨w', hw', hk⟩ := h.2 r hr
      exact ⟨w', hw', ih r hk⟩
  | exit x => trivial

/-- What holds along the way holds now. -/
theorem Throughout.now {w : κ} {p : Program σ ι ρ χ α} (h : M.Throughout I Q w p)
    (hQ : ∀ a w, Q a w → I w (.ret a)) : I w p := by
  cases p with
  | ret a => exact hQ a w h
  | atom f k => exact h.1
  | call i k => exact h.1
  | exit x => exact h

theorem Throughout.mono {w : κ} {p : Program σ ι ρ χ α} (h : M.Throughout I Q w p)
    (hIJ : ∀ w p, I w p → J w p) (hQR : ∀ a w, Q a w → R a w) : M.Throughout J R w p := by
  induction p generalizing w with
  | ret a => exact hQR a w h
  | atom f k ih =>
      obtain ⟨hnow, hallows, hk⟩ := h
      exact ⟨hIJ _ _ hnow, hallows, fun s hs => ih s (hk s hs)⟩
  | call i k ih =>
      refine ⟨hIJ _ _ h.1, ?_⟩
      intro r hr
      obtain ⟨w', hw', hk⟩ := h.2 r hr
      exact ⟨w', hw', ih r hk⟩
  | exit x => exact hIJ _ _ h

/-- What holds of the rest of `p` with what comes after it, until `p` ends. -/
theorem Throughout.bind {I : κ → Program σ ι ρ χ β → Prop} {Q : β → κ → Prop} {w : κ}
    {p : Program σ ι ρ χ α} {f : α → Program σ ι ρ χ β}
    (h : M.Throughout (fun w part => (∀ a, part ≠ .ret a) → I w (part >>= f))
      (fun a w' => M.Throughout I Q w' (f a)) w p) : M.Throughout I Q w (p >>= f) := by
  change M.Throughout I Q w (Program.bind p f)
  induction p generalizing w with
  | ret a => exact h
  | atom g k ih =>
      obtain ⟨hnow, hallows, hk⟩ := h
      exact ⟨hnow (by rintro a ⟨⟩), M.allows_bind f hallows, fun s hs => ih s (hk s hs)⟩
  | call i k ih =>
      refine ⟨h.1 (by rintro a ⟨⟩), ?_⟩
      intro r hr
      obtain ⟨w', hw', hk⟩ := h.2 r hr
      exact ⟨w', hw', ih r hk⟩
  | exit x => exact h (by rintro a ⟨⟩)

/-- At every point of a program there is a rest of it. -/
theorem Follows.throughout {w : κ} {p : Program σ ι ρ χ α} (h : M.Follows w p Q) :
    M.Throughout (fun _ part => p.Remains part) Q w p := by
  induction p generalizing w with
  | ret a => exact h
  | atom f k ih =>
      obtain ⟨hallows, hk⟩ := h
      refine ⟨.refl _, hallows, fun s hs => (ih s (hk s hs)).mono ?_ fun _ _ => id⟩
      intro _ part hpart
      exact .atom s hpart
  | call i k ih =>
      refine ⟨.refl _, ?_⟩
      intro r hr
      obtain ⟨w', hw', hk⟩ := h r hr
      refine ⟨w', hw', (ih r hk).mono ?_ fun _ _ => id⟩
      intro _ part hpart
      exact .call r hpart
  | exit x => exact .refl _

/-- Reading the state, and what is done with it. -/
theorem Throughout.read {w : κ} {k : σ → Program σ ι ρ χ α}
    (hnow : I w (Program.fetch >>= k)) (hallows : M.allows w id k)
    (h : ∀ s, M.relies w s → M.Throughout I Q (M.atom w s s) (k s)) :
    M.Throughout I Q w (Program.fetch >>= k) := ⟨hnow, hallows, h⟩

/-- What holds along the way, with what is known of the end besides. -/
theorem Throughout.and_follows {w : κ} {p : Program σ ι ρ χ α} (h : M.Throughout I Q w p)
    (hp : M.Follows w p R) : M.Throughout I (fun a w => Q a w ∧ R a w) w p := by
  induction p generalizing w with
  | ret a => exact ⟨h, hp⟩
  | atom f k ih =>
      obtain ⟨hnow, hallows, hk⟩ := h
      exact ⟨hnow, hallows, fun s hs => ih s (hk s hs) (hp.2 s hs)⟩
  | call i k ih =>
      refine ⟨h.1, ?_⟩
      intro r hr
      obtain ⟨w', hw', hk⟩ := h.2 r hr
      obtain ⟨w'', hw'', hk'⟩ := hp r hr
      obtain rfl : w' = w'' := Option.some.inj (hw'.symm.trans hw'')
      exact ⟨w', hw', ih r hk hk'⟩
  | exit x => exact h

/-- **A program inside which the monitor may be anywhere.** -/
theorem Follows.within {I : κ → Program σ ι ρ χ β → Prop} {Q : β → κ → Prop} {w : κ}
    {p : Program σ ι ρ χ α} {f : α → Program σ ι ρ χ β}
    (h : M.Follows w p fun a w' => M.Throughout I Q w' (f a))
    (hI : ∀ w rest, p.Within f rest → I w rest) : M.Throughout I Q w (p >>= f) := by
  refine Throughout.bind (h.throughout.mono ?_ fun _ _ => id)
  intro w part hpart hne
  exact hI w _ ⟨part, hpart, hne, rfl⟩

/-- **A property of the monitor that no access of the program takes away.** -/
theorem Throughout.of_accesses {S : σ → σ → Prop} {K : κ → Prop} {w : κ}
    {p : Program σ ι ρ χ α}
    (hallows : ∀ {w f} {k : σ → Program σ ι ρ χ α}, K w → (∀ s, S s (f s)) → M.allows w f k)
    (hatom : ∀ {w s t}, K w → M.relies w s → S s t → K (M.atom w s t))
    (hcall : ∀ {w} (i : ι) (r : ρ i), K w → ∃ w', M.call w i r = some w' ∧ K w')
    (hp : p.Accesses S) (hw : K w) :
    M.Throughout (fun w _ => K w) (fun _ w => K w) w p := by
  induction p generalizing w with
  | ret a => exact hw
  | atom f k ih =>
      exact ⟨hw, hallows hw hp.1, fun s hs => ih s (hp.2 s) (hatom hw hs (hp.1 s))⟩
  | call i k ih =>
      refine ⟨hw, ?_⟩
      intro r _
      obtain ⟨w', hw', hK⟩ := hcall i r hw
      exact ⟨w', hw', ih r (hp r) hK⟩
  | exit x => exact hw

end Monitor

/-! ## The threads of a pool -/

namespace Pool

variable {τ σ ι χ κ α δ : Type} {ρ : ι → Type} [DecidableEq τ]

/-- Where a step takes the monitors: only that of its thread moves. -/
def advance (M : Monitor σ ι ρ χ κ) (p : Pool τ σ ι ρ χ α δ) (w : τ → κ) :
    Label τ ι ρ → τ → κ
  | .atom i =>
      match p.threads i with
      | .running (.atom f _) =>
          Function.update w i (M.atom (w i) p.shared (f p.shared))
      | _ => w
  | .call i c r => Function.update w i ((M.call (w i) c r).getD (w i))

variable {M : Monitor σ ι ρ χ κ} {grant : δ → τ → ι → Option δ}
  {p q : Pool τ σ ι ρ χ α δ} {w : τ → κ}

/-- The answers of a step are among those counted on. -/
def Assumed (M : Monitor σ ι ρ χ κ) (w : τ → κ) : Label τ ι ρ → Prop
  | .atom _ => True
  | .call i c r => M.assumes (w i) c r

theorem advance_atom {i : τ} {f : σ → σ} {k : σ → Program σ ι ρ χ α}
    (hi : p.threads i = .running (.atom f k)) :
    p.advance M w (.atom i)
      = Function.update w i (M.atom (w i) p.shared (f p.shared)) := by
  rw [advance, hi]

theorem advance_call {i : τ} {c : ι} {r : ρ c} {w' : κ}
    (hw : M.call (w i) c r = some w') :
    p.advance M w (.call i c r) = Function.update w i w' := by
  rw [advance, hw]
  rfl

/-- A step leaves the monitors of the other threads where they are. -/
theorem advance_of_ne {a : Label τ ι ρ} {j : τ} (hj : j ≠ a.thread) :
    p.advance M w a j = w j := by
  have hmoved : p.advance M w a = w ∨ ∃ w', p.advance M w a = Function.update w a.thread w' := by
    cases a with
    | atom i =>
        rw [advance]
        split
        · exact Or.inr ⟨_, rfl⟩
        · exact Or.inl rfl
    | call i c r => exact Or.inr ⟨_, rfl⟩
  rcases hmoved with h | ⟨w', h⟩
  · rw [h]
  · rw [h, Function.update_of_ne hj]

/-- **A thread that follows the monitor still does after its step.** -/
theorem Step.follows {a : Label τ ι ρ} {Q : α → κ → Prop}
    (hst : Step grant p a q) (hassumed : Assumed M w a)
    (hrelies : M.relies (w a.thread) p.shared)
    (hw : ∀ rest, p.threads a.thread = .running rest → M.Follows (w a.thread) rest Q) :
    ∀ rest, q.threads a.thread = .running rest →
      M.Follows (p.advance M w a a.thread) rest Q := by
  intro rest hrest
  cases hst with
  | @atom i f k hi =>
      obtain ⟨-, hk⟩ := hw _ hi
      rw [advance_atom hi, show (Label.atom i).thread = i from rfl, Function.update_self]
      obtain rfl := Thread.running.inj ((set_threads_self ..).symm.trans hrest)
      exact hk p.shared hrelies
  | @call i c k locks r hi hlocks =>
      obtain ⟨w', hcall, hk⟩ := hw _ hi r hassumed
      rw [show (Label.call i c r).thread = i from rfl] at hcall ⊢
      rw [advance_call hcall, Function.update_self]
      obtain rfl := Thread.running.inj ((set_threads_self ..).symm.trans hrest)
      exact hk

/-- **What holds along the way holds after a step.** -/
theorem Step.throughout {a : Label τ ι ρ} {I : κ → Program σ ι ρ χ α → Prop}
    {Q : α → κ → Prop} (hst : Step grant p a q) (hassumed : Assumed M w a)
    (hrelies : M.relies (w a.thread) p.shared)
    (hw : ∀ rest, p.threads a.thread = .running rest → M.Throughout I Q (w a.thread) rest) :
    ∀ rest, q.threads a.thread = .running rest →
      M.Throughout I Q (p.advance M w a a.thread) rest := by
  intro rest hrest
  cases hst with
  | @atom i f k hi =>
      obtain ⟨-, -, hk⟩ := hw _ hi
      rw [advance_atom hi, show (Label.atom i).thread = i from rfl, Function.update_self]
      obtain rfl := Thread.running.inj ((set_threads_self ..).symm.trans hrest)
      exact hk p.shared hrelies
  | @call i c k locks r hi hlocks =>
      obtain ⟨w', hcall, hk⟩ := (hw _ hi).2 r hassumed
      rw [show (Label.call i c r).thread = i from rfl] at hcall ⊢
      rw [advance_call hcall, Function.update_self]
      obtain rfl := Thread.running.inj ((set_threads_self ..).symm.trans hrest)
      exact hk

end Pool

end Interaction
