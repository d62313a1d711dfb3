import DemoCannon.Lib.Calls

/-! # Programs that can fail

    `Works A p s Q E` is what a caller of `p` that catches its exits has to know: what
    holds at an end, what holds at an exit and of the state it leaves, and that with the
    answers of `A` it is an end.  The rules take a program apart as those of `Post` do. -/

namespace Interaction

namespace Program

variable {σ ι χ α β : Type} {ρ : ι → Type} {A : (i : ι) → ρ i → Prop}

/-- Every end of `p` from `s` is in `Q` and every exit in `E`; with answers that `A` allows
    `p` ends. -/
structure Works (A : (i : ι) → ρ i → Prop) (p : Program σ ι ρ χ α) (s : σ)
    (Q : α → σ → Prop) (E : χ → σ → Prop) : Prop where
  ends : Post p s Q
  exits : ∀ x t, Exits p s x t → E x t
  returns : Delivers A p s fun _ => Q

section Rules

variable {s : σ} {E : χ → σ → Prop}

theorem Works.pure {a : α} {Q : α → σ → Prop} (h : Q a s) :
    Works A (Pure.pure a : Program σ ι ρ χ α) s Q E :=
  ⟨(post_pure a s Q).mpr h, fun _ _ hx => hx.elim, h⟩

theorem Works.update {f : σ → σ} {Q : Unit → σ → Prop} (h : Q () (f s)) :
    Works A (Program.update f : Program σ ι ρ χ Unit) s Q E :=
  ⟨(post_update f s Q).mpr h, fun _ _ hx => hx.elim, h⟩

theorem Works.bind {p : Program σ ι ρ χ α} {q : α → Program σ ι ρ χ β} {Q : α → σ → Prop}
    {R : β → σ → Prop} (hp : Works A p s Q E) (hq : ∀ a t, Q a t → Works A (q a) t R E) :
    Works A (p >>= q) s R E where
  ends := (post_bind p q s R).mpr (hp.ends.mono fun a t h => (hq a t h).ends)
  exits := by
    intro x t hx
    rcases (exits_bind p q s t x).mp hx with hx | ⟨a, m, ha, hx⟩
    · exact hp.exits x t hx
    · exact (hq a m (hp.ends a m ha)).exits x t hx
  returns := (delivers_bind p q _).mpr (hp.returns.mono fun _ a t h => (hq a t h).returns)

/-- Reading the state first. -/
theorem Works.fetch {q : σ → Program σ ι ρ χ α} {Q : α → σ → Prop} (h : Works A (q s) s Q E) :
    Works A (Program.fetch >>= q) s Q E :=
  ⟨h.ends, h.exits, h.returns⟩

/-- A loop whose body keeps `I`, at an exit too. -/
theorem Works.forM {body : β → Program σ ι ρ χ Unit} {I : σ → Prop}
    (hbody : ∀ b s, I s → Works A (body b) s (fun _ => I) E) (l : List β)
    (hs : I s) : Works A (l.forM body) s (fun _ => I) E := by
  induction l generalizing s with
  | nil => exact .pure hs
  | cons b rest ih => exact (hbody b s hs).bind fun _ _ ht => ih ht

end Rules

/-- A check that exits: what is behind it has passed. -/
theorem Post.check {s : σ} {c : Prop} [Decidable c] {x : χ} {p : Program σ ι ρ χ α}
    {Q : α → σ → Prop} (h : ¬ c → Post p s Q) : Post (if c then .exit x else p) s Q := by
  by_cases hc : c
  · rw [if_pos hc]
    exact fun _ _ hends => hends.elim
  · rw [if_neg hc]
    exact h hc

/-! ## Loops -/

section Loops

variable {body : β → Program σ ι ρ χ Unit} {s : σ}

theorem Post.forM {I : σ → Prop} (hbody : ∀ b s, I s → Post (body b) s fun _ => I)
    (l : List β) (hs : I s) : Post (l.forM body) s fun _ => I := by
  induction l generalizing s with
  | nil => exact (post_pure ..).mpr hs
  | cons b rest ih =>
      exact (post_bind ..).mpr ((hbody b s hs).mono fun _ _ ht => ih ht)

/-- What a round sets up and the other rounds keep holds of all at the end. -/
theorem Post.forM_all {Q : β → σ → Prop} (hdo : ∀ b s, Post (body b) s fun _ => Q b)
    (hkeep : ∀ b d s, Q d s → Post (body b) s fun _ => Q d) (l : List β) :
    Post (l.forM body) s fun _ t => ∀ b ∈ l, Q b t := by
  induction l generalizing s with
  | nil => exact (post_pure ..).mpr (List.forall_mem_nil _)
  | cons b rest ih =>
      refine (post_bind ..).mpr ((hdo b s).mono ?_)
      intro _ m hm
      have hfirst : Post (rest.forM body) m fun _ => Q b :=
        Post.forM (fun b' s => hkeep b' b s) rest hm
      exact (hfirst.and ih).mono fun _ _ ht => List.forall_mem_cons.mpr ht

theorem Accesses.mono {R S : σ → σ → Prop} {p : Program σ ι ρ χ α} (h : Accesses R p)
    (hRS : ∀ s t, R s t → S s t) : Accesses S p := by
  induction p with
  | ret a => trivial
  | atom f k ih => exact ⟨fun s => hRS _ _ (h.1 s), fun s => ih s (h.2 s)⟩
  | call i k ih => exact fun r => ih r (h r)
  | exit x => trivial

theorem Accesses.forM {R : σ → σ → Prop} (h : ∀ b, Accesses R (body b)) (l : List β) :
    Accesses R (l.forM body) := by
  induction l with
  | nil => exact .pure ()
  | cons b rest ih => exact .bind (h b) fun _ => ih

end Loops

end Program

end Interaction
