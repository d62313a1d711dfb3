import Mathlib.Data.List.Basic

/-! # Words of which none begins another

    A sequence of such words can be read off its concatenation: two sequences
    whose concatenations begin alike begin with the same words. -/

namespace Interaction

/-- No word of `F` begins another. -/
def PrefixFree {α : Type} (F : List α → Prop) : Prop :=
  ∀ x y, F x → F y → x <+: y → x = y

variable {α : Type} {F : List α → Prop} {words others : List (List α)}

/-- **Words read off a concatenation are its words.**  At the end of it there may
    be the beginning of one more. -/
theorem PrefixFree.isPrefix (hF : PrefixFree F) (rest : List α) (hwords : ∀ x ∈ words, F x)
    (hothers : ∀ x ∈ others, F x) (hrest : ∀ x, F x → ¬ x <+: rest)
    (h : words.flatten <+: others.flatten ++ rest) : words <+: others := by
  induction others generalizing words with
  | nil =>
      cases words with
      | nil => exact List.prefix_rfl
      | cons x words =>
          have hx : x <+: rest := (List.prefix_append x words.flatten).trans h
          exact absurd hx (hrest x (hwords x (List.mem_cons_self ..)))
  | cons y others ih =>
      cases words with
      | nil => exact List.nil_prefix
      | cons x words =>
          rw [List.flatten_cons, List.flatten_cons, List.append_assoc] at h
          have hx : x <+: y ++ (others.flatten ++ rest) :=
            (List.prefix_append x words.flatten).trans h
          have hFx := hwords x (List.mem_cons_self ..)
          have hFy := hothers y (List.mem_cons_self ..)
          -- of two beginnings of the same list one begins the other
          have hxy : x = y := by
            rcases List.prefix_or_prefix_of_prefix hx (List.prefix_append y _) with hxy | hyx
            · exact hF x y hFx hFy hxy
            · exact (hF y x hFy hFx hyx).symm
          subst hxy
          rw [List.prefix_append_right_inj] at h
          have hrec := ih (fun z hz => hwords z (List.mem_cons_of_mem _ hz))
            (fun z hz => hothers z (List.mem_cons_of_mem _ hz)) h
          exact (List.prefix_cons_inj x).mpr hrec

end Interaction
