import Mathlib.Data.List.Nodup
import Mathlib.Logic.Function.Basic

/-! # Rows with a key

    A list of rows of which no two have the same key is a function from keys to rows:
    what is done to the rows of one key is a change of the function there. -/

namespace Interaction

namespace Keyed

variable {κ ρ : Type} [DecidableEq κ] {key : ρ → κ} {rows : List ρ} {k : κ} {r : ρ}

/-- No two rows have the same key. -/
def Single (key : ρ → κ) (rows : List ρ) : Prop := (rows.map key).Nodup

/-- The first row with a key. -/
def lookup (key : ρ → κ) (rows : List ρ) (k : κ) : Option ρ :=
  rows.find? fun r => key r = k

theorem lookup_cons : lookup key (r :: rows) k = if key r = k then some r
    else lookup key rows k := by
  rw [lookup, List.find?_cons]
  by_cases h : key r = k
  · simp [h]
  · simp [h, lookup]

theorem lookup_eq_none : lookup key rows k = none ↔ k ∉ rows.map key := by
  rw [lookup, List.find?_eq_none, List.mem_map]
  constructor
  · rintro h ⟨r, hr, hk⟩
    exact h r hr (decide_eq_true hk)
  · intro h r hr hk
    exact h ⟨r, hr, of_decide_eq_true hk⟩

theorem key_of_lookup (h : lookup key rows k = some r) : key r = k := by
  have hfind : rows.find? (fun r => key r = k) = some r := h
  simpa using List.find?_some hfind

/-- The row of a key is the one that is found. -/
theorem lookup_eq_some (h : Single key rows) :
    lookup key rows k = some r ↔ r ∈ rows ∧ key r = k := by
  constructor
  · intro hfind
    exact ⟨List.mem_of_find?_eq_some hfind, key_of_lookup hfind⟩
  · rintro ⟨hr, rfl⟩
    induction rows with
    | nil => cases hr
    | cons first rows ih =>
        obtain ⟨hfirst, hrows⟩ := List.nodup_cons.mp h
        rw [lookup_cons]
        rcases List.mem_cons.mp hr with rfl | hr
        · exact if_pos rfl
        · have hne : key first ≠ key r := fun heq =>
            hfirst (heq ▸ List.mem_map_of_mem hr)
          rw [if_neg hne]
          exact ih hrows hr

/-! ## Changes -/

/-- A row may come in if its key is new. -/
theorem single_append : Single key (rows ++ [r])
    ↔ Single key rows ∧ lookup key rows (key r) = none := by
  rw [Single, List.map_append, List.map_singleton, List.nodup_append_comm,
    List.singleton_append, List.nodup_cons, lookup_eq_none]
  exact and_comm

theorem lookup_append (hr : lookup key rows (key r) = none) :
    lookup key (rows ++ [r]) = Function.update (lookup key rows) (key r) (some r) := by
  funext k
  by_cases hk : k = key r
  · subst hk
    rw [Function.update_self, lookup, List.find?_append, show rows.find? _ = none from hr]
    simp
  · rw [Function.update_of_ne hk, lookup, List.find?_append, List.find?_singleton,
      decide_eq_false fun h => hk h.symm]
    simp [lookup]

omit [DecidableEq κ] in
/-- A change that leaves the keys. -/
theorem Single.map (h : Single key rows) {f : ρ → ρ} (hf : ∀ r, key (f r) = key r) :
    Single key (rows.map f) := by
  rw [Single, List.map_map, show key ∘ f = key from funext hf]
  exact h

theorem lookup_map {f : ρ → ρ} (hf : ∀ r, key (f r) = key r) :
    lookup key (rows.map f) k = (lookup key rows k).map f := by
  rw [lookup, List.find?_map]
  refine congrArg (Option.map f) (congrArg (List.find? · rows) (funext fun r => ?_))
  rw [Function.comp_apply, hf]

/-- A change of the rows of one key. -/
theorem lookup_map_at {f : ρ → ρ} (hf : ∀ r, key (f r) = key r) (k : κ) :
    lookup key (rows.map fun r => if key r = k then f r else r)
      = Function.update (lookup key rows) k ((lookup key rows k).map f) := by
  have hkeys : ∀ r, key (if key r = k then f r else r) = key r := by
    intro r
    split
    · exact hf r
    · rfl
  funext k'
  rw [lookup_map hkeys]
  by_cases hk : k' = k
  · subst hk
    rw [Function.update_self]
    cases hl : lookup key rows k' with
    | none => rfl
    | some r => rw [Option.map_some, Option.map_some, if_pos (key_of_lookup hl)]
  · rw [Function.update_of_ne hk]
    cases hl : lookup key rows k' with
    | none => rfl
    | some r => rw [Option.map_some, if_neg fun h => hk ((key_of_lookup hl).symm.trans h)]

omit [DecidableEq κ] in
/-- Rows are taken away. -/
theorem Single.filter (h : Single key rows) (p : ρ → Bool) : Single key (rows.filter p) :=
  h.sublist (List.filter_sublist.map key)

/-- The rows of a key are taken away. -/
theorem lookup_filter_ne (k : κ) : lookup key (rows.filter fun r => key r ≠ k)
    = Function.update (lookup key rows) k none := by
  funext k'
  rw [lookup, List.find?_filter]
  by_cases hk : k' = k
  · subst hk
    rw [Function.update_self, List.find?_eq_none]
    intro r _
    simp
  · rw [Function.update_of_ne hk, lookup]
    refine congrArg (List.find? · rows) (funext fun r => ?_)
    by_cases hr : key r = k'
    · simp [hr, hk]
    · simp [hr]

/-! ## The rows of other keys -/

/-- The rows with a key. -/
def rowsOf (key : ρ → κ) (rows : List ρ) (k : κ) : List ρ := rows.filter fun r => key r = k

theorem rowsOf_append_ne (h : key r ≠ k) : rowsOf key (rows ++ [r]) k = rowsOf key rows k := by
  rw [rowsOf, List.filter_append, List.filter_singleton, decide_eq_false h]
  exact List.append_nil _

theorem rowsOf_map_at {f : ρ → ρ} (hf : ∀ r, key (f r) = key r) {k' : κ} (h : k' ≠ k) :
    rowsOf key (rows.map fun r => if key r = k then f r else r) k' = rowsOf key rows k' := by
  induction rows with
  | nil => rfl
  | cons r rows ih =>
      rw [rowsOf, rowsOf] at ih ⊢
      rw [List.map_cons, List.filter_cons, List.filter_cons, ih]
      by_cases hr : key r = k
      · have hother : key r ≠ k' := fun heq => h (heq.symm.trans hr)
        rw [if_pos hr, hf, decide_eq_false hother, if_neg Bool.false_ne_true,
          if_neg Bool.false_ne_true]
      · rw [if_neg hr]

theorem rowsOf_filter_ne {k' : κ} (h : k' ≠ k) :
    rowsOf key (rows.filter fun r => key r ≠ k) k' = rowsOf key rows k' := by
  rw [rowsOf, List.filter_filter]
  refine congrArg (List.filter · rows) (funext fun r => ?_)
  by_cases hr : key r = k'
  · simp [hr, h]
  · simp [hr]

end Keyed

end Interaction
