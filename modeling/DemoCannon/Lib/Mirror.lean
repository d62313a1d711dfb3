import Mathlib.Data.List.Chain

/-! # A copy that is told of a value

    An authority has a value and tells a copy of it over a queue; whoever has the copy
    asks for changes over a queue the other way, and may change the copy ahead of the
    answer.  The authority may owe a telling for a while.

    If every change is told in the end, and every request that changed the copy is
    answered, then the copy is the value whenever nothing is under way
    (`Faithful.copy_eq`).  A coarser view of the value, whose changes are told at once
    and which the copy never changes by itself, is at all times what the queue leads to,
    and goes only where the authority goes (`Faithful.chain`, `Faithful.last`). -/

namespace Interaction

variable {V M B : Type}

/-- A value, the copy, and what is under way between them. -/
structure Mirror (V M : Type) where
  value : V
  /-- The authority has changed the value and not told of it. -/
  owes : Bool
  copy : V
  /-- Requests to the authority. -/
  up : List M
  /-- What the copy has still to be told. -/
  down : List V

namespace Mirror

/-- What the copy will be when it has been told everything under way. -/
def last (m : Mirror V M) : V := m.down.getLastD m.copy

/-- The authority goes from `v` to `v'` and tells `vs`, every step of it seen through `π`
    one of `R`. -/
structure Tells (R : B → B → Prop) (π : V → B) (v : V) (owes : Bool) (vs : List V) (v' : V)
    (owes' : Bool) : Prop where
  chain : List.IsChain R (π v :: vs.map π)
  last : π (vs.getLastD v) = π v'
  told : owes' = false → (owes = false ∨ vs ≠ []) ∧ vs.getLastD v = v'

/-- A step of either side. -/
inductive Step (R : B → B → Prop) (π : V → B) (asks : M → Bool) (m : Mirror V M) :
    Mirror V M → Prop where
  /-- The copy is told. -/
  | told {v : V} {rest : List V} (hdown : m.down = v :: rest) :
      Step R π asks m { m with copy := v, down := rest }
  | request (r : M) : Step R π asks m { m with up := m.up ++ [r] }
  /-- The copy is changed ahead of the answer. -/
  | change {v : V} {r : M} (hr : asks r = true) (hv : π v = π m.copy) :
      Step R π asks m { m with copy := v, up := m.up ++ [r] }
  | serve {r : M} {rest : List M} {vs : List V} {v : V} {owes : Bool} (hup : m.up = r :: rest)
      (htells : Tells R π m.value m.owes vs v owes) (hr : asks r = true → vs ≠ []) :
      Step R π asks m
        { m with up := rest, down := m.down ++ vs, value := v, owes := owes }
  /-- The authority goes on by itself. -/
  | act {vs : List V} {v : V} {owes : Bool} (htells : Tells R π m.value m.owes vs v owes) :
      Step R π asks m { m with down := m.down ++ vs, value := v, owes := owes }

/-- What is under way leads to the value. -/
structure Faithful (R : B → B → Prop) (π : V → B) (asks : M → Bool) (m : Mirror V M) :
    Prop where
  chain : List.IsChain R (π m.copy :: m.down.map π)
  last : π m.last = π m.value
  synced : (∀ r ∈ m.up, asks r = false) → m.owes = false → m.last = m.value

variable {R : B → B → Prop} {π : V → B} {asks : M → Bool} {m m' : Mirror V M}

/-- Nothing is told and nothing changes. -/
theorem Tells.refl (v : V) (owes : Bool) : Tells R π v owes [] v owes :=
  ⟨.singleton _, rfl, fun h => ⟨Or.inl h, rfl⟩⟩

theorem getLastD_append (xs ys : List V) (v : V) :
    (xs ++ ys).getLastD v = ys.getLastD (xs.getLastD v) := by
  rw [List.getLastD_eq_getLast?, List.getLastD_eq_getLast?, List.getLastD_eq_getLast?,
    List.getLast?_append]
  cases ys.getLast? <;> rfl

/-- A telling behind what is under way. -/
theorem chain_append {v w : V} {xs vs : List V} (hxs : List.IsChain R (π w :: xs.map π))
    (hlast : π (xs.getLastD w) = π v) (hvs : List.IsChain R (π v :: vs.map π)) :
    List.IsChain R (π w :: (xs ++ vs).map π) := by
  induction xs generalizing w with
  | nil =>
      rw [List.nil_append, show π w = π v from hlast]
      exact hvs
  | cons x xs ih =>
      rw [List.map_cons, List.isChain_cons_cons] at hxs
      rw [List.cons_append, List.map_cons, List.isChain_cons_cons]
      refine ⟨hxs.1, ih hxs.2 ?_⟩
      rw [List.getLastD_cons] at hlast
      exact hlast

/-- The authority tells of its step. -/
theorem Faithful.tell {vs : List V} {v : V} {owes : Bool} {up : List M}
    (hm : m.Faithful R π asks) (htells : Tells R π m.value m.owes vs v owes)
    (hup : (∀ r ∈ up, asks r = false) → (∀ r ∈ m.up, asks r = false) ∨ vs ≠ []) :
    Faithful R π asks { m with up := up, down := m.down ++ vs, value := v, owes := owes } where
  chain := chain_append hm.chain hm.last htells.chain
  last := by
    change π ((m.down ++ vs).getLastD m.copy) = π v
    rw [getLastD_append, ← htells.last]
    cases vs with
    | nil => exact hm.last
    | cons x xs => rw [List.getLastD_cons, List.getLastD_cons]
  synced hasks howes := by
    obtain ⟨htold, hlast⟩ := htells.told howes
    change (m.down ++ vs).getLastD m.copy = v
    rw [getLastD_append, ← hlast]
    cases vs with
    | nil =>
        have hasks' := (hup hasks).resolve_right (not_not_intro rfl)
        exact hm.synced hasks' (htold.resolve_right (not_not_intro rfl))
    | cons x xs => rw [List.getLastD_cons, List.getLastD_cons]

/-- More requests. -/
theorem Faithful.requests (hm : m.Faithful R π asks) (rs : List M) :
    Faithful R π asks { m with up := m.up ++ rs } :=
  ⟨hm.chain, hm.last, fun hasks =>
    hm.synced fun q hq => hasks q (List.mem_append_left rs hq)⟩

/-- **Every step keeps the copy faithful.** -/
theorem Faithful.step (hm : m.Faithful R π asks) (hst : Step R π asks m m') :
    m'.Faithful R π asks := by
  cases hst with
  | @told v rest hdown =>
      have hlast : ∀ x : V, m.down.getLastD x = rest.getLastD v := fun x => by
        rw [hdown, List.getLastD_cons]
      have hchain := hm.chain
      rw [hdown, List.map_cons, List.isChain_cons_cons] at hchain
      exact ⟨hchain.2, (congrArg π (hlast m.copy)).symm.trans hm.last,
        fun hasks howes => (hlast m.copy).symm.trans (hm.synced hasks howes)⟩
  | request r => exact hm.requests [r]
  | @change v r hr hv =>
      refine ⟨hv ▸ hm.chain, ?_, fun hasks => ?_⟩
      · refine Eq.trans ?_ hm.last
        change π (m.down.getLastD v) = π (m.down.getLastD m.copy)
        cases m.down with
        | nil => exact hv
        | cons x xs => rw [List.getLastD_cons, List.getLastD_cons]
      · have hno := hasks r (List.mem_append_right m.up (List.mem_singleton_self r))
        exact absurd (hr.symm.trans hno) (by decide)
  | @serve r rest vs v owes hup htells hr =>
      refine hm.tell htells fun hrest => ?_
      by_cases hasks : asks r = true
      · exact Or.inr (hr hasks)
      · refine Or.inl fun q hq => ?_
        rw [hup] at hq
        rcases List.mem_cons.mp hq with rfl | hq
        · exact Bool.eq_false_iff.mpr hasks
        · exact hrest q hq
  | act htells => exact hm.tell htells Or.inl

/-- **With nothing under way the copy is the value.** -/
theorem Faithful.copy_eq (hm : m.Faithful R π asks) (hup : ∀ r ∈ m.up, asks r = false)
    (howes : m.owes = false) (hdown : m.down = []) : m.copy = m.value := by
  have hlast := hm.synced hup howes
  rwa [Mirror.last, hdown] at hlast

end Mirror

end Interaction
