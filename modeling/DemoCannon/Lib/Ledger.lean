import Mathlib.Data.Finset.Erase
import Mathlib.Data.Finset.Insert
import Mathlib.Logic.Function.Basic

/-! # Who holds what has to be given back

    A system hands out handles, and a program keeps them in slots.  The ledger has both:
    what is in the slots, and what has not been given back.  It is accounted for when every
    handle that is out is in exactly one slot and no slot holds another: then nothing has
    leaked, and whatever is released through a slot is there to be released. -/

namespace Interaction

/-- Slots `κ` and the handles that are out. -/
structure Ledger (κ : Type) where
  slot : κ → Option Nat := fun _ => none
  live : Finset Nat := ∅
  next : Nat := 0

namespace Ledger

variable {κ : Type} [DecidableEq κ] {l : Ledger κ} {k k' : κ}

/-- A new handle is stored in `k`, whatever was there. -/
def acquire (l : Ledger κ) (k : κ) : Ledger κ where
  slot := Function.update l.slot k (some l.next)
  live := insert l.next l.live
  next := l.next + 1

/-- The slot is emptied. -/
def forget (l : Ledger κ) (k : κ) : Ledger κ :=
  { l with slot := Function.update l.slot k none }

/-- What is in the slot, if anything, is given back. -/
def release (l : Ledger κ) (k : κ) : Ledger κ :=
  match l.slot k with
  | none => l
  | some h => { l.forget k with live := l.live.erase h }

/-- What a slot is set to by a call that may fail. -/
def assign (l : Ledger κ) (k : κ) (made : Bool) : Ledger κ :=
  if made then l.acquire k else l.forget k

/-! ## Slots -/

@[simp] theorem slot_acquire : (l.acquire k).slot k' = if k' = k then some l.next else l.slot k' :=
  Function.update_apply ..

@[simp] theorem slot_forget : (l.forget k).slot k' = if k' = k then none else l.slot k' :=
  Function.update_apply ..

@[simp] theorem slot_release : (l.release k).slot k' = if k' = k then none else l.slot k' := by
  rw [release]
  cases hk : l.slot k with
  | none =>
      by_cases h : k' = k
      · rw [if_pos h, h]
        exact hk
      · rw [if_neg h]
  | some h => exact slot_forget

theorem live_acquire : (l.acquire k).live = insert l.next l.live := rfl

/-! ## Accounts -/

/-- Every handle that is out is in one slot, and there are no others. -/
structure Accounted (l : Ledger κ) : Prop where
  named : ∀ h, h ∈ l.live ↔ ∃ k, l.slot k = some h
  single : ∀ k k' h, l.slot k = some h → l.slot k' = some h → k = k'
  fresh : ∀ h ∈ l.live, h < l.next

omit [DecidableEq κ] in
theorem accounted_empty : ({} : Ledger κ).Accounted where
  named h := by simp
  single k k' h hk := by cases hk
  fresh h hh := absurd hh (Finset.notMem_empty h)

/-- Into an empty slot. -/
theorem Accounted.acquire (h : l.Accounted) (hk : l.slot k = none) : (l.acquire k).Accounted := by
  have hnext : l.next ∉ l.live := fun hlive => Nat.lt_irrefl _ (h.fresh _ hlive)
  have hslot : ∀ k', l.slot k' ≠ some l.next := fun k' hk' => hnext ((h.named _).mpr ⟨k', hk'⟩)
  refine ⟨fun x => ?_, fun k₁ k₂ x h₁ h₂ => ?_, fun x hx => ?_⟩
  · rw [live_acquire, Finset.mem_insert, h.named]
    constructor
    · rintro (rfl | ⟨k', hk'⟩)
      · exact ⟨k, slot_acquire.trans (if_pos rfl)⟩
      · have hkk : k' ≠ k := by
          rintro rfl
          rw [hk] at hk'
          cases hk'
        exact ⟨k', (slot_acquire.trans (if_neg hkk)).trans hk'⟩
    · rintro ⟨k', hk'⟩
      rw [slot_acquire] at hk'
      by_cases hkk : k' = k
      · rw [if_pos hkk] at hk'
        exact Or.inl (Option.some.inj hk').symm
      · rw [if_neg hkk] at hk'
        exact Or.inr ⟨k', hk'⟩
  · rw [slot_acquire] at h₁ h₂
    by_cases hk₁ : k₁ = k
    · by_cases hk₂ : k₂ = k
      · rw [hk₁, hk₂]
      · rw [if_pos hk₁] at h₁
        rw [if_neg hk₂, ← h₁] at h₂
        exact absurd h₂ (hslot k₂)
    · rw [if_neg hk₁] at h₁
      by_cases hk₂ : k₂ = k
      · rw [if_pos hk₂] at h₂
        rw [← h₂] at h₁
        exact absurd h₁ (hslot k₁)
      · rw [if_neg hk₂] at h₂
        exact h.single k₁ k₂ x h₁ h₂
  · rcases Finset.mem_insert.mp hx with rfl | hx
    · exact Nat.lt_succ_self _
    · exact Nat.lt_succ_of_lt (h.fresh x hx)

theorem Accounted.release (h : l.Accounted) (k : κ) : (l.release k).Accounted := by
  rw [Ledger.release]
  cases hk : l.slot k with
  | none => exact h
  | some y =>
      refine ⟨fun x => ?_, fun k₁ k₂ x h₁ h₂ => ?_,
        fun x hx => h.fresh x (Finset.mem_of_mem_erase hx)⟩
      · rw [Finset.mem_erase, h.named]
        constructor
        · rintro ⟨hne, k', hk'⟩
          have hkk : k' ≠ k := by
            rintro rfl
            exact hne (Option.some.inj (hk'.symm.trans hk))
          exact ⟨k', (slot_forget.trans (if_neg hkk)).trans hk'⟩
        · rintro ⟨k', hk'⟩
          rw [slot_forget] at hk'
          by_cases hkk : k' = k
          · rw [if_pos hkk] at hk'
            cases hk'
          · rw [if_neg hkk] at hk'
            refine ⟨?_, k', hk'⟩
            rintro rfl
            exact hkk (h.single k' k x hk' hk)
      · rw [slot_forget] at h₁ h₂
        by_cases hk₁ : k₁ = k
        · rw [if_pos hk₁] at h₁
          cases h₁
        · by_cases hk₂ : k₂ = k
          · rw [if_pos hk₂] at h₂
            cases h₂
          · rw [if_neg hk₁] at h₁
            rw [if_neg hk₂] at h₂
            exact h.single k₁ k₂ x h₁ h₂

/-- An empty slot may be emptied. -/
theorem Accounted.forget (h : l.Accounted) (hk : l.slot k = none) : (l.forget k).Accounted := by
  have hsame : l.forget k = l := by
    rw [Ledger.forget, ← hk, Function.update_eq_self]
  rwa [hsame]

/-- What was in a slot that is emptied has leaked. -/
theorem Accounted.not_forget (h : l.Accounted) {x : Nat} (hk : l.slot k = some x) :
    ¬ (l.forget k).Accounted := by
  intro hforget
  obtain ⟨k', hk'⟩ := (hforget.named x).mp ((h.named x).mpr ⟨k, hk⟩)
  rw [slot_forget] at hk'
  by_cases hkk : k' = k
  · rw [if_pos hkk] at hk'
    cases hk'
  · rw [if_neg hkk] at hk'
    exact hkk (h.single k' k x hk' hk)

omit [DecidableEq κ] in
/-- With all slots empty nothing is out. -/
theorem Accounted.live_eq_empty (h : l.Accounted) (hslot : ∀ k, l.slot k = none) : l.live = ∅ := by
  refine Finset.eq_empty_of_forall_notMem fun x hx => ?_
  obtain ⟨k, hk⟩ := (h.named x).mp hx
  rw [hslot k] at hk
  cases hk

/-! ## Slots in use -/

/-- The ledger is accounted for, and these slots are in use. -/
structure Uses (l : Ledger κ) (f : κ → Bool) : Prop where
  accounted : l.Accounted
  isSome : ∀ k, (l.slot k).isSome = f k

variable {f g : κ → Bool}

omit [DecidableEq κ] in
theorem uses_empty : ({} : Ledger κ).Uses fun _ => false := ⟨accounted_empty, fun _ => rfl⟩

omit [DecidableEq κ] in
theorem Uses.congr (h : l.Uses f) (hfg : ∀ k, f k = g k) : l.Uses g :=
  ⟨h.accounted, fun k => (h.isSome k).trans (hfg k)⟩

omit [DecidableEq κ] in
theorem Uses.slot_eq_none (h : l.Uses f) (hk : f k = false) : l.slot k = none := by
  have hnone : (l.slot k).isSome = false := (h.isSome k).trans hk
  rwa [Option.isSome_eq_false_iff, Option.isNone_iff_eq_none] at hnone

theorem Uses.acquire (h : l.Uses f) (hk : f k = false) :
    (l.acquire k).Uses (Function.update f k true) where
  accounted := h.accounted.acquire (h.slot_eq_none hk)
  isSome k' := by
    rw [slot_acquire, Function.update_apply, ← h.isSome]
    split <;> rfl

theorem Uses.release (h : l.Uses f) (k : κ) :
    (l.release k).Uses (Function.update f k false) where
  accounted := h.accounted.release k
  isSome k' := by
    rw [slot_release, Function.update_apply, ← h.isSome]
    split <;> rfl

theorem Uses.assign (h : l.Uses f) (hk : f k = false) (made : Bool) :
    (l.assign k made).Uses (Function.update f k made) := by
  cases made with
  | true => exact h.acquire hk
  | false =>
      refine ⟨h.accounted.forget (h.slot_eq_none hk), fun k' => ?_⟩
      rw [Ledger.assign, if_neg Bool.false_ne_true, slot_forget, Function.update_apply, ← h.isSome]
      split <;> rfl

omit [DecidableEq κ] in
/-- With no slot in use nothing is out. -/
theorem Uses.live_eq_empty (h : l.Uses f) (hf : ∀ k, f k = false) : l.live = ∅ :=
  h.accounted.live_eq_empty fun k => h.slot_eq_none (hf k)

end Ledger

end Interaction
