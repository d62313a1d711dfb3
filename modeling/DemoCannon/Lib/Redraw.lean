/-! # Redrawing only what has changed

    A display that follows a value is kept up to date region by region: a
    region is drawn again only when what it watches of the value is not what it
    was before.  After any values it shows the last one it was drawn for
    (`Region.shows_cons`), which is the latest one exactly as far as what it
    draws depends on what it watches (`Region.shows_eq_draw`).

    Histories are given the latest value first. -/

namespace Interaction

/-- A region of a display of values in `V`: what of a value decides that it is
    drawn again, and what it then shows. -/
structure Region (V K C : Type) where
  watch : V → K
  draw : V → C

namespace Region

variable {V K C : Type} [DecidableEq K] (r : Region V K C)

/-- What the region shows after `v`, where it was `shown` after the value
    before it.  At the first value it is always drawn. -/
def refresh (last : Option V) (shown : C) (v : V) : C :=
  if last.map r.watch = some (r.watch v) then shown else r.draw v

/-- What the region shows after a history, `c₀` being on it at the start. -/
def shows (c₀ : C) : List V → C
  | [] => c₀
  | v :: before => r.refresh before.head? (shows c₀ before) v

/-- The value that the region was last drawn for: the first one since which
    what it watches has stayed the same. -/
def drawnFor (v : V) : List V → V
  | [] => v
  | u :: before => if r.watch u = r.watch v then drawnFor u before else v

theorem refresh_first (shown : C) (v : V) : r.refresh none shown v = r.draw v :=
  if_neg nofun

theorem refresh_same {u v : V} (h : r.watch u = r.watch v) (shown : C) :
    r.refresh (some u) shown v = shown :=
  if_pos (congrArg some h)

theorem refresh_changed {u v : V} (h : r.watch u ≠ r.watch v) (shown : C) :
    r.refresh (some u) shown v = r.draw v :=
  if_neg fun he => h (Option.some.inj he)

/-- A region is up to date with what it watches. -/
theorem watch_drawnFor (v : V) (before : List V) :
    r.watch (r.drawnFor v before) = r.watch v := by
  induction before generalizing v with
  | nil => rfl
  | cons u before ih =>
      rw [drawnFor]
      by_cases h : r.watch u = r.watch v
      · rw [if_pos h, ih u, h]
      · rw [if_neg h]

/-- **What a region shows** is the value it was last drawn for. -/
theorem shows_cons (c₀ : C) (v : V) (before : List V) :
    r.shows c₀ (v :: before) = r.draw (r.drawnFor v before) := by
  induction before generalizing v with
  | nil => exact r.refresh_first c₀ v
  | cons u before ih =>
      rw [shows, List.head?_cons, drawnFor]
      by_cases h : r.watch u = r.watch v
      · rw [if_pos h, r.refresh_same h, ih u]
      · rw [if_neg h, r.refresh_changed h]

/-- A region that watches all it draws shows the latest value. -/
theorem shows_eq_draw (hr : ∀ u v, r.watch u = r.watch v → r.draw u = r.draw v)
    (c₀ : C) (v : V) (before : List V) : r.shows c₀ (v :: before) = r.draw v := by
  rw [shows_cons]
  exact hr _ _ (r.watch_drawnFor v before)

end Region

end Interaction
