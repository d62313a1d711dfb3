import Mathlib.Algebra.Order.Ring.Defs
import Mathlib.Data.List.Rotate
import Mathlib.Tactic.Ring

/-! # Points and polygons in the plane

    The coordinates are those of an image, with `y` downwards: a polygon that
    turns by a positive angle at each of its corners goes round clockwise.

    In a parallelogram all corners turn alike, so one of them decides about its
    orientation (`clockwise_of_parallelogram`). -/

namespace Plane

@[ext]
structure Point (K : Type) where
  x : K
  y : K
  deriving DecidableEq, Repr

namespace Point

variable {K : Type} [CommRing K]

instance : Add (Point K) := ⟨fun p q => ⟨p.x + q.x, p.y + q.y⟩⟩

instance : Sub (Point K) := ⟨fun p q => ⟨p.x - q.x, p.y - q.y⟩⟩

@[simp] theorem add_x (p q : Point K) : (p + q).x = p.x + q.x := rfl

@[simp] theorem add_y (p q : Point K) : (p + q).y = p.y + q.y := rfl

@[simp] theorem sub_x (p q : Point K) : (p - q).x = p.x - q.x := rfl

@[simp] theorem sub_y (p q : Point K) : (p - q).y = p.y - q.y := rfl

protected theorem add_comm (p q : Point K) : p + q = q + p := by
  change (⟨p.x + q.x, p.y + q.y⟩ : Point K) = ⟨q.x + p.x, q.y + p.y⟩
  rw [AddCommMagma.add_comm p.x, AddCommMagma.add_comm p.y]

def dot (u v : Point K) : K := u.x * v.x + u.y * v.y

/-- The signed area that two vectors span. -/
def cross (u v : Point K) : K := u.x * v.y - u.y * v.x

/-- Lagrange's identity: what two lengths do not give to the dot product they give
    to the area. -/
theorem dot_sq_add_cross_sq (u v : Point K) :
    dot u v ^ 2 + cross u v ^ 2 = dot u u * dot v v := by
  rw [dot, cross, dot, dot]
  ring

/-- The square of the distance. -/
def distSq (p q : Point K) : K := dot (p - q) (p - q)

theorem distSq_comm (p q : Point K) : distSq p q = distSq q p := by
  simp only [distSq, dot, sub_x, sub_y]
  ring

/-- How a polygon turns on its way from `a` by `b` to `c`. -/
def turn (a b c : Point K) : K := cross (b - a) (c - b)

end Point

open Point

variable {K : Type}

/-- `l` goes round the polygon `vertices`, one way or the other, from any of its
    vertices on. -/
def GoesRound (l vertices : List (Point K)) : Prop :=
  l ~r vertices ∨ l ~r vertices.reverse

/-- At every corner the polygon turns clockwise. -/
def Clockwise [CommRing K] [LT K] (l : List (Point K)) : Prop :=
  ∀ t ∈ l.zip ((l.rotate 1).zip (l.rotate 2)), 0 < turn t.1 t.2.1 t.2.2

/-- The diagonals have the same middle. -/
def IsParallelogram [CommRing K] (a b c d : Point K) : Prop := a + c = b + d

theorem GoesRound.perm {l vertices : List (Point K)} (h : GoesRound l vertices) :
    l.Perm vertices := by
  rcases h with h | h
  · exact h.perm
  · exact h.perm.trans vertices.reverse_perm

theorem GoesRound.trans {l m vertices : List (Point K)} (h : GoesRound l m)
    (hm : GoesRound m vertices) : GoesRound l vertices := by
  rcases h with h | h
  · rcases hm with hm | hm
    · exact Or.inl (h.trans hm)
    · exact Or.inr (h.trans hm)
  · rcases hm with hm | hm
    · exact Or.inr (h.trans hm.reverse)
    · have hback := hm.reverse
      rw [List.reverse_reverse] at hback
      exact Or.inl (h.trans hback)

theorem GoesRound.map {L : Type} (g : Point K → Point L) {l vertices : List (Point K)}
    (h : GoesRound l vertices) : GoesRound (l.map g) (vertices.map g) := by
  rcases h with h | h
  · exact Or.inl (h.map g)
  · have hmap := h.map g
    rw [List.map_reverse] at hmap
    exact Or.inr hmap

/-- A way round a quadrilateral is one of eight. -/
theorem goesRound_four {l : List (Point K)} {a b c d : Point K}
    (h : GoesRound l [a, b, c, d]) :
    l ∈ [[a, b, c, d], [b, c, d, a], [c, d, a, b], [d, a, b, c],
      [d, c, b, a], [c, b, a, d], [b, a, d, c], [a, d, c, b]] := by
  have hrotated : ∀ {p q r s : Point K}, l ~r [p, q, r, s] →
      l ∈ [[p, q, r, s], [q, r, s, p], [r, s, p, q], [s, p, q, r]] := by
    intro p q r s hr
    have hmem := List.mem_cyclicPermutations_iff.mpr hr
    exact hmem
  rcases h with h | h
  · have hmem := hrotated h
    exact List.mem_append_left [[d, c, b, a], [c, b, a, d], [b, a, d, c], [a, d, c, b]] hmem
  · have hmem := hrotated (p := d) h
    exact List.mem_append_right [[a, b, c, d], [b, c, d, a], [c, d, a, b], [d, a, b, c]] hmem

/-- Both diagonals still have their middle where the first had it. -/
theorem GoesRound.diagonals [CommRing K] {a b c d p q r s : Point K}
    (h : GoesRound [p, q, r, s] [a, b, c, d]) (habcd : IsParallelogram a b c d) :
    p + r = a + c ∧ q + s = a + c := by
  have hmem := goesRound_four h
  simp only [List.mem_cons, List.cons.injEq, and_true, List.not_mem_nil, or_false] at hmem
  -- either diagonal comes first, from either of its ends
  have hsum : p + r = a + c ∧ q + s = b + d ∨ p + r = b + d ∧ q + s = a + c := by
    rcases hmem with ⟨rfl, rfl, rfl, rfl⟩ | ⟨rfl, rfl, rfl, rfl⟩ | ⟨rfl, rfl, rfl, rfl⟩
      | ⟨rfl, rfl, rfl, rfl⟩ | ⟨rfl, rfl, rfl, rfl⟩ | ⟨rfl, rfl, rfl, rfl⟩
      | ⟨rfl, rfl, rfl, rfl⟩ | ⟨rfl, rfl, rfl, rfl⟩
    · exact Or.inl ⟨rfl, rfl⟩
    · exact Or.inr ⟨rfl, Point.add_comm ..⟩
    · exact Or.inl ⟨Point.add_comm .., Point.add_comm ..⟩
    · exact Or.inr ⟨Point.add_comm .., rfl⟩
    · exact Or.inr ⟨Point.add_comm .., Point.add_comm ..⟩
    · exact Or.inl ⟨Point.add_comm .., rfl⟩
    · exact Or.inr ⟨rfl, rfl⟩
    · exact Or.inl ⟨rfl, Point.add_comm ..⟩
  rcases hsum with ⟨hpr, hqs⟩ | ⟨hpr, hqs⟩
  · exact ⟨hpr, hqs.trans habcd.symm⟩
  · exact ⟨hpr.trans habcd.symm, hqs⟩

theorem clockwise_of_parallelogram [CommRing K] [LT K] {a b c d : Point K}
    (h : IsParallelogram a b c d) (hturn : 0 < cross (b - a) (d - a)) :
    Clockwise [a, b, c, d] := by
  have hx : a.x + c.x = b.x + d.x := congrArg Point.x h
  have hy : a.y + c.y = b.y + d.y := congrArg Point.y h
  have hc : c.x = b.x + d.x - a.x ∧ c.y = b.y + d.y - a.y :=
    ⟨by rw [← hx]; ring, by rw [← hy]; ring⟩
  -- every corner turns by the area of the parallelogram
  have hcorner : ∀ t ∈ [turn a b c, turn b c d, turn c d a, turn d a b],
      t = cross (b - a) (d - a) := by
    intro t ht
    simp only [List.mem_cons, List.not_mem_nil, or_false] at ht
    rcases ht with rfl | rfl | rfl | rfl
    all_goals
      simp only [turn, cross, sub_x, sub_y, hc.1, hc.2]
      ring
  intro t ht
  have hmem : turn t.1 t.2.1 t.2.2 ∈ [turn a b c, turn b c d, turn c d a, turn d a b] :=
    List.mem_map_of_mem (f := fun t => turn t.1 t.2.1 t.2.2) ht
  rw [hcorner _ hmem]
  exact hturn

end Plane
