import DemoCannon.Detection
import Mathlib.Algebra.Order.AbsoluteValue.Basic
import Mathlib.Tactic.Linarith

/-! # The corners of a square

    `sortCorners` splits the corners at the height of the center, and each pair
    by `x`.  For some quadrilaterals that gives a bow-tie, or a mirror image.  A
    parallelogram with nearly right angles that is about as wide as high is never
    tilted so far: its corners come out clockwise (`sortCorners_clockwise`), so the
    warp of `FindTargets` turns a symbol at most, and does not mirror it. -/

namespace DemoCannon

open Plane Plane.Point

/-! ## The two upper corners -/

/-- What the filters say about two edges of a parallelogram. -/
structure SquareEdges (e f : Point Rat) : Prop where
  angle : 91 * dot e f ^ 2 < 10 * cross e f ^ 2
  area : 1 ≤ cross e f ^ 2
  aspect : 4 * (|e.x| + |f.x| + 1) < 5 * (|e.y| + |f.y| + 1)

/-- Of the two upper corners of such a parallelogram the left one is also the first on
    the way round clockwise.  `e` leads from one to the other, and `f` down from them
    to the lower ones. -/
theorem SquareEdges.left_first {e f : Point Rat} (h : SquareEdges e f) (hdown : 0 < f.y)
    (hlevel : |e.y| < f.y) : 0 < e.x * cross e f := by
  obtain ⟨hangle, harea, haspect⟩ := h
  rw [dot] at hangle
  rw [cross] at hangle harea ⊢
  by_contra hno
  have hno' : e.x * (e.x * f.y - e.y * f.x) ≤ 0 := not_lt.mp hno
  -- then both terms of the dot product have one sign, so that neither is large
  have hsign : (e.x * f.y) ^ 2 ≤ (e.x * f.x) * (e.y * f.y) := by nlinarith
  have hdot : (e.y * f.y) ^ 2 ≤ (e.x * f.x + e.y * f.y) ^ 2 := by
    nlinarith [sq_nonneg (e.x * f.y), sq_nonneg (e.x * f.x)]
  have hcross : (e.x * f.y - e.y * f.x) ^ 2 ≤ (e.y * f.x) ^ 2 := by nlinarith
  have hsteep : 91 * (e.y * f.y) ^ 2 < 10 * (e.y * f.x) ^ 2 := by linarith
  have hy : 0 < e.y ^ 2 := by
    rcases eq_or_ne e.y 0 with hzero | hne
    · rw [hzero] at hsteep
      linarith
    · exact sq_pos_of_ne_zero hne
  have hflat : 91 * f.y ^ 2 < 10 * f.x ^ 2 := by nlinarith
  -- so `f` is far from upright, and the parallelogram much wider than high
  have hwide : 3 * |f.y| < |f.x| := by
    have hsq : |3 * f.y| < |f.x| := sq_lt_sq.mp (by linarith [sq_nonneg f.y])
    rwa [abs_mul, abs_of_pos (by norm_num : (0 : Rat) < 3)] at hsq
  rw [abs_of_pos hdown] at hwide haspect
  have hfx : |f.x| < 3 / 2 := by linarith [abs_nonneg e.x]
  have hey : |e.y| < 1 / 2 := by linarith
  have hsmall : (e.y * f.x) ^ 2 < 1 := by
    have habs : |e.y * f.x| < |1| := by
      rw [abs_mul, abs_one]
      nlinarith [abs_nonneg e.y, abs_nonneg f.x]
    have hsq := sq_lt_sq.mpr habs
    rwa [one_pow] at hsq
  linarith

/-! ## Sorting -/

section Sorting

variable {p q : Point Rat}

theorem leftOf_of_lt (h : p.x < q.x) : leftOf p q = p ∧ leftOf q p = p :=
  ⟨if_neg (not_lt.mpr h.le), if_pos h⟩

theorem rightOf_of_lt (h : p.x < q.x) : rightOf p q = q ∧ rightOf q p = q :=
  ⟨if_neg (not_lt.mpr h.le), if_pos h⟩

end Sorting

/-- The corners are sorted clockwise. -/
structure SortedClockwise (sorted corners : List (Point Rat)) : Prop where
  perm : sorted.Perm corners
  goesRound : GoesRound sorted corners
  clockwise : Clockwise sorted

section Sorting

variable {corners : List (Point Rat)} {center q0 q1 q2 q3 : Point Rat}

/-- Each pair is sorted from left to right. -/
theorem sortCorners_eq {tl tr bl br : Point Rat}
    (htop : corners.filter (·.y < center.y) = [tl, tr]
      ∨ corners.filter (·.y < center.y) = [tr, tl])
    (hbot : corners.filter (¬ ·.y < center.y) = [bl, br]
      ∨ corners.filter (¬ ·.y < center.y) = [br, bl])
    (ht : tl.x < tr.x) (hb : bl.x < br.x) :
    sortCorners corners center = [tl, tr, br, bl] := by
  obtain ⟨htl, htl'⟩ := leftOf_of_lt ht
  obtain ⟨htr, htr'⟩ := rightOf_of_lt ht
  obtain ⟨hbl, hbl'⟩ := leftOf_of_lt hb
  obtain ⟨hbr, hbr'⟩ := rightOf_of_lt hb
  rw [sortCorners]
  rcases htop with htop | htop
  · rcases hbot with hbot | hbot
    · simp only [htop, hbot, htl, htr, hbl, hbr]
    · simp only [htop, hbot, htl, htr, hbl', hbr']
  · rcases hbot with hbot | hbot
    · simp only [htop, hbot, htl', htr', hbl, hbr]
    · simp only [htop, hbot, htl', htr', hbl', hbr']

/-- Two corners above the center, and the opposite two below it. -/
theorem sorted_of_split (hpar : IsParallelogram q0 q1 q2 q3)
    (hcenter : q0.y + q2.y = 2 * center.y) (hedges : SquareEdges (q1 - q0) (q3 - q0))
    (htop : corners.filter (·.y < center.y) = [q0, q1]
      ∨ corners.filter (·.y < center.y) = [q1, q0])
    (hbot : corners.filter (¬ ·.y < center.y) = [q3, q2]
      ∨ corners.filter (¬ ·.y < center.y) = [q2, q3]) :
    SortedClockwise (sortCorners corners center) [q0, q1, q2, q3] := by
  have hx : q0.x + q2.x = q1.x + q3.x := congrArg Point.x hpar
  have hy : q0.y + q2.y = q1.y + q3.y := congrArg Point.y hpar
  have htops : q0.y < center.y ∧ q1.y < center.y := by
    have hmem : ∀ q ∈ corners.filter (·.y < center.y), q.y < center.y := fun q hq =>
      of_decide_eq_true (List.mem_filter.mp hq).2
    rcases htop with h | h
    · rw [h] at hmem
      exact ⟨hmem q0 (by simp), hmem q1 (by simp)⟩
    · rw [h] at hmem
      exact ⟨hmem q0 (by simp), hmem q1 (by simp)⟩
  have hlevel : |(q1 - q0).y| < (q3 - q0).y := by
    rw [sub_y, sub_y, abs_lt]
    constructor <;> linarith
  have hdown : 0 < (q3 - q0).y := lt_of_le_of_lt (abs_nonneg _) hlevel
  have hfirst := hedges.left_first hdown hlevel
  rcases lt_trichotomy (q1 - q0).x 0 with hneg | hzero | hpos
  · -- the other way round
    have hcross : cross (q1 - q0) (q3 - q0) < 0 := by
      by_contra h
      exact absurd hfirst (not_lt.mpr (mul_nonpos_of_nonpos_of_nonneg hneg.le (not_lt.mp h)))
    have hround : GoesRound [q1, q0, q3, q2] [q0, q1, q2, q3] := Or.inr ⟨2, rfl⟩
    rw [sub_x] at hneg
    rw [sortCorners_eq htop.symm hbot.symm (by linarith) (by linarith)]
    refine ⟨hround.perm, hround, clockwise_of_parallelogram hpar.symm ?_⟩
    have hedge : q2.x - q1.x = q3.x - q0.x ∧ q2.y - q1.y = q3.y - q0.y := by
      constructor <;> linarith
    simp only [cross, sub_x, sub_y, hedge.1, hedge.2] at hcross ⊢
    linarith
  · rw [hzero, zero_mul] at hfirst
    exact absurd hfirst (lt_irrefl _)
  · have hround : GoesRound [q0, q1, q2, q3] [q0, q1, q2, q3] := Or.inl (List.IsRotated.refl _)
    have hcross : 0 < cross (q1 - q0) (q3 - q0) := (mul_pos_iff_of_pos_left hpos).mp hfirst
    rw [sub_x] at hpos
    rw [sortCorners_eq htop hbot (by linarith) (by linarith)]
    exact ⟨hround.perm, hround, clockwise_of_parallelogram hpar hcross⟩

theorem SortedClockwise.trans {sorted m : List (Point Rat)} (h : SortedClockwise sorted m)
    (hm : GoesRound m corners) : SortedClockwise sorted corners where
  perm := h.perm.trans hm.perm
  goesRound := h.goesRound.trans hm
  clockwise := h.clockwise

/-- From any corner on, and the other way round, the edges are as before. -/
theorem SquareEdges.congr {e f e' f' : Point Rat} (h : SquareEdges e f)
    (hedges : e'.x ^ 2 = f.x ^ 2 ∧ e'.y ^ 2 = f.y ^ 2 ∧ f'.x ^ 2 = e.x ^ 2 ∧ f'.y ^ 2 = e.y ^ 2
      ∨ e'.x ^ 2 = e.x ^ 2 ∧ e'.y ^ 2 = e.y ^ 2 ∧ f'.x ^ 2 = f.x ^ 2 ∧ f'.y ^ 2 = f.y ^ 2)
    (hdot : dot e' f' ^ 2 = dot e f ^ 2) (hcross : cross e' f' ^ 2 = cross e f ^ 2) :
    SquareEdges e' f' := by
  refine ⟨by rw [hdot, hcross]; exact h.angle, by rw [hcross]; exact h.area, ?_⟩
  have haspect := h.aspect
  rcases hedges with ⟨h1, h2, h3, h4⟩ | ⟨h1, h2, h3, h4⟩
  · rw [sq_eq_sq_iff_abs_eq_abs] at h1 h2 h3 h4
    rw [h1, h2, h3, h4]
    linarith
  · rw [sq_eq_sq_iff_abs_eq_abs] at h1 h2 h3 h4
    rw [h1, h2, h3, h4]
    exact haspect

/-- With the first corner above the center, and the corners from it or from the
    opposite one on. -/
theorem sortCorners_upper (hpar : IsParallelogram q0 q1 q2 q3)
    (hcenter : q0.y + q2.y = 2 * center.y) (hedges : SquareEdges (q1 - q0) (q3 - q0))
    (hcorners : corners = [q0, q1, q2, q3] ∨ corners = [q2, q3, q0, q1])
    (h0 : q0.y < center.y) :
    sortCorners corners center = []
      ∨ SortedClockwise (sortCorners corners center) [q0, q1, q2, q3] := by
  have hy : q0.y + q2.y = q1.y + q3.y := congrArg Point.y hpar
  have h2 : center.y < q2.y := by linarith
  by_cases h1 : q1.y < center.y
  · have h3 : center.y < q3.y := by linarith
    right
    refine sorted_of_split hpar hcenter hedges ?_ ?_
    · rcases hcorners with rfl | rfl <;> simp [h0, h1, h2.le, h3.le]
    · rcases hcorners with rfl | rfl <;> simp [h0, h1, h2.le, h3.le]
  by_cases h3 : q3.y < center.y
  · have hround : GoesRound [q0, q3, q2, q1] [q0, q1, q2, q3] := Or.inr ⟨1, rfl⟩
    right
    refine (sorted_of_split (hpar.trans (Point.add_comm ..)) hcenter ?_ ?_ ?_).trans hround
    · refine hedges.congr (Or.inl ⟨rfl, rfl, rfl, rfl⟩) ?_ ?_
      · simp only [dot]
        ring
      · simp only [cross]
        ring
    · rcases hcorners with rfl | rfl <;> simp [h0, h3, h2.le, not_lt.mp h1]
    · rcases hcorners with rfl | rfl <;> simp [h0, h3, h2.le, not_lt.mp h1]
  · left
    rcases hcorners with rfl | rfl <;> simp [sortCorners, h0, h1, h3, h2.le]

/-- The corners of such a parallelogram come out clockwise, or not at all. -/
theorem sortCorners_parallelogram (hpar : IsParallelogram q0 q1 q2 q3)
    (hcenter : q0.y + q2.y = 2 * center.y) (hedges : SquareEdges (q1 - q0) (q3 - q0)) :
    sortCorners [q0, q1, q2, q3] center = []
      ∨ SortedClockwise (sortCorners [q0, q1, q2, q3] center) [q0, q1, q2, q3] := by
  have hx : q0.x + q2.x = q1.x + q3.x := congrArg Point.x hpar
  have hy : q0.y + q2.y = q1.y + q3.y := congrArg Point.y hpar
  by_cases h0 : q0.y < center.y
  · exact sortCorners_upper hpar hcenter hedges (Or.inl rfl) h0
  by_cases h2 : q2.y < center.y
  · have hround : GoesRound [q2, q3, q0, q1] [q0, q1, q2, q3] := Or.inl ⟨2, rfl⟩
    have hback : IsParallelogram q2 q3 q0 q1 :=
      (Point.add_comm ..).trans (hpar.trans (Point.add_comm ..))
    have hback_edges : SquareEdges (q3 - q2) (q1 - q2) := by
      have h3 : q3 - q2 = q0 - q1 := by
        ext
        · simp only [sub_x]
          linarith
        · simp only [sub_y]
          linarith
      have h1 : q1 - q2 = q0 - q3 := by
        ext
        · simp only [sub_x]
          linarith
        · simp only [sub_y]
          linarith
      rw [h3, h1]
      refine hedges.congr (Or.inr ?_) ?_ ?_
      · simp only [sub_x, sub_y]
        refine ⟨?_, ?_, ?_, ?_⟩ <;> ring
      · simp only [dot, sub_x, sub_y]
        ring
      · simp only [cross, sub_x, sub_y]
        ring
    rcases sortCorners_upper hback (by linarith) hback_edges (Or.inr rfl) h2 with h | h
    · exact Or.inl h
    · exact Or.inr (h.trans hround)
  · -- no more than one corner is above the center
    left
    by_cases h1 : q1.y < center.y
    · have h3 : center.y ≤ q3.y := by linarith
      simp [sortCorners, h0, h1, h2, h3]
    · by_cases h3 : q3.y < center.y
      · simp [sortCorners, h0, h1, h2, h3]
      · simp [sortCorners, h0, h1, h2, h3]

end Sorting

/-! ## What the filters say -/

/-- How far four coordinates are apart that are opposite in pairs. -/
theorem side_four {x0 x1 x2 x3 : Int} (h : x0 + x2 = x1 + x3) :
    side [x0, x1, x2, x3] = |x1 - x0| + |x3 - x0| + 1 := by
  have hmax : [x0, x1, x2, x3].max? = some (max (max (max x0 x1) x2) x3) := rfl
  have hmin : [x0, x1, x2, x3].min? = some (min (min (min x0 x1) x2) x3) := rfl
  rw [side, hmax, hmin]
  dsimp only
  rw [abs_eq_max_neg, abs_eq_max_neg]
  omega

section Filters

variable {p0 p1 p2 p3 : Point Int}

theorem contourArea_parallelogram (h : IsParallelogram p0 p1 p2 p3) :
    contourArea [p0, p1, p2, p3] = |((cross (p1 - p0) (p3 - p0) : Int) : Rat)| := by
  have hx : p2.x = p1.x + p3.x - p0.x := eq_sub_of_add_eq' (congrArg Point.x h)
  have hy : p2.y = p1.y + p3.y - p0.y := eq_sub_of_add_eq' (congrArg Point.y h)
  have hsigned : signedArea [p0, p1, p2, p3] = 2 * cross (p1 - p0) (p3 - p0) := by
    change 0 + cross p0 p1 + cross p1 p2 + cross p2 p3 + cross p3 p0 = _
    simp only [cross, sub_x, sub_y, hx, hy]
    ring
  rw [contourArea, hsigned, Nat.cast_natAbs, Int.cast_abs, Int.cast_mul, abs_mul]
  norm_num

/-- The angle at the last corner. -/
theorem angleSq_parallelogram (h : IsParallelogram p0 p1 p2 p3) :
    angleSq p0 p2 p3 = ((dot (p1 - p0) (p3 - p0) : Int) : Rat) ^ 2
      / (((dot (p1 - p0) (p3 - p0) : Int) : Rat) ^ 2 + ((cross (p1 - p0) (p3 - p0) : Int) : Rat) ^ 2
        + 1 / 10 ^ 10) := by
  have hx : p2.x = p1.x + p3.x - p0.x := eq_sub_of_add_eq' (congrArg Point.x h)
  have hy : p2.y = p1.y + p3.y - p0.y := eq_sub_of_add_eq' (congrArg Point.y h)
  have hdot : dot (p0 - p3) (p2 - p3) ^ 2 = dot (p1 - p0) (p3 - p0) ^ 2 := by
    simp only [dot, sub_x, sub_y, hx, hy]
    ring
  have hlengths : dot (p0 - p3) (p0 - p3) * dot (p2 - p3) (p2 - p3)
      = dot (p1 - p0) (p3 - p0) ^ 2 + cross (p1 - p0) (p3 - p0) ^ 2 := by
    rw [dot_sq_add_cross_sq]
    simp only [dot, sub_x, sub_y, hx, hy]
    ring
  rw [angleSq, hdot, hlengths]
  push_cast
  rfl

theorem squareEdges_of_squareShaped (h : IsParallelogram p0 p1 p2 p3)
    (hsquare : SquareShaped [p0, p1, p2, p3]) :
    SquareEdges (toPoint2f p1 - toPoint2f p0) (toPoint2f p3 - toPoint2f p0) := by
  obtain ⟨harea, hcosine, -, hnear⟩ := hsquare
  have hcross : cross (toPoint2f p1 - toPoint2f p0) (toPoint2f p3 - toPoint2f p0)
      = ((cross (p1 - p0) (p3 - p0) : Int) : Rat) := by
    simp [cross, toPoint2f]
  have hdot : dot (toPoint2f p1 - toPoint2f p0) (toPoint2f p3 - toPoint2f p0)
      = ((dot (p1 - p0) (p3 - p0) : Int) : Rat) := by
    simp [dot, toPoint2f]
  rw [contourArea_parallelogram h] at harea
  have hlarge : 1 ≤ ((cross (p1 - p0) (p3 - p0) : Int) : Rat) ^ 2 := by
    rw [← sq_abs]
    nlinarith
  have hangle := lt_of_le_of_lt (le_max_right ..) hcosine
  rw [angleSq_parallelogram h, div_lt_iff₀ (by positivity)] at hangle
  refine ⟨?_, ?_, ?_⟩
  · rw [hdot, hcross]
    linarith
  · rw [hcross]
    exact hlarge
  · have hx := congrArg Point.x h
    have hy := congrArg Point.y h
    have hwidth : side ([p0, p1, p2, p3].map Point.x) = |p1.x - p0.x| + |p3.x - p0.x| + 1 :=
      side_four hx
    have hheight : side ([p0, p1, p2, p3].map Point.y) = |p1.y - p0.y| + |p3.y - p0.y| + 1 :=
      side_four hy
    rw [near1, hwidth, hheight] at hnear
    push_cast at hnear
    rw [div_lt_div_iff₀ (by positivity) (by norm_num)] at hnear
    simp only [sub_x, sub_y, toPoint2f]
    linarith

end Filters

/-- **Symbols are never mirrored or twisted.** -/
theorem sortCorners_clockwise {P u v : Point Int} {approx : List (Point Int)}
    {center : Point Rat} (happrox : GoesRound approx [P, P + u, P + u + v, P + v])
    (hcenter : center = ⟨P.x + (u.x + v.x) / 2, P.y + (u.y + v.y) / 2⟩)
    (hsquare : SquareShaped approx) :
    sortCorners (approx.map toPoint2f) center = []
      ∨ SortedClockwise (sortCorners (approx.map toPoint2f) center)
        ([P, P + u, P + u + v, P + v].map toPoint2f) := by
  have hlen : approx.length = 4 := happrox.perm.length_eq
  obtain ⟨p0, p1, p2, p3, rfl⟩ := List.length_eq_four.mp hlen
  have hvertices : IsParallelogram P (P + u) (P + u + v) (P + v) := by
    refine Point.ext ?_ ?_
    · simp only [add_x]
      ring
    · simp only [add_y]
      ring
  obtain ⟨hfirst, hsecond⟩ := happrox.diagonals hvertices
  have hpar : IsParallelogram p0 p1 p2 p3 := hfirst.trans hsecond.symm
  have hparRat : IsParallelogram (toPoint2f p0) (toPoint2f p1) (toPoint2f p2) (toPoint2f p3) := by
    have hx : (p0.x : Rat) + p2.x = p1.x + p3.x := by
      exact_mod_cast congrArg Point.x hpar
    have hy : (p0.y : Rat) + p2.y = p1.y + p3.y := by
      exact_mod_cast congrArg Point.y hpar
    exact Point.ext hx hy
  have hmiddle : (toPoint2f p0).y + (toPoint2f p2).y = 2 * center.y := by
    have hy : (p0.y : Rat) + p2.y = P.y + (P.y + u.y + v.y) := by
      exact_mod_cast congrArg Point.y hfirst
    rw [hcenter]
    simp only [toPoint2f]
    linarith
  rcases sortCorners_parallelogram hparRat hmiddle (squareEdges_of_squareShaped hpar hsquare) with
    hnone | hsorted
  · exact Or.inl hnone
  · exact Or.inr (hsorted.trans (happrox.map toPoint2f))

/-- A tilted square, given from its second corner on and the other way round. -/
theorem tilted_square_clockwise :
    sortCorners ([⟨160, 120⟩, ⟨100, 100⟩, ⟨80, 160⟩, ⟨140, 180⟩].map toPoint2f) ⟨120, 140⟩
        = [⟨100, 100⟩, ⟨160, 120⟩, ⟨140, 180⟩, ⟨80, 160⟩]
      ∧ (sortCorners ([⟨160, 120⟩, ⟨100, 100⟩, ⟨80, 160⟩, ⟨140, 180⟩].map toPoint2f) ⟨120, 140⟩ = []
        ∨ SortedClockwise
          (sortCorners ([⟨160, 120⟩, ⟨100, 100⟩, ⟨80, 160⟩, ⟨140, 180⟩].map toPoint2f)
            ⟨120, 140⟩)
          ([⟨100, 100⟩, ⟨160, 120⟩, ⟨140, 180⟩, ⟨80, 160⟩].map toPoint2f)) :=
  ⟨by decide +kernel,
    sortCorners_clockwise (P := ⟨100, 100⟩) (u := ⟨60, 20⟩) (v := ⟨-20, 60⟩)
      (Or.inr ⟨2, by decide +kernel⟩) (by decide +kernel) (by decide +kernel)⟩

end DemoCannon
