import DemoCannon.Engagement
import DemoCannon.Lib.Plane
import DemoCannon.Lib.Run
import Mathlib.Algebra.Order.Ring.Rat
import Mathlib.Algebra.Order.Field.Rat

/-! # Detection: from the contours of a frame to the table of targets

    `FindTargets` takes the contours of the three colour planes one after the
    other.  A contour that is nearly a square is warped to the size of the
    reference images, and the symbol that differs from it in the fewest pixels is
    entered in `DetectedMatches`, unless an entry is there already, less than five
    pixels away: then the better match of the two stays.

    What OpenCV finds in the image is given with each contour.  Coordinates are
    exact.

    An entry that is replaced moves, and may come close to a later one; each
    target is listed once after exactly those frames in which that does not happen,
    or one of the two entries is replaced again (`listed_once_iff`). -/

namespace DemoCannon

open Interaction Plane Plane.Point

/-- What OpenCV makes of a contour. -/
structure Contour where
  /-- `approxPolyDP`. -/
  approx : List (Point Int)
  /-- `isContourConvex` of the approximation. -/
  isConvex : Bool
  /-- The center of mass, by `moments` of the contour itself. -/
  center : Point Rat
  /-- `countNonZero` of the difference to each reference image, after the warp of
      the given corners. -/
  diff : List (Point Rat) → Fin 10 → Nat

/-! ## The filters -/

/-- Twice the signed area of a polygon. -/
def signedArea : List (Point Int) → Int
  | p :: rest =>
      ((p :: rest).zip (rest ++ [p])).foldl (fun sum e => sum + cross e.1 e.2) 0
  | [] => 0

/-- `fabs(contourArea(approx))`. -/
def contourArea (approx : List (Point Int)) : Rat := ((signedArea approx).natAbs : Rat) / 2

/-- The square of `angle`. -/
def angleSq (pt1 pt2 pt0 : Point Int) : Rat :=
  let d1 := pt1 - pt0
  let d2 := pt2 - pt0
  ((dot d1 d2 ^ 2 : Int) : Rat) / ((dot d1 d1 * dot d2 d2 : Int) + 1 / 10 ^ 10)

/-- The square of `maxCosine`. -/
def maxCosineSq : List (Point Int) → Rat
  | [p0, p1, p2, p3] =>
      max (max (max 0 (angleSq p2 p0 p1)) (angleSq p3 p1 p2)) (angleSq p0 p2 p3)
  | _ => 0

/-- A side of `boundingRect`. -/
def side (coordinates : List Int) : Int :=
  match coordinates.max?, coordinates.min? with
  | some hi, some lo => hi - lo + 1
  | _, _ => 0

/-- `near1`. -/
def near1 (approx : List (Point Int)) : Rat :=
  side (approx.map Point.x) / side (approx.map Point.y)

/-- Large enough, with right angles, and about as wide as high. -/
def SquareShaped (approx : List (Point Int)) : Prop :=
  1000 < contourArea approx ∧ maxCosineSq approx < 9 / 100
    ∧ 3 / 4 < near1 approx ∧ near1 approx < 5 / 4

instance (approx : List (Point Int)) : Decidable (SquareShaped approx) :=
  inferInstanceAs (Decidable (_ ∧ _ ∧ _ ∧ _))

/-! ## The corners -/

/-- `Point2f` of a `Point`. -/
def toPoint2f (p : Point Int) : Point Rat := ⟨p.x, p.y⟩

/-- The corner of a pair with the smaller `x`, and the other one. -/
def leftOf (p q : Point Rat) : Point Rat := if q.x < p.x then q else p

def rightOf (p q : Point Rat) : Point Rat := if q.x < p.x then p else q

/-- `sortCorners`. -/
def sortCorners (corners : List (Point Rat)) (center : Point Rat) : List (Point Rat) :=
  match corners.filter (·.y < center.y), corners.filter (¬ ·.y < center.y) with
  | [t0, t1], [b0, b1] => [leftOf t0 t1, rightOf t0 t1, rightOf b0 b1, leftOf b0 b1]
  | _, _ => []

/-- The corners of a contour that passes for a square; none for any other. -/
def Contour.corners (c : Contour) : List (Point Rat) :=
  if c.approx.length = 4 ∧ contourArea c.approx < 11000 ∧ c.isConvex = true
      ∧ SquareShaped c.approx then
    sortCorners (c.approx.map toPoint2f) c.center
  else []

/-! ## The table -/

/-- An entry of `DetectedMatches`, with all its fields. -/
structure NDetectedMatches where
  symbol : Int := -1
  diff : Int := -1
  center : Point Rat := ⟨0, 0⟩
  ymin : Rat := 0
  xmin : Rat := 0
  ymax : Rat := 0
  xmax : Rat := 0
  deriving DecidableEq, Repr

/-- `MIN_DIFF_MATCH`. -/
def minDiffMatch : Int := 10000

/-- `MAX_DETECTED_MATCHES`. -/
def maxDetectedMatches : Nat := 20

/-- One turn of the loop over the reference images: `match` and `minDiff` so far. -/
def better (diff : Fin 10 → Nat) (best : Int × Int) (k : Fin 10) : Int × Int :=
  if (diff k : Int) < best.2 then (k.val, diff k) else best

/-- The reference image with the fewest different pixels; `minDiff` starts at
    `INT_MAX`. -/
def bestMatch (diff : Fin 10 → Nat) : Int × Int :=
  (List.finRange 10).foldl (better diff) (-1, 2147483647)

/-- The loop over the table from position `q` on: the first entry less than five
    pixels away is replaced if `e` is the better match, and whether there is one. -/
def replace (e : NDetectedMatches) : Nat → List NDetectedMatches →
    List NDetectedMatches × Bool
  | _, [] => ([], false)
  | q, d :: rest =>
      if q < maxDetectedMatches then
        if distSq e.center d.center < 25 then
          ((if e.diff < d.diff then e else d) :: rest, true)
        else
          let (rest, found) := replace e (q + 1) rest
          (d :: rest, found)
      else (d :: rest, false)

/-- Enter a match in the table. -/
def enter (table : List NDetectedMatches) (e : NDetectedMatches) : List NDetectedMatches :=
  if table.length = 0 then [e]
  else
    let (table, found) := replace e 0 table
    if found = false ∧ table.length < maxDetectedMatches then table ++ [e] else table

/-- The entry for the symbol and the difference found, unless it is too large. -/
def matched (center tl br : Point Rat) (best : Int × Int) : Option NDetectedMatches :=
  if best.1 ≠ -1 ∧ best.2 < minDiffMatch then
    some {
      symbol := best.1
      diff := best.2
      center := center
      ymin := tl.y
      xmin := tl.x
      ymax := br.y
      xmax := br.x }
  else none

/-- The entry that a contour makes, if it matches a symbol. -/
def Contour.entry (c : Contour) : Option NDetectedMatches :=
  match c.corners with
  | [tl, tr, br, bl] => matched c.center tl br (bestMatch (c.diff [tl, tr, br, bl]))
  | _ => none

/-- What `FindTargets` does with a contour. -/
def scanContour (table : List NDetectedMatches) (c : Contour) : List NDetectedMatches :=
  match c.entry with
  | some e => enter table e
  | none => table

/-- `DetectedMatches` after the contours of a frame, up to `NumMatches`. -/
def scanContours (contours : List Contour) : List NDetectedMatches :=
  contours.foldl scanContour []

/-- `FindTargets`, with the contours of each colour plane. -/
def findTargets (planes : Vector (List Contour) 3) : List NDetectedMatches :=
  scanContours planes.toList.flatten

/-! ## Each target once -/

/-- Entries of different targets. -/
def Apart (d e : NDetectedMatches) : Prop := 25 ≤ distSq d.center e.center

instance (d e : NDetectedMatches) : Decidable (Apart d e) := inferInstanceAs (Decidable (_ ≤ _))

/-- An entry that matches a symbol. -/
def NDetectedMatches.Matches (e : NDetectedMatches) : Prop :=
  (0 ≤ e.symbol ∧ e.symbol ≤ 9) ∧ e.diff < minDiffMatch

/-- The table lists each target once. -/
structure ListedOnce (table : List NDetectedMatches) : Prop where
  length_le : table.length ≤ maxDetectedMatches
  matches_symbol : ∀ e ∈ table, e.Matches
  apart : table.Pairwise Apart

/-- The contour is the better match for the entry at `i`, the first one that is less than
    five pixels away, and replaces it. -/
def Replaces (table : List NDetectedMatches) (c : Contour) (i : Nat) : Prop :=
  ∃ e d, c.entry = some e ∧ table[i]? = some d ∧ (∀ f ∈ table.take i, Apart e f)
    ∧ ¬ Apart e d ∧ e.diff < d.diff

/-- The contour replaces the entry at `i`, and is less than five pixels away from the one
    at `j` behind it as well. -/
def Collides (table : List NDetectedMatches) (c : Contour) (i j : Nat) : Prop :=
  Replaces table c i ∧ i < j ∧ ∃ e f, c.entry = some e ∧ table[j]? = some f ∧ ¬ Apart e f

/-! ### The parts of a step -/

theorem apart_comm {d e : NDetectedMatches} : Apart d e ↔ Apart e d := by
  rw [Apart, Apart, distSq_comm]

/-- The symbol found is the one with the fewest different pixels. -/
theorem bestMatch_spec (diff : Fin 10 → Nat) :
    bestMatch diff = (-1, 2147483647)
      ∨ ∃ k : Fin 10, bestMatch diff = ((k.val : Int), (diff k : Int))
        ∧ ∀ j, diff k ≤ diff j := by
  -- over the symbols already compared
  have hfold : ∀ (l seen : List (Fin 10)) (best : Int × Int),
      (best = (-1, 2147483647) ∧ (∀ j ∈ seen, (2147483647 : Int) ≤ diff j)
        ∨ ∃ k : Fin 10, best = ((k.val : Int), (diff k : Int)) ∧ ∀ j ∈ seen, diff k ≤ diff j) →
      l.foldl (better diff) best = (-1, 2147483647)
        ∨ ∃ k : Fin 10, l.foldl (better diff) best = ((k.val : Int), (diff k : Int))
          ∧ ∀ j ∈ seen ++ l, diff k ≤ diff j := by
    intro l
    induction l with
    | nil =>
        rintro seen best (⟨rfl, -⟩ | ⟨k, rfl, hk⟩)
        · exact Or.inl rfl
        · refine Or.inr ⟨k, rfl, ?_⟩
          rw [List.append_nil]
          exact hk
    | cons i l ih =>
        intro seen best hbest
        have hsplit : seen ++ i :: l = (seen ++ [i]) ++ l := by
          rw [List.append_assoc]
          rfl
        rw [List.foldl_cons, hsplit]
        refine ih (seen ++ [i]) _ ?_
        rw [better]
        have hseen : ∀ {Q : Fin 10 → Prop}, (∀ j ∈ seen, Q j) → Q i →
            ∀ j ∈ seen ++ [i], Q j := by
          intro Q hQ hi j hj
          rcases List.mem_append.mp hj with hj | hj
          · exact hQ j hj
          · rw [List.mem_singleton.mp hj]
            exact hi
        rcases hbest with ⟨rfl, hno⟩ | ⟨k, rfl, hk⟩
        · by_cases hlt : (diff i : Int) < 2147483647
          · rw [if_pos hlt]
            refine Or.inr ⟨i, rfl, hseen ?_ (Nat.le_refl _)⟩
            intro j hj
            have hj' := hno j hj
            omega
          · rw [if_neg hlt]
            exact Or.inl ⟨rfl, hseen hno (Int.not_lt.mp hlt)⟩
        · by_cases hlt : (diff i : Int) < diff k
          · rw [if_pos hlt]
            refine Or.inr ⟨i, rfl, hseen ?_ (Nat.le_refl _)⟩
            intro j hj
            have hj' := hk j hj
            omega
          · rw [if_neg hlt]
            exact Or.inr ⟨k, rfl, hseen hk (by omega)⟩
  rcases hfold (List.finRange 10) [] (-1, 2147483647) (Or.inl ⟨rfl, List.forall_mem_nil _⟩) with
    h | ⟨k, hk, hmin⟩
  · exact Or.inl h
  · exact Or.inr ⟨k, hk, fun j => hmin j (List.mem_finRange j)⟩

theorem bestMatch_symbol (diff : Fin 10 → Nat) :
    (bestMatch diff).1 = -1 ∨ 0 ≤ (bestMatch diff).1 ∧ (bestMatch diff).1 ≤ 9 := by
  rcases bestMatch_spec diff with hnone | ⟨k, hk, -⟩
  · exact Or.inl (congrArg Prod.fst hnone)
  · have hlt := k.isLt
    have hsymbol := congrArg Prod.fst hk
    dsimp only at hsymbol
    right
    omega

/-- An entry is made only for a symbol that matches. -/
theorem matches_of_matched {center tl br : Point Rat} {best : Int × Int}
    {e : NDetectedMatches} (hbest : best.1 = -1 ∨ 0 ≤ best.1 ∧ best.1 ≤ 9)
    (h : matched center tl br best = some e) : e.Matches := by
  rw [matched] at h
  split at h
  · rename_i hsome
    rw [← Option.some.inj h]
    exact ⟨hbest.resolve_left hsome.1, hsome.2⟩
  · cases h

theorem Contour.matches_of_entry {c : Contour} {e : NDetectedMatches} (h : c.entry = some e) :
    e.Matches := by
  rw [Contour.entry] at h
  split at h
  · exact matches_of_matched (bestMatch_symbol _) h
  · cases h

/-- The loop over the table finds the first entry that is too near. -/
theorem replace_spec (e : NDetectedMatches) {q : Nat} {table : List NDetectedMatches}
    (hq : q + table.length ≤ maxDetectedMatches) :
    ((∀ d ∈ table, Apart e d) ∧ replace e q table = (table, false))
      ∨ ∃ before d after, table = before ++ d :: after ∧ (∀ f ∈ before, Apart e f)
        ∧ ¬ Apart e d
        ∧ replace e q table = (before ++ (if e.diff < d.diff then e else d) :: after, true) := by
  induction table generalizing q with
  | nil => exact Or.inl ⟨List.forall_mem_nil _, rfl⟩
  | cons d rest ih =>
      rw [List.length_cons] at hq
      have hlt : q < maxDetectedMatches := by omega
      by_cases hnear : distSq e.center d.center < 25
      · refine Or.inr ⟨[], d, rest, rfl, List.forall_mem_nil _, Rat.not_le.mpr hnear, ?_⟩
        rw [replace, if_pos hlt, if_pos hnear]
        rfl
      · have hd : Apart e d := Rat.not_lt.mp hnear
        rcases ih (q := q + 1) (by omega) with ⟨hall, hsame⟩
          | ⟨before, f, after, rfl, hbefore, hf, hafter⟩
        · refine Or.inl ⟨List.forall_mem_cons.mpr ⟨hd, hall⟩, ?_⟩
          rw [replace, if_pos hlt, if_neg hnear, hsame]
        · refine Or.inr ⟨d :: before, f, after, rfl, ?_, hf, ?_⟩
          · exact List.forall_mem_cons.mpr ⟨hd, hbefore⟩
          rw [replace, if_pos hlt, if_neg hnear, hafter]
          rfl

/-- What entering a match does: it is added, dropped because the table is full, or
    compared with the first entry that is too near. -/
inductive Entered (table : List NDetectedMatches) (e : NDetectedMatches) :
    List NDetectedMatches → Prop where
  | added (hapart : ∀ d ∈ table, Apart e d) (hroom : table.length < maxDetectedMatches) :
      Entered table e (table ++ [e])
  | full (hapart : ∀ d ∈ table, Apart e d) (hfull : ¬ table.length < maxDetectedMatches) :
      Entered table e table
  | compared {before after : List NDetectedMatches} {d : NDetectedMatches}
      (htable : table = before ++ d :: after) (hbefore : ∀ f ∈ before, Apart e f)
      (hnear : ¬ Apart e d) :
      Entered table e (before ++ (if e.diff < d.diff then e else d) :: after)

theorem entered_enter (e : NDetectedMatches) {table : List NDetectedMatches}
    (hlen : table.length ≤ maxDetectedMatches) : Entered table e (enter table e) := by
  rw [enter]
  by_cases hempty : table.length = 0
  · obtain rfl := List.length_eq_zero_iff.mp hempty
    rw [if_pos hempty]
    exact .added (List.forall_mem_nil _) (by decide)
  · rw [if_neg hempty]
    rcases replace_spec e (q := 0) (by omega : 0 + table.length ≤ _) with
      ⟨hapart, hsame⟩ | ⟨before, d, after, htable, hbefore, hnear, hafter⟩
    · rw [hsame]
      dsimp only
      by_cases hroom : table.length < maxDetectedMatches
      · rw [if_pos ⟨rfl, hroom⟩]
        exact .added hapart hroom
      · rw [if_neg (fun h => hroom h.2)]
        exact .full hapart hroom
    · rw [hafter]
      dsimp only
      rw [if_neg fun h => Bool.false_ne_true h.1.symm]
      exact .compared htable hbefore hnear

/-! ### The step -/

section ListedOnce

variable {table : List NDetectedMatches} {c : Contour} {e : NDetectedMatches}

/-- Entering a match keeps everything but the distances. -/
theorem Entered.bounded {table' : List NDetectedMatches} (h : Entered table e table')
    (he : e.Matches) (hlen : table.length ≤ maxDetectedMatches)
    (hmatches : ∀ d ∈ table, d.Matches) :
    table'.length ≤ maxDetectedMatches ∧ ∀ d ∈ table', d.Matches := by
  cases h with
  | added hapart hroom =>
      refine ⟨?_, ?_⟩
      · rw [List.length_append]
        exact hroom
      · intro d hd
        rcases List.mem_append.mp hd with hd | hd
        · exact hmatches d hd
        · rw [List.mem_singleton.mp hd]
          exact he
  | full hapart hfull => exact ⟨hlen, hmatches⟩
  | @compared before after d htable hbefore hnear =>
      subst htable
      refine ⟨?_, ?_⟩
      · rw [List.length_append, List.length_cons] at hlen ⊢
        exact hlen
      · intro f hf
        rcases List.mem_append.mp hf with hf | hf
        · exact hmatches f (List.mem_append_left _ hf)
        rcases List.mem_cons.mp hf with rfl | hf
        · by_cases hbetter : e.diff < d.diff
          · rw [if_pos hbetter]
            exact he
          · rw [if_neg hbetter]
            exact hmatches d (List.mem_append_right _ (List.mem_cons_self ..))
        · exact hmatches f (List.mem_append_right _ (List.mem_cons_of_mem _ hf))

/-- Only the first entry that is too near is replaced. -/
theorem Replaces.unique {i j : Nat} (hi : Replaces table c i) (hj : Replaces table c j) :
    i = j := by
  -- the nearer to the front is apart from what replaces the other
  have hle : ∀ {i j : Nat}, Replaces table c i → Replaces table c j → j ≤ i := by
    rintro i j ⟨e, d, hentry, hd, -, hnear, -⟩ ⟨e', d', hentry', -, hbefore', -⟩
    obtain rfl := Option.some.inj (hentry.symm.trans hentry')
    by_contra hlt
    refine hnear (hbefore' d (List.mem_of_getElem? (i := i) ?_))
    rw [List.getElem?_take_of_lt (Nat.not_le.mp hlt)]
    exact hd
  exact Nat.le_antisymm (hle hj hi) (hle hi hj)

/-- What a contour does to the table, by position. -/
inductive Scanned (table : List NDetectedMatches) (c : Contour) :
    List NDetectedMatches → Prop where
  | same (hno : ∀ i, ¬ Replaces table c i) : Scanned table c table
  | added {e : NDetectedMatches} (hno : ∀ i, ¬ Replaces table c i)
      (hapart : ∀ d ∈ table, Apart e d) : Scanned table c (table ++ [e])
  | replaced {e : NDetectedMatches} {i : Nat} (hentry : c.entry = some e)
      (hreplaces : Replaces table c i) : Scanned table c (table.set i e)

theorem not_replaces_of_apart (hentry : c.entry = some e) (hapart : ∀ d ∈ table, Apart e d)
    (i : Nat) : ¬ Replaces table c i := by
  rintro ⟨e', d, hentry', hd, -, hnear, -⟩
  obtain rfl := Option.some.inj (hentry.symm.trans hentry')
  exact hnear (hapart d (List.mem_of_getElem? hd))

theorem scanned_scanContour (c : Contour) (hlen : table.length ≤ maxDetectedMatches) :
    Scanned table c (scanContour table c) := by
  rw [scanContour]
  cases hentry : c.entry with
  | none =>
      refine .same ?_
      rintro i ⟨e, -, hsome, -⟩
      cases hentry.symm.trans hsome
  | some e =>
      dsimp only
      have hent := entered_enter e hlen
      generalize enter table e = table' at hent
      cases hent with
      | added hapart hroom => exact .added (not_replaces_of_apart hentry hapart) hapart
      | full hapart hfull => exact .same (not_replaces_of_apart hentry hapart)
      | @compared before after d htable hbefore hnear =>
          subst htable
          have hd : (before ++ d :: after)[before.length]? = some d := by simp
          by_cases hbetter : e.diff < d.diff
          · have hset : before ++ e :: after = (before ++ d :: after).set before.length e := by
              simp
            rw [if_pos hbetter, hset]
            refine .replaced hentry ⟨e, d, hentry, hd, ?_, hnear, hbetter⟩
            rw [List.take_left]
            exact hbefore
          · rw [if_neg hbetter]
            refine .same ?_
            -- it is not better than the first entry that it is near
            rintro i ⟨e', d', hentry', hd', hbefore', hnear', hbetter'⟩
            obtain rfl := Option.some.inj (hentry.symm.trans hentry')
            rcases Nat.lt_trichotomy i before.length with hlt | rfl | hgt
            · rw [List.getElem?_append_left hlt] at hd'
              exact hnear' (hbefore d' (List.mem_of_getElem? hd'))
            · obtain rfl := Option.some.inj (hd.symm.trans hd')
              exact hbetter hbetter'
            · refine hnear (hbefore' d (List.mem_of_getElem? (i := before.length) ?_))
              rw [List.getElem?_take_of_lt hgt]
              exact hd

/-- The entries at two positions are less than five pixels apart. -/
def Near (table : List NDetectedMatches) (i j : Nat) : Prop :=
  ∃ d f, table[i]? = some d ∧ table[j]? = some f ∧ ¬ Apart d f

/-- **The step lemma.**  Two entries are near each other after a contour if it makes them
    collide, or if they have been and neither is replaced. -/
theorem near_scanContour_iff (c : Contour) (hlen : table.length ≤ maxDetectedMatches)
    {i j : Nat} (hij : i < j) :
    Near (scanContour table c) i j ↔ Collides table c i j
      ∨ Near table i j ∧ ¬ (Replaces table c i ∨ Replaces table c j) := by
  have hscanned := scanned_scanContour c hlen
  generalize scanContour table c = table' at hscanned
  cases hscanned with
  | same hno =>
      refine ⟨fun h => Or.inr ⟨h, not_or.mpr ⟨hno i, hno j⟩⟩, ?_⟩
      rintro (hcollides | h)
      · exact absurd hcollides.1 (hno i)
      · exact h.1
  | @added e hno hapart =>
      have hsame : Near (table ++ [e]) i j ↔ Near table i j := by
        constructor
        · rintro ⟨d, f, hd, hf, hnear⟩
          have hj : j < table.length + 1 := by
            obtain ⟨hlt, -⟩ := List.getElem?_eq_some_iff.mp hf
            rwa [List.length_append] at hlt
          rw [List.getElem?_append_left (by omega)] at hd
          by_cases hlast : j < table.length
          · rw [List.getElem?_append_left hlast] at hf
            exact ⟨d, f, hd, hf, hnear⟩
          · -- the new entry is apart from all the others
            obtain rfl : j = table.length := by omega
            rw [List.getElem?_concat_length] at hf
            obtain rfl := Option.some.inj hf
            exact absurd (apart_comm.mp (hapart d (List.mem_of_getElem? hd))) hnear
        · rintro ⟨d, f, hd, hf, hnear⟩
          obtain ⟨hi, -⟩ := List.getElem?_eq_some_iff.mp hd
          obtain ⟨hj, -⟩ := List.getElem?_eq_some_iff.mp hf
          refine ⟨d, f, ?_, ?_, hnear⟩
          · rwa [List.getElem?_append_left hi]
          · rwa [List.getElem?_append_left hj]
      rw [hsame]
      refine ⟨fun h => Or.inr ⟨h, not_or.mpr ⟨hno i, hno j⟩⟩, ?_⟩
      rintro (hcollides | h)
      · exact absurd hcollides.1 (hno i)
      · exact h.1
  | @replaced e p hentry hreplaces =>
      have hp : ∀ {k : Nat}, Replaces table c k ↔ k = p :=
        ⟨fun h => h.unique hreplaces, fun h => h ▸ hreplaces⟩
      obtain ⟨e', d, hentry', hd, hbefore, -⟩ := id hreplaces
      obtain rfl := Option.some.inj (hentry.symm.trans hentry')
      obtain ⟨hlt, -⟩ := List.getElem?_eq_some_iff.mp hd
      rw [hp, hp]
      by_cases hi : i = p
      · subst hi
        -- the entry in front is replaced
        have hset : Near (table.set i e) i j ↔ ∃ f, table[j]? = some f ∧ ¬ Apart e f := by
          rw [Near, List.getElem?_set_self hlt, List.getElem?_set_ne (Nat.ne_of_lt hij)]
          constructor
          · rintro ⟨d', f, hd', hf, hnear⟩
            obtain rfl := Option.some.inj hd'
            exact ⟨f, hf, hnear⟩
          · rintro ⟨f, hf, hnear⟩
            exact ⟨e, f, rfl, hf, hnear⟩
        rw [hset]
        constructor
        · rintro ⟨f, hf, hnear⟩
          exact Or.inl ⟨hreplaces, hij, e, f, hentry, hf, hnear⟩
        · rintro (⟨-, -, e', f, hentry', hf, hnear⟩ | h)
          · obtain rfl := Option.some.inj (hentry.symm.trans hentry')
            exact ⟨f, hf, hnear⟩
          · exact absurd (Or.inl rfl) h.2
      · have hno : ¬ Collides table c i j := fun h => hi (hp.mp h.1)
        rw [or_iff_right hno]
        by_cases hj : j = p
        · subst hj
          -- the entry behind is replaced by one that is apart from those in front of it
          refine iff_of_false ?_ fun h => h.2 (Or.inr rfl)
          rintro ⟨d', f, hd', hf, hnear⟩
          rw [List.getElem?_set_ne (Ne.symm hi)] at hd'
          rw [List.getElem?_set_self hlt] at hf
          obtain rfl := Option.some.inj hf
          refine hnear (apart_comm.mp (hbefore d' (List.mem_of_getElem? (i := i) ?_)))
          rw [List.getElem?_take_of_lt hij]
          exact hd'
        · rw [Near, List.getElem?_set_ne (Ne.symm hi), List.getElem?_set_ne (Ne.symm hj)]
          exact (and_iff_left (not_or.mpr ⟨hi, hj⟩)).symm

end ListedOnce

/-! ### The frame -/

/-- The table keeps its bounds, whatever the distances. -/
structure Bounded (table : List NDetectedMatches) : Prop where
  length_le : table.length ≤ maxDetectedMatches
  matches_symbol : ∀ e ∈ table, e.Matches

theorem Bounded.scanContour {table : List NDetectedMatches} (h : Bounded table) (c : Contour) :
    Bounded (scanContour table c) := by
  rw [DemoCannon.scanContour]
  cases hentry : c.entry with
  | none => exact h
  | some e =>
      obtain ⟨hlen, hmatches⟩ := (entered_enter e h.length_le).bounded
        (Contour.matches_of_entry hentry) h.length_le h.matches_symbol
      exact ⟨hlen, hmatches⟩

theorem bounded_nil : Bounded [] := ⟨Nat.zero_le _, List.forall_mem_nil _⟩

theorem bounded_scanContours (contours : List Contour) : Bounded (scanContours contours) :=
  List.foldlRecOn contours scanContour bounded_nil fun _ h c _ => h.scanContour c

/-- In a table within its bounds only the distances are left. -/
theorem Bounded.listedOnce_iff {table : List NDetectedMatches} (h : Bounded table) :
    ListedOnce table ↔ ∀ i j, i < j → ¬ Near table i j := by
  constructor
  · rintro honce i j hij ⟨d, f, hd, hf, hnear⟩
    obtain ⟨hi, rfl⟩ := List.getElem?_eq_some_iff.mp hd
    obtain ⟨hj, rfl⟩ := List.getElem?_eq_some_iff.mp hf
    exact hnear (List.pairwise_iff_getElem.mp honce.apart i j hi hj hij)
  · intro hno
    refine ⟨h.length_le, h.matches_symbol, List.pairwise_iff_getElem.mpr ?_⟩
    intro i j hi hj hij
    by_contra hnear
    exact hno i j hij
      ⟨_, _, List.getElem?_eq_getElem hi, List.getElem?_eq_getElem hj, hnear⟩

/-- **Each target is listed once** after a frame, in exactly those frames in which every
    collision of two entries is followed by a contour that replaces one of the two. -/
theorem listed_once_iff (planes : Vector (List Contour) 3) :
    ListedOnce (findTargets planes)
      ↔ ∀ seen c later i j, planes.toList.flatten = seen ++ c :: later →
        Collides (scanContours seen) c i j →
        ∃ between c' rest, later = between ++ c' :: rest
          ∧ (Replaces (scanContours (seen ++ c :: between)) c' i
            ∨ Replaces (scanContours (seen ++ c :: between)) c' j) := by
  have hnear : ∀ {i j : Nat}, i < j → (Near (findTargets planes) i j
      ↔ ∃ seen c later, planes.toList.flatten = seen ++ c :: later
        ∧ Collides (scanContours seen) c i j
        ∧ ∀ between c' rest, later = between ++ c' :: rest →
          ¬ (Replaces (scanContours (seen ++ c :: between)) c' i
            ∨ Replaces (scanContours (seen ++ c :: between)) c' j)) := fun hij =>
    foldl_since_iff Bounded (Near · _ _) bounded_nil (by rintro ⟨d, f, hd, -⟩; cases hd)
      (fun _ c h => h.scanContour c)
      (fun _ c h => near_scanContour_iff c h.length_le hij) _
  have hbounded : Bounded (findTargets planes) := bounded_scanContours _
  rw [hbounded.listedOnce_iff]
  constructor
  · intro hno seen c later i j hsplit hcollides
    by_contra hnever
    refine hno i j hcollides.2.1 ((hnear hcollides.2.1).mpr ⟨seen, c, later, hsplit, hcollides, ?_⟩)
    intro between c' rest hlater hreplaces
    exact hnever ⟨between, c', rest, hlater, hreplaces⟩
  · intro hall i j hij h
    obtain ⟨seen, c, later, hsplit, hcollides, hno⟩ := (hnear hij).mp h
    obtain ⟨between, c', rest, hlater, hreplaces⟩ := hall seen c later i j hsplit hcollides
    exact hno between c' rest hlater hreplaces

/-! ## A frame with three contours -/

namespace Session

/-- A contour around an upright square with its center at the given `x`, which
    differs in so many pixels from the symbol 3, and in more from the others. -/
def squareAt (x : Int) (diff : Nat) : Contour where
  approx := [⟨x - 20, 80⟩, ⟨x + 20, 80⟩, ⟨x + 20, 120⟩, ⟨x - 20, 120⟩]
  isConvex := true
  center := ⟨x, 100⟩
  diff := fun _ k => if k.val = 3 then diff else 20000

end Session

/-- A square in each plane: two of them six pixels apart, and a better match right
    between them. -/
theorem between_listed_twice :
    ¬ ListedOnce (findTargets
      #v[[Session.squareAt 100 400], [Session.squareAt 106 400], [Session.squareAt 103 300]]) := by
  intro h
  have hapart := h.apart
  revert hapart
  decide +kernel

end DemoCannon
