import DemoCannon.Lib.Decimal
import DemoCannon.Message
import Mathlib.Algebra.Order.Field.Rat
import Mathlib.Data.Rat.Floor

/-! # The text in `Correct.ini`

    `WriteOffsets` prints the two offsets with `%f`, and `ReadOffsets` reads them when the
    server starts.  What is read back are the offsets with six places behind the point
    (`readOffsets_offsetsText`), which are the offsets themselves exactly if they have no
    more (`sixPlaces_eq_iff`).

    The offsets are exact numbers here.  Those of a `float` are too while they are
    multiples of 1/64, as the defaults are, below 2^18: no move rounds them. -/

namespace DemoCannon

open Interaction.Decimal

/-! ## Printing -/

/-- To the nearest number, and to the even one of two. -/
def roundHalfEven (q : Rat) : Nat :=
  let below := ⌊q⌋₊
  if q - below < 1 / 2 then below
  else if 1 / 2 < q - below then below + 1
  else if below % 2 = 0 then below else below + 1

/-- The millionths that `%f` prints. -/
def millionths (x : Rat) : Nat := roundHalfEven (|x| * 10 ^ 6)

/-- `%f`. -/
def printFloat (x : Rat) : Bytes :=
  (if x < 0 then [0x2D] else []) ++ print 1 (millionths x / 10 ^ 6)
    ++ 0x2E :: print 6 (millionths x % 10 ^ 6)

/-- `"xCorrect"`. -/
def xCorrectText : Bytes := [0x78, 0x43, 0x6f, 0x72, 0x72, 0x65, 0x63, 0x74]

/-- `"yCorrect"`. -/
def yCorrectText : Bytes := [0x79, 0x43, 0x6f, 0x72, 0x72, 0x65, 0x63, 0x74]

/-- What `WriteOffsets` writes. -/
def offsetsText (xCorrect yCorrect : Rat) : Bytes :=
  xCorrectText ++ 0x20 :: printFloat xCorrect ++ 0x0A :: yCorrectText
    ++ 0x20 :: printFloat yCorrect ++ [0x0A]

/-! ## Reading -/

/-- `isspace`. -/
def isSpace (c : UInt8) : Bool := c = 0x20 ∨ (0x09 ≤ c ∧ c ≤ 0x0D)

def skipSpace (bs : Bytes) : Bytes := bs.dropWhile isSpace

/-- Whether there is a minus sign, and what is behind a sign. -/
def scanSign : Bytes → Bool × Bytes
  | [] => (false, [])
  | c :: rest =>
      if c = 0x2D then (true, rest) else if c = 0x2B then (false, rest) else (false, c :: rest)

/-- The digits in front, and what is behind them. -/
def scanDigits (bs : Bytes) : Bytes × Bytes :=
  (bs.takeWhile fun c => IsDigit c, bs.dropWhile fun c => IsDigit c)

/-- The digits behind a point. -/
def scanFraction : Bytes → Bytes × Bytes
  | [] => ([], [])
  | c :: rest => if c = 0x2E then scanDigits rest else ([], c :: rest)

/-- The exponent behind an `e`; `none` where it has no digits. -/
def scanExponent : Bytes → Option (Int × Bytes)
  | [] => some (0, [])
  | c :: rest =>
      if c = 0x65 ∨ c = 0x45 then
        let (negative, rest) := scanSign rest
        let (digits, rest) := scanDigits rest
        if digits = [] then none
        else some (if negative then -(value digits : Int) else value digits, rest)
      else some (0, c :: rest)

/-- `%f` of `fscanf` on a decimal number; `none` where there is none. -/
def scanFloat (bs : Bytes) : Option (Rat × Bytes) :=
  let (negative, bs) := scanSign (skipSpace bs)
  let (whole, bs) := scanDigits bs
  let (fraction, bs) := scanFraction bs
  if whole ++ fraction = [] then none
  else
    let number : Rat := value (whole ++ fraction) / 10 ^ fraction.length
    (scanExponent bs).map fun (exponent, bs) =>
      ((if negative then -number else number) * 10 ^ exponent, bs)

/-- `fscanf(fp, "%99s %f", …)`: the name, and the number with what is behind it; `none`
    for `EOF`. -/
def scanOffset (bs : Bytes) : Option (Bytes × Option (Rat × Bytes)) :=
  let bs := skipSpace bs
  if bs = [] then none
  else
    let name := (bs.take 99).takeWhile fun c => !isSpace c
    some (name, scanFloat (bs.drop name.length))

/-- `strcmp(s, text) == 0`. -/
def isText (s text : Bytes) : Bool := s.takeWhile (· ≠ 0) = text

/-- `ReadOffsets`; `none` where it leaves the offsets as they are.  `retval` is 4 if and
    only if both calls have read a name and a number. -/
def readOffsets (file : Bytes) : Option (Rat × Rat) :=
  match scanOffset file with
  | some (xs, some (x, rest)) =>
      match scanOffset rest with
      | some (ys, some (y, _)) =>
          if isText xs xCorrectText ∧ isText ys yCorrectText then some (x, y) else none
      | some (_, none) | none => none
  | some (_, none) | none => none

/-! ## Reading what was printed -/

/-- The number with six places behind the point. -/
def sixPlaces (x : Rat) : Rat :=
  (if x < 0 then -(millionths x : Rat) else millionths x) / 10 ^ 6

section RoundTrip

variable {rest : Bytes}

theorem scanDigits_print {width n : Nat} {c : UInt8} (hc : ¬ IsDigit c) :
    scanDigits (print width n ++ c :: rest) = (print width n, c :: rest) := by
  have hall : ∀ d ∈ print width n, decide (IsDigit d) = true := fun d hd =>
    decide_eq_true (isDigit_of_mem_print hd)
  rw [scanDigits, List.takeWhile_append_of_pos hall, List.dropWhile_append_of_pos hall,
    List.takeWhile_cons, List.dropWhile_cons, decide_eq_false hc]
  simp

/-- A sign is read where one was printed. -/
theorem scanSign_append (negative : Prop) [Decidable negative] {digits : Bytes}
    (hdigits : ∀ c ∈ digits, IsDigit c) (hne : digits ≠ []) :
    scanSign ((if negative then [0x2D] else []) ++ (digits ++ rest))
      = (decide negative, digits ++ rest) := by
  by_cases hneg : negative
  · rw [if_pos hneg, decide_eq_true hneg, List.singleton_append, scanSign, if_pos rfl]
  · obtain ⟨d, ds, rfl⟩ := List.exists_cons_of_ne_nil hne
    have hdigit : IsDigit d := hdigits d (List.mem_cons_self ..)
    have hother : ∀ c : UInt8, ¬ IsDigit c → d ≠ c := fun c hc h => hc (h ▸ hdigit)
    rw [if_neg hneg, decide_eq_false hneg, List.nil_append, List.cons_append, scanSign,
      if_neg (hother _ (by decide)), if_neg (hother _ (by decide))]

theorem scanExponent_newline : scanExponent (0x0A :: rest) = some (0, 0x0A :: rest) := by
  rw [scanExponent, if_neg (by decide)]

theorem skipSpace_cons {c : UInt8} (hc : isSpace c = false) :
    skipSpace (0x20 :: c :: rest) = c :: rest := by
  rw [skipSpace, List.dropWhile_cons, if_pos (by decide), List.dropWhile_cons, hc]
  exact if_neg Bool.false_ne_true

theorem isSpace_of_isDigit {c : UInt8} (hc : IsDigit c) : isSpace c = false := by
  refine decide_eq_false fun hspace => ?_
  rcases hspace with rfl | ⟨-, hle⟩
  · exact absurd hc (by decide)
  · exact absurd (UInt8.le_trans hc.1 hle) (by decide)

/-- A number of which the digits are known. -/
theorem scanFloat_digits (negative : Prop) [Decidable negative] (m n : Nat) :
    scanFloat (0x20 :: ((if negative then [0x2D] else [])
        ++ (print 1 m ++ 0x2E :: (print 6 n ++ 0x0A :: rest))))
      = some ((if negative then -((value (print 1 m ++ print 6 n) : Rat)
          / 10 ^ (print 6 n).length) else (value (print 1 m ++ print 6 n) : Rat)
          / 10 ^ (print 6 n).length), 0x0A :: rest) := by
  have hne : print 1 m ++ print 6 n ≠ [] := fun h =>
    print_succ_ne_nil 0 m (List.append_eq_nil_iff.mp h).1
  have hspace : ∀ bs : Bytes, skipSpace (0x20 :: ((if negative then [0x2D] else [])
      ++ (print 1 m ++ bs))) = (if negative then [0x2D] else []) ++ (print 1 m ++ bs) := by
    intro bs
    by_cases hneg : negative
    · rw [if_pos hneg]
      exact skipSpace_cons (by decide)
    · obtain ⟨d, ds, hds⟩ := List.exists_cons_of_ne_nil (print_succ_ne_nil 0 m)
      rw [if_neg hneg, hds]
      exact skipSpace_cons (isSpace_of_isDigit (isDigit_of_mem_print (hds ▸ List.mem_cons_self ..)))
  rw [scanFloat, hspace, scanSign_append negative (fun _ hc => isDigit_of_mem_print hc)
    (print_succ_ne_nil 0 m)]
  dsimp only
  rw [scanDigits_print (by decide)]
  dsimp only
  rw [scanFraction, if_pos rfl, scanDigits_print (by decide)]
  dsimp only
  rw [if_neg hne, scanExponent_newline, Option.map_some, zpow_zero, mul_one]
  by_cases hneg : negative
  · rw [decide_eq_true hneg, if_pos rfl, if_pos hneg]
  · rw [decide_eq_false hneg, if_neg Bool.false_ne_true, if_neg hneg]

/-- **`%f` reads what `%f` has printed**, to six places. -/
theorem scanFloat_printFloat (x : Rat) :
    scanFloat (0x20 :: (printFloat x ++ 0x0A :: rest)) = some (sixPlaces x, 0x0A :: rest) := by
  have hlen : (print 6 (millionths x % 10 ^ 6)).length = 6 :=
    length_print (Nat.mod_lt _ (by decide))
  have hvalue : value (print 1 (millionths x / 10 ^ 6) ++ print 6 (millionths x % 10 ^ 6))
      = millionths x := by
    rw [value_append, value_print, value_print, hlen]
    exact Nat.div_add_mod' ..
  have htext : printFloat x ++ 0x0A :: rest = (if x < 0 then [0x2D] else [])
      ++ (print 1 (millionths x / 10 ^ 6)
        ++ 0x2E :: (print 6 (millionths x % 10 ^ 6) ++ 0x0A :: rest)) := by
    rw [printFloat, List.append_assoc, List.append_assoc, List.cons_append]
  rw [htext, scanFloat_digits, hvalue, hlen, sixPlaces]
  by_cases hx : x < 0
  · rw [if_pos hx, if_pos hx, neg_div]
  · rw [if_neg hx, if_neg hx]

/-- A name and a number are read. -/
theorem scanOffset_append {name : Bytes} (hlen : name.length ≤ 99) (hne : name ≠ [])
    (hname : ∀ c ∈ name, isSpace c = false) :
    scanOffset (name ++ 0x20 :: rest) = some (name, scanFloat (0x20 :: rest)) := by
  obtain ⟨c, cs, rfl⟩ := List.exists_cons_of_ne_nil hne
  have hskip : skipSpace (c :: cs ++ 0x20 :: rest) = c :: cs ++ 0x20 :: rest := by
    rw [skipSpace, List.cons_append, List.dropWhile_cons, hname c (List.mem_cons_self ..)]
    exact if_neg Bool.false_ne_true
  have hall : ∀ d ∈ c :: cs, (!isSpace d) = true := fun d hd => by rw [hname d hd]; rfl
  have hword : ((c :: cs ++ 0x20 :: rest).take 99).takeWhile (fun c => !isSpace c) = c :: cs := by
    rw [List.take_append, List.take_of_length_le hlen, List.takeWhile_append_of_pos hall]
    cases 99 - (c :: cs).length with
    | zero => rw [List.take_zero, List.takeWhile_nil, List.append_nil]
    | succ n =>
        rw [List.take_succ_cons, List.takeWhile_cons]
        exact List.append_nil _
  have hsome : c :: cs ++ 0x20 :: rest ≠ [] := List.cons_ne_nil _ _
  rw [scanOffset, hskip]
  dsimp only
  rw [if_neg hsome, hword, List.drop_left]

/-- **`ReadOffsets` reads what `WriteOffsets` has written**, to six places. -/
theorem readOffsets_offsetsText (x y : Rat) :
    readOffsets (offsetsText x y) = some (sixPlaces x, sixPlaces y) := by
  have hfirst : scanOffset (offsetsText x y) = some (xCorrectText, some (sixPlaces x,
      0x0A :: (yCorrectText ++ 0x20 :: (printFloat y ++ [0x0A])))) := by
    have htext : offsetsText x y = xCorrectText ++ 0x20 :: (printFloat x
        ++ 0x0A :: (yCorrectText ++ 0x20 :: (printFloat y ++ [0x0A]))) := by
      simp only [offsetsText, List.append_assoc, List.cons_append]
    rw [htext, scanOffset_append (by decide) (by decide) (by decide +kernel),
      scanFloat_printFloat]
  have hsecond : scanOffset (0x0A :: (yCorrectText ++ 0x20 :: (printFloat y ++ [0x0A])))
      = some (yCorrectText, some (sixPlaces y, [0x0A])) := by
    have hskip : ∀ bs, scanOffset (0x0A :: bs) = scanOffset bs := by
      intro bs
      have hskip : skipSpace (0x0A :: bs) = skipSpace bs := by
        rw [skipSpace, List.dropWhile_cons, if_pos (by decide), skipSpace]
      rw [scanOffset, scanOffset, hskip]
    rw [hskip, scanOffset_append (by decide) (by decide) (by decide +kernel),
      scanFloat_printFloat]
  rw [readOffsets, hfirst]
  dsimp only
  rw [hsecond]
  exact if_pos (by decide)

end RoundTrip

/-! ## Numbers with six places -/

/-- The number has no more than six places behind the point. -/
def HasSixPlaces (x : Rat) : Prop := ∃ n : Int, x = n / 10 ^ 6

theorem roundHalfEven_natCast (n : Nat) : roundHalfEven n = n := by
  rw [roundHalfEven, Nat.floor_natCast, sub_self]
  exact if_pos (by norm_num)

/-- Printing changes exactly the numbers that have more. -/
theorem sixPlaces_eq_iff {x : Rat} : sixPlaces x = x ↔ HasSixPlaces x := by
  have hpos : (10 : Rat) ^ 6 ≠ 0 := by norm_num
  constructor
  · intro h
    by_cases hx : x < 0
    · refine ⟨-(millionths x : Int), ?_⟩
      rw [sixPlaces, if_pos hx] at h
      rw [Int.cast_neg, Int.cast_natCast]
      exact h.symm
    · refine ⟨millionths x, ?_⟩
      rw [sixPlaces, if_neg hx] at h
      rw [Int.cast_natCast]
      exact h.symm
  · rintro ⟨n, rfl⟩
    have habs : |(n : Rat) / 10 ^ 6| * 10 ^ 6 = (n.natAbs : Rat) := by
      rw [abs_div, abs_of_pos (show (0 : Rat) < 10 ^ 6 by norm_num), div_mul_cancel₀ _ hpos,
        Nat.cast_natAbs, Int.cast_abs]
    have hmillionths : millionths ((n : Rat) / 10 ^ 6) = n.natAbs := by
      rw [millionths, habs, roundHalfEven_natCast]
    rw [sixPlaces, hmillionths, Nat.cast_natAbs, Int.cast_abs]
    rcases lt_or_ge n 0 with hn | hn
    · have hneg : (n : Rat) < 0 := Int.cast_lt_zero.mpr hn
      rw [if_pos (div_neg_of_neg_of_pos hneg (by norm_num)), abs_of_neg hneg, neg_neg]
    · have hpos : (0 : Rat) ≤ n := Int.cast_nonneg hn
      rw [if_neg (not_lt.mpr (div_nonneg hpos (by norm_num))), abs_of_nonneg hpos]

theorem HasSixPlaces.add_intCast {x : Rat} (hx : HasSixPlaces x) (k : Int) :
    HasSixPlaces (x + k) := by
  obtain ⟨n, rfl⟩ := hx
  refine ⟨n + k * 10 ^ 6, ?_⟩
  rw [Int.cast_add, Int.cast_mul, Int.cast_pow, Int.cast_ofNat, add_div,
    mul_div_cancel_right₀ _ (by norm_num)]

/-- Offsets that have six places are read back as they were. -/
theorem readOffsets_of_hasSixPlaces {x y : Rat} (hx : HasSixPlaces x) (hy : HasSixPlaces y) :
    readOffsets (offsetsText x y) = some (x, y) := by
  rw [readOffsets_offsetsText, sixPlaces_eq_iff.mpr hx, sixPlaces_eq_iff.mpr hy]

end DemoCannon
