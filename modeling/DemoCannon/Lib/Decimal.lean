import Mathlib.Data.Nat.Digits.Lemmas

/-! # Decimal numbers in text

    A number is written with the digits `0` to `9`, the most significant first, and with
    zeros in front of them up to a width (`print`).  Reading the digits back gives the
    number (`value_print`), and digits in front of others count more by a power of ten
    (`value_append`). -/

namespace Interaction

namespace Decimal

/-- The character of a digit. -/
def digit (d : Nat) : UInt8 := .ofNat (48 + d)

/-- The digit of a character. -/
def digitValue (c : UInt8) : Nat := c.toNat - 48

def IsDigit (c : UInt8) : Prop := 48 ≤ c ∧ c ≤ 57

instance (c : UInt8) : Decidable (IsDigit c) := inferInstanceAs (Decidable (_ ∧ _))

/-- A number in so many digits, or in more if it takes them. -/
def print (width n : Nat) : List UInt8 := ((Nat.digitsAppend 10 width n).map digit).reverse

/-- The number that digits are. -/
def value (cs : List UInt8) : Nat := Nat.ofDigits 10 (cs.reverse.map digitValue)

section Digits

variable {d n width : Nat}

theorem toNat_digit (hd : d < 10) : (digit d).toNat = 48 + d :=
  UInt8.toNat_ofNat_of_lt' (by rw [UInt8.size]; omega)

theorem digitValue_digit (hd : d < 10) : digitValue (digit d) = d := by
  rw [digitValue, toNat_digit hd, Nat.add_sub_cancel_left]

theorem isDigit_digit (hd : d < 10) : IsDigit (digit d) := by
  constructor
  · rw [UInt8.le_iff_toNat_le, toNat_digit hd]
    exact Nat.le_add_right 48 d
  · rw [UInt8.le_iff_toNat_le, toNat_digit hd]
    exact Nat.add_le_add_left (Nat.le_of_lt_succ hd) 48

theorem isDigit_of_mem_print {c : UInt8} (hc : c ∈ print width n) : IsDigit c := by
  obtain ⟨d, hd, rfl⟩ := List.mem_map.mp (List.mem_reverse.mp hc)
  exact isDigit_digit (Nat.lt_of_mem_digitsAppend (by decide) width d hd)

theorem length_print (h : n < 10 ^ width) : (print width n).length = width := by
  rw [print, List.length_reverse, List.length_map, Nat.length_digitsAppend (by decide) width h]

/-- There is a digit at least. -/
theorem print_succ_ne_nil (width n : Nat) : print (width + 1) n ≠ [] := by
  intro h
  have hlen : (Nat.digits 10 n).length + (width + 1 - (Nat.digits 10 n).length) = 0 := by
    have hzero := congrArg List.length h
    rwa [print, List.length_reverse, List.length_map, Nat.digitsAppend, List.length_append,
      List.length_replicate] at hzero
  omega

/-- **What is printed is read back.** -/
theorem value_print (width n : Nat) : value (print width n) = n := by
  have hmap : (Nat.digitsAppend 10 width n).map (digitValue ∘ digit)
      = Nat.digitsAppend 10 width n := by
    refine (List.map_congr_left fun d hd => ?_).trans (List.map_id _)
    exact digitValue_digit (Nat.lt_of_mem_digitsAppend (by decide) width d hd)
  rw [value, print, List.reverse_reverse, List.map_map, hmap, Nat.digitsAppend,
    Nat.ofDigits_append_replicate_zero, Nat.ofDigits_digits]

/-- Digits in front of others. -/
theorem value_append (cs cs' : List UInt8) :
    value (cs ++ cs') = value cs * 10 ^ cs'.length + value cs' := by
  rw [value, List.reverse_append, List.map_append, Nat.ofDigits_append, List.length_map,
    List.length_reverse, value, value]
  ring

end Digits

end Decimal

end Interaction
