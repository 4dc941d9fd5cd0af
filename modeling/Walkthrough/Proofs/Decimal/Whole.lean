import Walkthrough.Decimal.Numeral
import Walkthrough.Proofs.Decimal.Binary

/-!
Whole numbers that are read are no longer than a numeral may be, whether a numeral spells them (`int?_lt`) or
they are the whole part of a double (`truncate_lt`).
-/
namespace Walkthrough

namespace Text

theorem le_nine {c : Char} (digit : c.isDigit = true) : c.toNat - 48 ≤ 9 := by
  simp only [Char.isDigit, Bool.and_eq_true, decide_eq_true_eq] at digit
  have top : c.val.toNat ≤ 57 := UInt32.le_iff_toNat_le.mp digit.2
  simp only [Char.toNat]
  omega

theorem digitValue?_lt {c : Char} {d : ℕ} (found : digitValue? c = some d) : d < 10 := by
  unfold digitValue? at found
  split at found
  · split at found
    · rename_i digit
      cases found
      exact Nat.lt_succ_of_le (le_nine digit)
    · cases found
  · obtain ⟨first, run, rfl⟩ := Option.map_eq_some_iff.mp found
    have within := List.find?_some run
    simp only [Bool.and_eq_true, decide_eq_true_eq] at within
    omega

end Text

namespace Decimal.Numeral

theorem value_lt {read : List ℕ} (digits : ∀ d ∈ read, d < 10) : value read < 10 ^ read.length := by
  induction read with
  | nil => decide
  | cons d read ih =>
    have first := digits d (List.mem_cons_self ..)
    have less := ih fun d' member => digits d' (List.mem_cons_of_mem _ member)
    change 10 * value read + d < 10 ^ (read.length + 1)
    rw [Nat.pow_succ]
    omega

theorem digitsAfter_lt {read : List ℕ} (s : List Char) (known : ∀ d ∈ read, d < 10) :
    ∀ d ∈ (digitsAfter read s).1, d < 10 := by
  have more {d : ℕ} {read : List ℕ} {c : Char} (known : ∀ d ∈ read, d < 10) (found : Text.digitValue? c = some d) :
      ∀ d' ∈ d :: read, d' < 10 := by
    intro d' member
    rcases List.mem_cons.mp member with rfl | held
    · exact Text.digitValue?_lt found
    · exact known d' held
  fun_induction digitsAfter read s with
  | case1 | case3 | case5 => exact known
  | case2 c rest first others d found ih => exact ih (more known found)
  | case4 _ c rest _ d found ih => exact ih (more known found)

theorem int?_lt {s : List Char} {n : ℤ} (read : int? s = some n) : n.natAbs < 10 ^ maxDigits := by
  unfold int? at read
  simp only at read
  split at read
  · rename_i d digits taken
    have small : ∀ d' ∈ d :: digits, d' < 10 := by
      have all := @digitsAfter_lt [] (sign (withoutMargins s)).2 nofun
      rw [show digitsAfter [] (sign (withoutMargins s)).2 = _ from taken] at all
      exact all
    have less := value_lt small
    split at read
    · cases read
    · rename_i short
      have bound : value (d :: digits) < 10 ^ maxDigits :=
        lt_of_lt_of_le less (Nat.pow_le_pow_right (by decide) (Nat.le_of_not_lt short))
      split at read
      · cases read
        rw [Int.natAbs_neg, Int.natAbs_natCast]
        exact bound
      · cases read
        rw [Int.natAbs_natCast]
        exact bound
  · cases read

end Decimal.Numeral

namespace Decimal

theorem Binary.truncate_lt {b : Binary} (c : b.Canonical) : b.truncate.natAbs < 10 ^ Numeral.maxDigits := by
  have top := c.greatest
  have wide : Numeral.maxDigits = 4300 := rfl
  have magnitude : (if 0 ≤ b.exponent then b.mantissa * Nat.pow 2 b.exponent.toNat
      else b.mantissa / Nat.pow 2 b.exponent.natAbs) < 2 ^ Numeral.maxDigits := by
    split
    · calc b.mantissa * 2 ^ b.exponent.toNat < 2 ^ 53 * 2 ^ b.exponent.toNat :=
            Nat.mul_lt_mul_of_pos_right c.bounded (Nat.two_pow_pos _)
        _ = 2 ^ (53 + b.exponent.toNat) := (pow_add _ _ _).symm
        _ ≤ 2 ^ Numeral.maxDigits := Nat.pow_le_pow_right (by decide) (by omega)
    · exact lt_of_le_of_lt (Nat.div_le_self ..)
        (lt_of_lt_of_le c.bounded (Nat.pow_le_pow_right (by decide) (by decide)))
  have size : b.truncate.natAbs < 2 ^ Numeral.maxDigits := by
    unfold truncate
    simp only
    split
    · rw [Int.natAbs_neg, Int.natAbs_natCast]
      exact magnitude
    · rw [Int.natAbs_natCast]
      exact magnitude
  exact lt_of_lt_of_le size (Nat.pow_le_pow_left (by decide) _)

end Decimal

end Walkthrough
