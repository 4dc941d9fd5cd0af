import Walkthrough.Decimal.Numeral
import Walkthrough.Proofs.Decimal.Rounding

/-!
Decimals that round to a double are read as that double (`nearest_eq`), whether by one product or quotient of
exact doubles or by way of exact numbers. Zeros keep their sign, and there are only two infinities and one
not-a-number.
-/
namespace Walkthrough.Decimal

open Float.Model Float.Model.UnpackedFloat

/-- A whole number with all leading bits. -/
def wholeBinary (m : ℕ) : Binary := ⟨false, m * 2 ^ (52 - m.log2), m.log2 - 52⟩

theorem wholeBinary_value {m : ℕ} (small : m < 2 ^ 53) (some : m ≠ 0) :
    ((wholeBinary m).mantissa : ℚ) * 2 ^ (wholeBinary m).exponent = m := by
  have top : m.log2 ≤ 52 := Nat.lt_succ_iff.mp ((Nat.log2_lt some).mpr small)
  simp only [wholeBinary, Nat.cast_mul, Nat.cast_pow, Nat.cast_ofNat]
  rw [mul_assoc, ← zpow_natCast, ← zpow_add₀ two_ne_zero, show ((52 - m.log2 : ℕ) : ℤ) + (m.log2 - 52) = 0 by omega,
    zpow_zero, mul_one]

theorem wholeBinary_canonical {m : ℕ} (small : m < 2 ^ 53) (some : m ≠ 0) :
    (wholeBinary m).Canonical ∧ 2 ^ 52 ≤ (wholeBinary m).mantissa := by
  have top : m.log2 ≤ 52 := Nat.lt_succ_iff.mp ((Nat.log2_lt some).mpr small)
  have least : 2 ^ 52 ≤ m * 2 ^ (52 - m.log2) := by
    calc 2 ^ 52 = 2 ^ m.log2 * 2 ^ (52 - m.log2) := by rw [← pow_add]; congr 1; omega
      _ ≤ m * 2 ^ (52 - m.log2) := Nat.mul_le_mul_right _ (Nat.log2_self_le some)
  have most : m * 2 ^ (52 - m.log2) < 2 ^ 53 := by
    calc m * 2 ^ (52 - m.log2) < 2 ^ (m.log2 + 1) * 2 ^ (52 - m.log2) :=
          Nat.mul_lt_mul_of_pos_right Nat.lt_log2_self (Nat.two_pow_pos _)
      _ = 2 ^ 53 := by rw [← pow_add]; congr 1; omega
  exact ⟨⟨most, by simp only [wholeBinary]; omega, by simp only [wholeBinary]; omega, Or.inr least⟩, least⟩

theorem rounds_self (b : Binary) : RoundsTo (b.mantissa * 2 ^ b.exponent) b where
  nearest := by
    rw [mul_div_cancel_right₀ _ (zpow_pos two_pos _).ne']
    exact ⟨by simp, by simp⟩
  narrow power _ := by
    rw [mul_div_cancel_right₀ _ (zpow_pos two_pos _).ne', power]
    norm_num

theorem round_stands (m : ℕ) (some : m ≠ 0) (e : ℤ) :
    ∃ m' e', UnpackedFloat.round Format.binary64 .positive m e = roundWithAccuracy Format.binary64 .positive m' e' .exact ∧
      Stands (m * 2 ^ e) m' e' .exact ∧ e' ≤ Format.binary64.targetExponent (totalExponent m' e') := by
  unfold UnpackedFloat.round decreaseExponent
  simp only
  -- Nothing is shifted out: the mantissa grows until its unit is the one it is rounded to.
  refine ⟨_, _, rfl, ?_, ?_⟩
  · generalize (e - Format.binary64.targetExponent (totalExponent m e)).toNat = k
    have same : (m * 2 ^ e : ℚ) = (m <<< k : ℕ) * 2 ^ (e - k) := by
      rw [Nat.shiftLeft_eq, zpow_sub₀ two_ne_zero, zpow_natCast]
      push_cast
      field_simp
    rw [same]
    exact .exact _ _
  · have shifted (k : ℕ) : (m <<< k).log2 = m.log2 + k := by
      have pos : 0 < 2 ^ k := Nat.two_pow_pos k
      rw [Nat.shiftLeft_eq, Nat.log2_eq_iff (Nat.mul_ne_zero some pos.ne')]
      constructor
      · rw [pow_add]
        exact Nat.mul_le_mul_right _ (Nat.log2_self_le some)
      · rw [Nat.add_right_comm, pow_add]
        exact Nat.mul_lt_mul_of_pos_right Nat.lt_log2_self pos
    unfold totalExponent
    rw [shifted, binary64_targetExponent, binary64_targetExponent]
    push_cast
    omega

theorem unpack_toFloat {m : ℕ} (small : m < 2 ^ 53) (some : m ≠ 0) :
    m.toUInt64.toFloat.toModel.unpack = (wholeBinary m).unpacked := by
  have itself : m.toUInt64.toNat = m := by
    rw [Nat.toUInt64_eq, UInt64.toNat_ofNat']
    exact Nat.mod_eq_of_lt (by omega)
  obtain ⟨canonical, full⟩ := wholeBinary_canonical small some
  have filled : (wholeBinary m).mantissa ≠ 0 := by omega
  have value : UnpackedFloat.ofUInt64 Format.binary64 m.toUInt64 = (wholeBinary m).unpacked := by
    unfold UnpackedFloat.ofUInt64 UnpackedFloat.ofNat UnpackedFloat.ofInt UnpackedFloat.normalize
    rw [itself, show compare (m : ℤ) 0 = .gt from Int.compare_eq_gt.mpr (by omega)]
    simp only [Int.toNat_natCast]
    obtain ⟨m', e', rounded, stands, fine⟩ := round_stands m some 0
    have rounds := rounds_self (wholeBinary m)
    rw [wholeBinary_value small some] at rounds
    rw [zpow_zero, mul_one] at stands
    rw [rounded, roundWithAccuracy_eq canonical filled rounds stands fine, Binary.unpacked_of_ne filled]
    rfl
  change (Float.Model.pack (UnpackedFloat.ofUInt64 Format.binary64 m.toUInt64)).unpack = _
  rw [value, Binary.unpack_pack canonical]

def tenBinary (k : ℕ) : Binary := ⟨false, 5 ^ k * 2 ^ (52 - (5 ^ k).log2), k + (5 ^ k).log2 - 52⟩

theorem ofFloat?_power : ∀ k : Fin 23,
    Binary.ofFloat? Float.exactlyRepresentablePowersOfTen[k] = some (tenBinary k) := by
  decide

theorem tenBinary_value {k : ℕ} (few : k ≤ 22) :
    ((tenBinary k).mantissa : ℚ) * 2 ^ (tenBinary k).exponent = 10 ^ k := by
  have small : 5 ^ k < 2 ^ 53 := lt_of_le_of_lt (Nat.pow_le_pow_right (by decide) few) (by decide)
  have top : (5 ^ k).log2 ≤ 52 := Nat.lt_succ_iff.mp ((Nat.log2_lt (by positivity)).mpr small)
  have powers : (2 : ℚ) ^ (52 - (5 ^ k).log2) * 2 ^ ((k : ℤ) + (5 ^ k).log2 - 52) = 2 ^ k := by
    rw [← zpow_natCast, ← zpow_natCast, ← zpow_add₀ two_ne_zero]
    congr 1
    omega
  simp only [tenBinary, Nat.cast_mul, Nat.cast_pow, Nat.cast_ofNat]
  rw [mul_assoc, powers, ← mul_pow]
  norm_num

theorem tenBinary_canonical {k : ℕ} (few : k < Float.exactlyRepresentablePowersOfTen.size) :
    (tenBinary k).Canonical ∧ 2 ^ 52 ≤ (tenBinary k).mantissa ∧
      Float.exactlyRepresentablePowersOfTen[k].toModel.unpack = (tenBinary k).unpacked := by
  obtain ⟨canonical, unpacked⟩ := Binary.canonical_of (ofFloat?_power ⟨k, few⟩)
  refine ⟨canonical, canonical.full.resolve_left fun bottom => ?_, unpacked⟩
  simp only [tenBinary] at bottom
  omega

theorem RoundsTo.pos {q : ℚ} {b : Binary} (rounds : RoundsTo q b) (some : b.mantissa ≠ 0) :
    2 ^ (b.exponent - 1) ≤ q := by
  have low := (abs_le.mp rounds.nearest.near).1
  have one : (1 : ℚ) ≤ b.mantissa := by exact_mod_cast Nat.pos_of_ne_zero some
  have pos : (0 : ℚ) < 2 ^ b.exponent := zpow_pos two_pos _
  have half : 1 / 2 ≤ q / 2 ^ b.exponent := by linarith
  rw [le_div_iff₀ pos] at half
  rw [zpow_sub_one₀ two_ne_zero]
  linarith

/-- A decimal that rounds to a double is within the range of doubles. -/
theorem RoundsTo.range {q : ℚ} {b : Binary} (rounds : RoundsTo q b) (c : b.Canonical) (some : b.mantissa ≠ 0) :
    2 ^ (-1075 : ℤ) ≤ q ∧ q < 2 ^ (1024 : ℤ) := by
  have least := c.least
  have greatest := c.greatest
  constructor
  · exact le_trans (zpow_le_zpow_right₀ one_le_two (by omega)) (rounds.pos some)
  · exact lt_of_lt_of_le (rounds.lt c) (zpow_le_zpow_right₀ one_le_two (by omega))

theorem shifted_product (m k : ℕ) {e : ℤ} (up : 0 ≤ e) :
    ((m <<< k : ℕ) : ℚ) * 2 ^ (-(k : ℤ)) * ((10 ^ e.toNat : ℕ) * 2 ^ (0 : ℤ)) = m * 10 ^ e := by
  have power : (10 : ℚ) ^ e = 10 ^ e.toNat := by
    rw [← zpow_natCast, Int.toNat_of_nonneg up]
  rw [Nat.shiftLeft_eq, power, zpow_neg, zpow_natCast, zpow_zero, mul_one]
  push_cast
  field_simp

theorem quotient_of_power (m : ℕ) {e : ℤ} (down : ¬0 ≤ e) :
    (m * 2 ^ (0 : ℤ)) / ((10 ^ (-e).toNat : ℕ) * 2 ^ (0 : ℤ)) = (m * 10 ^ e : ℚ) := by
  have power : (10 : ℚ) ^ e = (10 ^ (-e).toNat)⁻¹ := by
    rw [← zpow_natCast, Int.toNat_of_nonneg (by omega), zpow_neg, inv_inv]
  rw [power, zpow_zero, mul_one, mul_one]
  push_cast
  rw [div_eq_mul_inv]

theorem shifted_fine {m n k : ℕ} (filled : m ≠ 0) (pos : n ≠ 0) (wide : k = 53) :
    -(k : ℤ) + 0 ≤ Format.binary64.targetExponent (totalExponent (m <<< k * n) (-k + 0)) := by
  have some : m <<< k * n ≠ 0 := by
    rw [Nat.shiftLeft_eq]
    exact Nat.mul_ne_zero (Nat.mul_ne_zero filled (Nat.two_pow_pos k).ne') pos
  have least : k ≤ (m <<< k * n).log2 := by
    rw [Nat.le_log2 some, Nat.shiftLeft_eq]
    exact le_trans (Nat.le_mul_of_pos_left _ (Nat.pos_of_ne_zero filled)) (Nat.le_mul_of_pos_right _ (Nat.pos_of_ne_zero pos))
  rw [binary64_targetExponent, totalExponent]
  omega

theorem two_zpow_le_ten {e : ℤ} (up : 0 ≤ e) : (2 : ℚ) ^ e ≤ 10 ^ e :=
  zpow_le_zpow_left₀ up (by norm_num) (by norm_num)

theorem ten_zpow_le_two {e : ℤ} (down : e ≤ 0) : (10 : ℚ) ^ e ≤ 2 ^ e := by
  have powers := two_zpow_le_ten (Int.neg_nonneg_of_nonpos down)
  rw [zpow_neg, zpow_neg] at powers
  exact (inv_le_inv₀ (zpow_pos two_pos e) (zpow_pos (by norm_num) e)).mp powers

/-- Only exponents within bounds can lead into the range of doubles. -/
theorem exponent_bounds {m : ℕ} {e : ℤ} (filled : m ≠ 0) (least : (2 : ℚ) ^ (-1075 : ℤ) ≤ m * 10 ^ e)
    (most : (m * 10 ^ e : ℚ) < 2 ^ (1024 : ℤ)) : e < 1024 ∧ -1076 < e + m.log2 := by
  have one : (1 : ℚ) ≤ m := by exact_mod_cast Nat.pos_of_ne_zero filled
  have ten : (0 : ℚ) < 10 ^ e := zpow_pos (by norm_num) e
  by_cases up : 0 ≤ e
  · have low : (2 : ℚ) ^ e ≤ m * 10 ^ e := le_trans (two_zpow_le_ten up) (le_mul_of_one_le_left ten.le one)
    exact ⟨lt_of_two_zpow_lt low most, by omega⟩
  · have top := (log2_bounds filled).2
    have high : (m * 10 ^ e : ℚ) < 2 ^ ((m.log2 : ℤ) + 1 + e) := by
      rw [zpow_add₀ two_ne_zero, ← Nat.cast_one, ← Nat.cast_add, zpow_natCast]
      calc (m * 10 ^ e : ℚ) < 2 ^ (m.log2 + 1) * 10 ^ e := mul_lt_mul_of_pos_right top ten
        _ ≤ 2 ^ (m.log2 + 1) * 2 ^ e := mul_le_mul_of_nonneg_left (ten_zpow_le_two (by omega)) (by positivity)
    have := lt_of_two_zpow_lt least high
    exact ⟨by omega, by omega⟩

theorem unpackedOfScientific_eq {b : Binary} (c : b.Canonical) (some : b.mantissa ≠ 0) {m : ℕ} {e : ℤ}
    (rounds : RoundsTo (m * 10 ^ e) b) (filled : m ≠ 0) :
    UnpackedFloat.ofScientific Format.binary64 m e =
      .finite .positive b.mantissa b.exponent (Nat.pos_of_ne_zero some) := by
  obtain ⟨least, most⟩ := rounds.range c some
  obtain ⟨few, enough⟩ := exponent_bounds filled least most
  unfold UnpackedFloat.ofScientific
  rw [dif_neg filled, if_neg, if_neg]
  · split
    · rename_i up
      have product := shifted_product m Format.binary64.mantissaBits up
      rw [← product] at rounds
      exact mul_eq c some _ _ (shifted_fine filled (by positivity) rfl) rounds
    · rename_i down
      have quotient := quotient_of_power m down
      rw [← quotient] at rounds
      exact div_eq c some _ _ rounds
  · change ¬e < -(2048 + (m.log2 : ℤ))
    omega
  · change ¬e > 2048
    omega

/-- The double of the same size that is not negative. -/
def size (b : Binary) : Float := .ofModel (Float.Model.pack (Binary.unpacked { b with negative := false }))

theorem size_eq {b : Binary} (some : b.mantissa ≠ 0) :
    size b = .ofModel (Float.Model.pack (.finite .positive b.mantissa b.exponent (Nat.pos_of_ne_zero some))) := by
  unfold size
  rw [Binary.unpacked_of_ne (show ({ b with negative := false } : Binary).mantissa ≠ 0 from some)]
  rfl

theorem unpack_whole {m : ℕ} (small : m < 2 ^ 53) (filled : m ≠ 0) :
    ∃ pos, m.toUInt64.toFloat.toModel.unpack =
      .finite .positive (wholeBinary m).mantissa (wholeBinary m).exponent pos := by
  obtain ⟨-, full⟩ := wholeBinary_canonical small filled
  have some : (wholeBinary m).mantissa ≠ 0 := by omega
  exact ⟨Nat.pos_of_ne_zero some, (unpack_toFloat small filled).trans (Binary.unpacked_of_ne some)⟩

theorem unpack_ten {k : ℕ} (few : k < Float.exactlyRepresentablePowersOfTen.size) :
    ∃ pos, Float.exactlyRepresentablePowersOfTen[k].toModel.unpack =
      .finite .positive (tenBinary k).mantissa (tenBinary k).exponent pos := by
  obtain ⟨-, full, unpacked⟩ := tenBinary_canonical few
  have some : (tenBinary k).mantissa ≠ 0 := by omega
  exact ⟨Nat.pos_of_ne_zero some, unpacked.trans (Binary.unpacked_of_ne some)⟩

theorem mul_fine {m n : ℕ} (e f : ℤ) (full : 2 ^ 52 ≤ m) (full' : 2 ^ 52 ≤ n) :
    e + f ≤ Format.binary64.targetExponent (totalExponent (m * n) (e + f)) := by
  have large : 2 ^ 52 * 2 ^ 52 ≤ m * n := Nat.mul_le_mul full full'
  have some : m * n ≠ 0 := by omega
  have least : 104 ≤ (m * n).log2 := (Nat.le_log2 some).mpr (by omega)
  rw [binary64_targetExponent, totalExponent]
  omega

/-- One operation on exact doubles is enough where both mantissa and power of ten are exact. -/
theorem ofScientific_eq {b : Binary} (c : b.Canonical) (some : b.mantissa ≠ 0) {m e : ℕ} (down : Bool)
    (filled : m ≠ 0) (rounds : RoundsTo (m * 10 ^ (if down then -(e : ℤ) else e)) b) :
    Float.ofScientific m down e = size b := by
  rw [size_eq some]
  unfold Float.ofScientific
  split
  · rename_i exact
    obtain ⟨small, few⟩ := exact
    obtain ⟨pos, whole⟩ := unpack_whole small filled
    have listed : e < Float.exactlyRepresentablePowersOfTen.size := Nat.lt_succ_of_le few
    obtain ⟨pos', ten⟩ := unpack_ten listed
    have value := wholeBinary_value small filled
    have value' := tenBinary_value few
    cases down with
    | true =>
      change Float.ofModel (Float.Model.pack (UnpackedFloat.div Format.binary64 m.toUInt64.toFloat.toModel.unpack
        Float.exactlyRepresentablePowersOfTen[e].toModel.unpack)) = _
      rw [if_pos rfl, zpow_neg, zpow_natCast, ← div_eq_mul_inv, ← value, ← value'] at rounds
      rw [whole, ten, div_eq c some pos pos' rounds]
    | false =>
      change Float.ofModel (Float.Model.pack (UnpackedFloat.mul Format.binary64 m.toUInt64.toFloat.toModel.unpack
        Float.exactlyRepresentablePowersOfTen[e].toModel.unpack)) = _
      rw [if_neg Bool.false_ne_true, zpow_natCast, ← value, ← value'] at rounds
      have fine := mul_fine (wholeBinary m).exponent (tenBinary e).exponent
        (wholeBinary_canonical small filled).2 (tenBinary_canonical listed).2.1
      rw [whole, ten, mul_eq c some pos pos' fine rounds]
  · -- The decimal is not made of doubles: it is handed over exactly, and rounded once.
    have exponent : (if down = true then Int.negOfNat e else Int.ofNat e) = if down then -(e : ℤ) else e := by
      cases down
      · rfl
      · exact Int.negOfNat_eq
    change Float.ofModel (Float.Model.pack (UnpackedFloat.ofScientific Format.binary64 m
      (if down = true then Int.negOfNat e else Int.ofNat e))) = _
    rw [exponent, unpackedOfScientific_eq c some rounds filled]

theorem unpack_size {b : Binary} (c : b.Canonical) :
    (size b).toModel.unpack = ({ b with negative := false } : Binary).unpacked :=
  Binary.unpack_pack ⟨c.bounded, c.least, c.greatest, c.full⟩

theorem unpack_neg_size {b : Binary} (c : b.Canonical) :
    (-size b).toModel.unpack = ({ b with negative := true } : Binary).unpacked := by
  have negated : ({ b with negative := false } : Binary).unpacked.neg =
      ({ b with negative := true } : Binary).unpacked := by
    unfold Binary.unpacked
    split <;> rfl
  change (Float.Model.pack (UnpackedFloat.neg (size b).toModel.unpack)).unpack = _
  rw [unpack_size c, negated]
  exact Binary.unpack_pack ⟨c.bounded, c.least, c.greatest, c.full⟩

theorem signed_size {x : Float} {b : Binary} (found : Binary.ofFloat? x = some b) :
    (if b.negative then -size b else size b) = x := by
  obtain ⟨canonical, unpacked⟩ := Binary.canonical_of found
  apply Binary.eq_of_unpack
  rw [unpacked]
  obtain ⟨negative, mantissa, exponent⟩ := b
  cases negative with
  | true => exact unpack_neg_size canonical
  | false => exact unpack_size canonical

theorem toDigits_bounds {m : ℕ} (filled : m ≠ 0) :
    10 ^ ((Nat.toDigits 10 m).length - 1) ≤ m ∧ m < 10 ^ (Nat.toDigits 10 m).length := by
  have some : 0 < (Nat.toDigits 10 m).length := Nat.length_toDigits_pos
  constructor
  · by_cases one : (Nat.toDigits 10 m).length = 1
    · rw [one]
      exact Nat.pos_of_ne_zero filled
    · by_contra less
      have short := (Nat.length_toDigits_le_iff (by decide) (by omega)).mpr (Nat.lt_of_not_le less)
      omega
  · exact (Nat.length_toDigits_le_iff (by decide) some).mp le_rfl

/-- A decimal within the range of doubles is not decided by its size alone. -/
theorem magnitude_bounds {m : ℕ} {e : ℤ} (filled : m ≠ 0) (least : (2 : ℚ) ^ (-1075 : ℤ) ≤ m * 10 ^ e)
    (most : (m * 10 ^ e : ℚ) < 2 ^ (1024 : ℤ)) :
    -400 ≤ (Nat.toDigits 10 m).length + e ∧ (Nat.toDigits 10 m).length + e ≤ 400 := by
  obtain ⟨low, high⟩ := toDigits_bounds filled
  have some : 0 < (Nat.toDigits 10 m).length := Nat.length_toDigits_pos
  generalize (Nat.toDigits 10 m).length = n at *
  have ten : (0 : ℚ) < 10 ^ e := zpow_pos (by norm_num) e
  have below : (10 : ℚ) ^ (((n - 1 : ℕ) : ℤ) + e) ≤ m * 10 ^ e := by
    rw [zpow_add₀ (by norm_num), zpow_natCast]
    exact mul_le_mul_of_nonneg_right (by exact_mod_cast low) ten.le
  have above : (m * 10 ^ e : ℚ) < 10 ^ ((n : ℤ) + e) := by
    rw [zpow_add₀ (by norm_num), zpow_natCast]
    exact mul_lt_mul_of_pos_right (by exact_mod_cast high) ten
  have one : (1 : ℚ) ≤ 10 := by norm_num
  -- Three bits fit below a decimal digit, so four hundred digits pass the range of doubles on either side.
  have eight : (2 : ℚ) ^ (1200 : ℤ) ≤ 10 ^ (400 : ℤ) := by
    have powers : (2 : ℚ) ^ (1200 : ℤ) = 8 ^ (400 : ℤ) := by
      rw [show (1200 : ℤ) = 3 * 400 from rfl, zpow_mul]
      norm_num only
    rw [powers]
    exact zpow_le_zpow_left₀ (by decide) (by norm_num) (by norm_num)
  constructor
  · by_contra less
    have small : (10 : ℚ) ^ ((n : ℤ) + e) ≤ 10 ^ (-400 : ℤ) := zpow_le_zpow_right₀ one (by omega)
    have tiny : (10 : ℚ) ^ (-400 : ℤ) ≤ 2 ^ (-1200 : ℤ) := by
      rw [zpow_neg, zpow_neg]
      exact inv_anti₀ (zpow_pos two_pos _) eight
    have := lt_of_two_zpow_lt least (lt_of_lt_of_le above (le_trans small tiny))
    omega
  · by_contra more
    have large : (10 : ℚ) ^ (400 : ℤ) ≤ 10 ^ (((n - 1 : ℕ) : ℤ) + e) := zpow_le_zpow_right₀ one (by omega)
    have := lt_of_two_zpow_lt (le_trans eight large) (lt_of_le_of_lt below most)
    omega

/-- A decimal that rounds to a double is read as that double. -/
theorem nearest_eq {x : Float} {b : Binary} (found : Binary.ofFloat? x = some b) (some : b.mantissa ≠ 0)
    {m : ℕ} {e : ℤ} (rounds : RoundsTo (m * 10 ^ e) b) : nearest b.negative m e = x := by
  obtain ⟨canonical, -⟩ := Binary.canonical_of found
  obtain ⟨least, most⟩ := rounds.range canonical some
  have filled : m ≠ 0 := by
    rintro rfl
    rw [Nat.cast_zero, zero_mul] at least
    exact absurd least (not_le.mpr (zpow_pos two_pos _))
  obtain ⟨low, high⟩ := magnitude_bounds filled least most
  have outside : (m = 0 || (Nat.toDigits 10 m).length + e < -400) = false := by
    simp [filled]
    omega
  have within : ¬400 < (Nat.toDigits 10 m).length + e := by omega
  have read : (if e < 0 then Float.ofScientific m true e.natAbs else Float.ofScientific m false e.toNat) =
      size b := by
    split
    · refine ofScientific_eq canonical some true filled ?_
      have same : -(e.natAbs : ℤ) = e := by omega
      rw [if_pos rfl, same]
      exact rounds
    · refine ofScientific_eq canonical some false filled ?_
      have same : (e.toNat : ℤ) = e := by omega
      rw [if_neg Bool.false_ne_true, same]
      exact rounds
  simp only [nearest, outside, Bool.false_eq_true, if_false, if_neg within, read]
  exact signed_size found

theorem unpack_of_isNaN {x : Float} (nan : x.isNaN = true) : x.toModel.unpack = .notANumber := by
  have unfolded : x.isNaN = x.toModel.unpack.isNaN := rfl
  rw [unfolded] at nan
  cases unpacked : x.toModel.unpack <;> simp [unpacked, UnpackedFloat.isNaN] at nan
  rfl

theorem unpack_of_isInf {x : Float} (infinite : x.isInf = true) :
    x.toModel.unpack = .infinity (if x < 0 then .negative else .positive) := by
  have unfolded : x.isInf = x.toModel.unpack.isInf := rfl
  have less : x < 0 ↔ UnpackedFloat.lt x.toModel.unpack (.zero .positive) = true := by
    change decide (x.toModel < (0 : Float).toModel) = true ↔ _
    rw [decide_eq_true_iff]
    exact Iff.rfl
  rw [unfolded] at infinite
  simp only [less]
  cases unpacked : x.toModel.unpack with
  | infinity s => cases s <;> rfl
  | _ => simp [unpacked, UnpackedFloat.isInf] at infinite

theorem nan_eq {x : Float} (nan : x.isNaN = true) : 0 / 0 = x :=
  Binary.eq_of_unpack ((unpack_of_isNaN (by decide)).trans (unpack_of_isNaN nan).symm)

theorem infinity_eq {x : Float} (infinite : x.isInf = true) : (if x < 0 then -(1 / 0) else 1 / 0) = x := by
  apply Binary.eq_of_unpack
  rw [unpack_of_isInf infinite]
  split
  · rw [unpack_of_isInf (by decide), if_pos (by decide)]
  · rw [unpack_of_isInf (by decide), if_neg (by decide)]

theorem nearest_zero {x : Float} {b : Binary} (found : Binary.ofFloat? x = some b) (zero : b.mantissa = 0) (e : ℤ) :
    nearest b.negative 0 e = x := by
  obtain ⟨-, unpacked⟩ := Binary.canonical_of found
  rw [Binary.unpacked_of_eq zero] at unpacked
  apply Binary.eq_of_unpack
  rw [unpacked]
  simp only [nearest, Binary.sign, decide_true, Bool.true_or, if_true]
  cases b.negative <;> rfl

end Walkthrough.Decimal
