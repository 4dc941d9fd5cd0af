import Walkthrough.Decimal.Shortest
import Walkthrough.Proofs.Decimal.Nearest

/-!
The shortest decimal of a double rounds to it (`shortest_rounds`). The grid with seventeen digits always has a point
in the interval of a double, and what is taken from a grid lies in the interval. If its last digit is zero, the
grid is the coarsest one and the point is the next power of ten.
-/
namespace Walkthrough.Decimal

namespace Interval

def Holds (i : Interval) (q : ℚ) : Prop :=
  if i.closed then i.low ≤ q * i.unit ∧ q * i.unit ≤ i.high else i.low < q * i.unit ∧ q * i.unit < i.high

/-- An interval of positive numbers around a double. -/
structure Proper (i : Interval) : Prop where
  unit : 0 < i.unit
  low : 0 < i.low
  below : i.low < i.value
  above : i.value < i.high

variable {i : Interval}

theorem holds_of_lt {q : ℚ} (low : i.low < q * i.unit) (high : q * i.unit < i.high) : i.Holds q := by
  unfold Holds
  split
  · exact ⟨low.le, high.le⟩
  · exact ⟨low, high⟩

theorem holds_of_between {p q r : ℚ} (first : i.Holds p) (last : i.Holds r) (low : p ≤ q) (high : q ≤ r) :
    i.Holds q := by
  have pos : (0 : ℚ) ≤ i.unit := Nat.cast_nonneg _
  have low' := mul_le_mul_of_nonneg_right low pos
  have high' := mul_le_mul_of_nonneg_right high pos
  unfold Holds at *
  split at first
  · rename_i closed
    rw [if_pos closed] at last ⊢
    exact ⟨first.1.trans low', high'.trans last.2⟩
  · rename_i closed
    rw [if_neg closed] at last ⊢
    exact ⟨first.1.trans_le low', high'.trans_lt last.2⟩

theorem ten_zpow_split (k : ℤ) : (10 : ℚ) ^ k * (10 ^ (-k).toNat : ℕ) = (10 ^ k.toNat : ℕ) := by
  push_cast
  rw [← zpow_natCast, ← zpow_natCast, ← zpow_add₀ (by norm_num)]
  congr 1
  omega

theorem point_eq (u n : ℕ) (k : ℤ) :
    ((n * (u * 10 ^ k.toNat) : ℕ) : ℚ) = n * 10 ^ k * u * (10 ^ (-k).toNat : ℕ) := by
  have split := ten_zpow_split k
  push_cast at split ⊢
  rw [← split]
  ring

theorem contains_iff (k : ℤ) (n : ℕ) :
    i.contains (10 ^ (-k).toNat) (n * (i.unit * 10 ^ k.toNat)) = true ↔ i.Holds (n * 10 ^ k) := by
  have le (a b : ℕ) : a ≤ b ↔ (a : ℚ) ≤ b := Nat.cast_le.symm
  have lt (a b : ℕ) : a < b ↔ (a : ℚ) < b := Nat.cast_lt.symm
  unfold contains Holds
  simp only [le, lt, point_eq, Nat.cast_mul i.low, Nat.cast_mul i.high]
  cases i.closed <;> simp

/-- The multiple of a power of ten at or below the double. -/
def below (i : Interval) (k : ℤ) : ℕ := i.value * 10 ^ (-k).toNat / (i.unit * 10 ^ k.toNat)

theorem below_le (k : ℤ) : (i.below k : ℚ) * 10 ^ k * i.unit ≤ i.value := by
  have pos : (0 : ℚ) < (10 ^ (-k).toNat : ℕ) := by positivity
  have low : i.below k * (i.unit * 10 ^ k.toNat) ≤ i.value * 10 ^ (-k).toNat := Nat.div_mul_le_self _ _
  rw [← @Nat.cast_le ℚ, point_eq, Nat.cast_mul] at low
  exact (mul_le_mul_iff_left₀ pos).mp low

theorem lt_below (proper : i.Proper) (k : ℤ) : (i.value : ℚ) < (i.below k + 1 : ℕ) * 10 ^ k * i.unit := by
  have pos : (0 : ℚ) < (10 ^ (-k).toNat : ℕ) := by positivity
  have step : 0 < i.unit * 10 ^ k.toNat := Nat.mul_pos proper.unit (by positivity)
  have high : i.value * 10 ^ (-k).toNat < (i.below k + 1) * (i.unit * 10 ^ k.toNat) := by
    rw [Nat.mul_comm (i.below k + 1)]
    exact Nat.lt_mul_div_succ _ step
  rw [← @Nat.cast_lt ℚ, point_eq, Nat.cast_mul] at high
  exact (mul_lt_mul_iff_left₀ pos).mp high

theorem onGrid?_eq (k : ℤ) : i.onGrid? k =
    match i.contains (10 ^ (-k).toNat) (i.below k * (i.unit * 10 ^ k.toNat)),
      i.contains (10 ^ (-k).toNat) ((i.below k + 1) * (i.unit * 10 ^ k.toNat)) with
    | true, false => some ⟨i.below k, k⟩
    | false, true => some ⟨i.below k + 1, k⟩
    | false, false => none
    | true, true =>
      if 2 * (i.value * 10 ^ (-k).toNat % (i.unit * 10 ^ k.toNat)) < i.unit * 10 ^ k.toNat ||
          (2 * (i.value * 10 ^ (-k).toNat % (i.unit * 10 ^ k.toNat)) = i.unit * 10 ^ k.toNat &&
            i.below k % 2 = 0) then some ⟨i.below k, k⟩
      else some ⟨i.below k + 1, k⟩ := rfl

/-- What is taken from a grid lies in the interval, beside the double. -/
theorem onGrid?_eq_some {k : ℤ} {d : Scaled} (found : i.onGrid? k = some d) :
    d.exponent = k ∧ i.Holds (d.digits * 10 ^ k) ∧ (d.digits = i.below k ∨ d.digits = i.below k + 1) := by
  rw [onGrid?_eq] at found
  split at found
  · rename_i inside _
    cases found
    exact ⟨rfl, (contains_iff k _).mp inside, Or.inl rfl⟩
  · rename_i inside
    cases found
    exact ⟨rfl, (contains_iff k _).mp inside, Or.inr rfl⟩
  · cases found
  · rename_i inside inside'
    split at found
    · cases found
      exact ⟨rfl, (contains_iff k _).mp inside, Or.inl rfl⟩
    · cases found
      exact ⟨rfl, (contains_iff k _).mp inside', Or.inr rfl⟩

theorem onGrid?_of_beside {k : ℤ} (holds : i.Holds (i.below k * 10 ^ k) ∨ i.Holds ((i.below k + 1 : ℕ) * 10 ^ k)) :
    ∃ d, i.onGrid? k = some d := by
  rw [← contains_iff, ← contains_iff] at holds
  rw [onGrid?_eq]
  split
  · exact ⟨_, rfl⟩
  · exact ⟨_, rfl⟩
  · rename_i outside outside'
    rw [outside, outside'] at holds
    simp at holds
  · split
    · exact ⟨_, rfl⟩
    · exact ⟨_, rfl⟩

/-- A grid with a point in the interval has one beside the double. -/
theorem onGrid?_of_holds {k : ℤ} {n : ℕ} (proper : i.Proper) (holds : i.Holds (n * 10 ^ k)) :
    ∃ d, i.onGrid? k = some d := by
  have unit : (0 : ℚ) < i.unit := by exact_mod_cast proper.unit
  have ten : (0 : ℚ) < 10 ^ k := zpow_pos (by norm_num) k
  -- The double itself lies in the interval, and the point beside it lies between it and the given one.
  have own : i.Holds (i.value / i.unit) := by
    apply holds_of_lt
    · rw [div_mul_cancel₀ _ unit.ne']
      exact_mod_cast proper.below
    · rw [div_mul_cancel₀ _ unit.ne']
      exact_mod_cast proper.above
  apply onGrid?_of_beside
  rcases Nat.lt_or_ge (i.below k) n with after | before
  · refine Or.inr (holds_of_between own holds ?_ ?_)
    · rw [div_le_iff₀ unit]
      exact (lt_below proper k).le
    · exact mul_le_mul_of_nonneg_right (by exact_mod_cast after) ten.le
  · refine Or.inl (holds_of_between holds own ?_ ?_)
    · exact mul_le_mul_of_nonneg_right (by exact_mod_cast before) ten.le
    · rw [le_div_iff₀ unit]
      exact below_le k

theorem ten_zpow_neg_mul_le (g u v : ℕ) : (10 : ℚ) ^ (-(g : ℤ)) * u ≤ v ↔ u ≤ v * 10 ^ g := by
  rw [zpow_neg, zpow_natCast, inv_mul_le_iff₀ (by positivity), mul_comm]
  exact_mod_cast Iff.rfl

theorem lt_ten_zpow_neg_mul (g u v : ℕ) : (v : ℚ) < 10 ^ (-(g : ℤ)) * u ↔ v * 10 ^ g < u := by
  rw [← not_le, ten_zpow_neg_mul_le, Nat.not_le]

theorem digitCount_bounds {m : ℕ} (filled : m ≠ 0) :
    10 ^ (digitCount m - 1) ≤ m ∧ m < 10 * 10 ^ (digitCount m - 1) := by
  obtain ⟨low, high⟩ := toDigits_bounds filled
  have some : digitCount m - 1 + 1 = digitCount m := Nat.sub_add_cancel Nat.length_toDigits_pos
  rw [← pow_succ', some]
  exact ⟨low, high⟩

/-- Above one, the digits before the point are counted. -/
theorem digitCount_div_spec {u v : ℕ} (unit : 0 < u) (large : u ≤ v) :
    (10 : ℚ) ^ ((digitCount (v / u) : ℤ) - 1) * u ≤ v ∧ (v : ℚ) < 10 ^ ((digitCount (v / u) : ℤ) - 1 + 1) * u := by
  obtain ⟨low, high⟩ := digitCount_bounds (Nat.div_pos large unit).ne'
  have some : 0 < digitCount (v / u) := Nat.length_toDigits_pos
  generalize digitCount (v / u) = n at *
  have exponent : (n : ℤ) - 1 = (n - 1 : ℕ) := by omega
  rw [exponent, ← Nat.cast_succ, zpow_natCast, zpow_natCast]
  rw [← pow_succ', Nat.div_lt_iff_lt_mul unit] at high
  have low := Nat.le_trans (Nat.mul_le_mul_right u low) (Nat.div_mul_le_self v u)
  exact_mod_cast And.intro low high

/-- Below one, scaled by the guess, the numerator has as many digits as the denominator. -/
theorem guess_spec {u v : ℕ} (some : v ≠ 0) (small : v < u) :
    10 ^ (digitCount u - 1) ≤ v * 10 ^ (digitCount u - digitCount v) ∧
      v * 10 ^ (digitCount u - digitCount v) < 10 * 10 ^ (digitCount u - 1) := by
  obtain ⟨low, high⟩ := digitCount_bounds some
  have filled : 0 < digitCount v := Nat.length_toDigits_pos
  have fewer : digitCount v ≤ digitCount u :=
    (Nat.length_toDigits_le_iff (by decide) Nat.length_toDigits_pos).mpr
      (small.trans (toDigits_bounds (Nat.ne_zero_of_lt small)).2)
  have power : 10 ^ (digitCount u - 1) = 10 ^ (digitCount v - 1) * 10 ^ (digitCount u - digitCount v) := by
    rw [← pow_add]
    congr 1
    omega
  rw [power, ← Nat.mul_assoc]
  exact ⟨Nat.mul_le_mul_right _ low, Nat.mul_lt_mul_of_pos_right high (by positivity)⟩

/-- The leading digit of the double stands at its magnitude. -/
theorem magnitude_spec (proper : i.Proper) :
    (10 : ℚ) ^ i.magnitude * i.unit ≤ i.value ∧ (i.value : ℚ) < 10 ^ (i.magnitude + 1) * i.unit := by
  have value : i.value ≠ 0 := by have := proper.below; omega
  unfold magnitude
  split
  · rename_i large
    exact digitCount_div_spec proper.unit large
  · rename_i small
    obtain ⟨least, most⟩ := digitCount_bounds proper.unit.ne'
    obtain ⟨low, high⟩ := guess_spec value (Nat.lt_of_not_le small)
    generalize 10 ^ (digitCount i.unit - 1) = p at *
    generalize digitCount i.unit - digitCount i.value = g at *
    simp only [Nat.pow_eq]
    split
    · rename_i reached
      have next : (10 : ℚ) ^ (-(g : ℤ) + 1) * i.unit = 10 ^ (-(g : ℤ)) * (10 * i.unit : ℕ) := by
        rw [zpow_add₀ (by norm_num), zpow_one]
        push_cast
        ring
      rw [ten_zpow_neg_mul_le, next, lt_ten_zpow_neg_mul]
      exact ⟨reached, by omega⟩
    · rename_i missed
      have next : -((g : ℤ) + 1) = -((g + 1 : ℕ) : ℤ) := by push_cast; ring
      have next' : -((g : ℤ) + 1) + 1 = -(g : ℤ) := by ring
      rw [next', next, ten_zpow_neg_mul_le, lt_ten_zpow_neg_mul, pow_succ, ← Nat.mul_assoc]
      exact ⟨by omega, by omega⟩

theorem firstGrid_eq (rounds : ℕ) (k : ℤ) (there : ∃ j < rounds, ∃ d, i.onGrid? (k - j) = some d) :
    ∃ j < rounds, i.onGrid? (k - j) = some (i.firstGrid k rounds) ∧ ∀ j' < j, i.onGrid? (k - j') = none := by
  induction rounds generalizing k with
  | zero =>
    obtain ⟨j, below, -⟩ := there
    exact absurd below (Nat.not_lt_zero j)
  | succ rounds ih =>
    have next (j : ℕ) : k - (j + 1 : ℕ) = k - 1 - j := by push_cast; ring
    have same : k - (0 : ℕ) = k := by simp
    unfold firstGrid
    cases found : i.onGrid? k with
    | some d => exact ⟨0, Nat.succ_pos _, by rw [same, found, Option.getD_some], by simp⟩
    | none =>
      have later : ∃ j < rounds, ∃ d, i.onGrid? (k - 1 - j) = some d := by
        obtain ⟨j, below, d, there⟩ := there
        cases j with
        | zero => simp [found] at there
        | succ j => exact ⟨j, by omega, d, next j ▸ there⟩
      obtain ⟨j, below, there, first⟩ := ih (k - 1) later
      refine ⟨j + 1, by omega, by rw [next, there, Option.getD_none], fun j' before => ?_⟩
      cases j' with
      | zero => rw [same, found]
      | succ j' => rw [next, first j' (by omega)]

end Interval

/-- How far the interval of a double reaches down, in quarters of a unit in the last place. -/
def reach (b : Binary) : ℕ := if b.mantissa = 2 ^ 52 ∧ -1074 < b.exponent then 1 else 2

theorem interval_fields (b : Binary) : Interval.of b.mantissa b.exponent =
    { low := (4 * b.mantissa - reach b) * 2 ^ (b.exponent - 2).toNat
      value := 4 * b.mantissa * 2 ^ (b.exponent - 2).toNat
      high := (4 * b.mantissa + 2) * 2 ^ (b.exponent - 2).toNat
      unit := 2 ^ (-(b.exponent - 2)).toNat
      closed := b.mantissa % 2 == 0 } := by
  have narrow : (if (b.mantissa = Nat.pow 2 52 && Binary.leastExponent < b.exponent) = true then 1 else 2) = reach b := by
    simp only [Bool.and_eq_true, decide_eq_true_eq]
    rfl
  unfold Interval.of
  simp only [narrow, Nat.pow_eq]

theorem interval_proper {b : Binary} (some : b.mantissa ≠ 0) : (Interval.of b.mantissa b.exponent).Proper := by
  have up : 0 < 2 ^ (b.exponent - 2).toNat := Nat.two_pow_pos _
  have short : 1 ≤ reach b ∧ reach b ≤ 2 := by unfold reach; split <;> decide
  rw [interval_fields]
  constructor
  · exact Nat.two_pow_pos _
  · exact Nat.mul_pos (by omega) up
  · exact Nat.mul_lt_mul_of_pos_right (by omega) up
  · exact Nat.mul_lt_mul_of_pos_right (by omega) up

theorem two_zpow_split (k : ℤ) : (2 : ℚ) ^ k * (2 ^ (-k).toNat : ℕ) = (2 ^ k.toNat : ℕ) := by
  push_cast
  rw [← zpow_natCast, ← zpow_natCast, ← zpow_add₀ (by norm_num)]
  congr 1
  omega

/-- A number in units of the interval, by its quotient with the unit in the last place. -/
theorem unit_eq (e : ℤ) (q : ℚ) :
    q * (2 ^ (-(e - 2)).toNat : ℕ) = 4 * (q / 2 ^ e) * (2 ^ (e - 2).toNat : ℕ) := by
  have split := two_zpow_split (e - 2)
  have quarter : (2 : ℚ) ^ (e - 2) = 2 ^ e / 4 := by
    rw [zpow_sub₀ two_ne_zero]
    norm_num
  have pos : (2 : ℚ) ^ e ≠ 0 := (zpow_pos two_pos e).ne'
  rw [← split, quarter]
  field_simp

theorem interval_holds_iff (b : Binary) (q : ℚ) : (Interval.of b.mantissa b.exponent).Holds q ↔
    if b.mantissa % 2 = 0 then
      ((4 * b.mantissa - reach b : ℕ) : ℚ) ≤ 4 * (q / 2 ^ b.exponent) ∧
        4 * (q / 2 ^ b.exponent) ≤ (4 * b.mantissa + 2 : ℕ)
    else
      ((4 * b.mantissa - reach b : ℕ) : ℚ) < 4 * (q / 2 ^ b.exponent) ∧
        4 * (q / 2 ^ b.exponent) < (4 * b.mantissa + 2 : ℕ) := by
  have up : (0 : ℚ) < (2 ^ (b.exponent - 2).toNat : ℕ) := by positivity
  rw [interval_fields]
  unfold Interval.Holds
  simp only [unit_eq, beq_iff_eq, Nat.cast_mul _ (2 ^ (b.exponent - 2).toNat), mul_le_mul_iff_left₀ up,
    mul_lt_mul_iff_left₀ up]

theorem cast_low {b : Binary} (some : b.mantissa ≠ 0) :
    ((4 * b.mantissa - reach b : ℕ) : ℚ) = 4 * b.mantissa - reach b := by
  have short : reach b ≤ 2 := by unfold reach; split <;> decide
  rw [Nat.cast_sub (by omega)]
  push_cast
  rfl

/-- All numbers in the interval of a double round to it. -/
theorem rounds_of_holds {b : Binary} (some : b.mantissa ≠ 0) {q : ℚ}
    (holds : (Interval.of b.mantissa b.exponent).Holds q) : RoundsTo q b := by
  have short : (reach b : ℚ) ≤ 2 := by unfold reach; split <;> norm_num
  rw [interval_holds_iff, cast_low some] at holds
  push_cast at holds
  constructor
  · constructor
    · split at holds <;> exact abs_le.mpr ⟨by linarith, by linarith⟩
    · intro tie
      split at holds
      · assumption
      · exact absurd tie (ne_of_lt (abs_lt.mpr ⟨by linarith, by linarith⟩))
  · intro power above
    have one : (reach b : ℚ) = 1 := by unfold reach; rw [if_pos ⟨power, above⟩]; rfl
    rw [power, one] at holds
    push_cast at holds
    obtain ⟨low, -⟩ := holds
    linarith

theorem holds_of_near {b : Binary} (some : b.mantissa ≠ 0) {q : ℚ}
    (low : 4 * b.mantissa - reach b < 4 * (q / 2 ^ b.exponent)) (high : 4 * (q / 2 ^ b.exponent) < 4 * b.mantissa + 2) :
    (Interval.of b.mantissa b.exponent).Holds q := by
  rw [interval_holds_iff, cast_low some]
  push_cast
  split
  · exact ⟨low.le, high.le⟩
  · exact ⟨low, high⟩

theorem unit_le_value_iff (b : Binary) (q : ℚ) :
    q * (Interval.of b.mantissa b.exponent).unit ≤ (Interval.of b.mantissa b.exponent).value ↔
      q / 2 ^ b.exponent ≤ b.mantissa := by
  have up : (0 : ℚ) < (2 ^ (b.exponent - 2).toNat : ℕ) := by positivity
  rw [interval_fields, unit_eq, Nat.cast_mul, mul_le_mul_iff_left₀ up, Nat.cast_mul]
  exact mul_le_mul_iff_right₀ (by norm_num)

theorem value_lt_unit_iff (b : Binary) (q : ℚ) :
    ((Interval.of b.mantissa b.exponent).value : ℚ) < q * (Interval.of b.mantissa b.exponent).unit ↔
      b.mantissa < q / 2 ^ b.exponent := by
  rw [← not_le, unit_le_value_iff, not_le]

/-- Among seventeen digits a point lies in the interval. -/
theorem point_of_seventeen {b : Binary} (c : b.Canonical) (some : b.mantissa ≠ 0) :
    ∃ d, (Interval.of b.mantissa b.exponent).onGrid? ((Interval.of b.mantissa b.exponent).magnitude - 16) = .some d := by
  have proper := interval_proper some
  have leading := (unit_le_value_iff b _).mp (Interval.magnitude_spec proper).1
  have least := (unit_le_value_iff b _).mp
    (Interval.below_le (i := .of b.mantissa b.exponent) ((Interval.of b.mantissa b.exponent).magnitude - 16))
  have next := (value_lt_unit_iff b _).mp
    (Interval.lt_below proper ((Interval.of b.mantissa b.exponent).magnitude - 16))
  have sixteen : (10 : ℚ) ^ (Interval.of b.mantissa b.exponent).magnitude =
      10 ^ ((Interval.of b.mantissa b.exponent).magnitude - 16) * 10 ^ 16 := by
    rw [← zpow_natCast, ← zpow_add₀ (by norm_num)]
    congr 1
    omega
  apply Interval.onGrid?_of_beside
  rw [sixteen] at leading
  generalize (Interval.of b.mantissa b.exponent).magnitude - 16 = k at *
  generalize Interval.below (.of b.mantissa b.exponent) k = n at *
  have apart : (n + 1 : ℕ) * (10 : ℚ) ^ k / 2 ^ b.exponent = n * 10 ^ k / 2 ^ b.exponent + 10 ^ k / 2 ^ b.exponent := by
    push_cast
    ring
  rw [mul_div_right_comm] at leading
  have most : (b.mantissa : ℚ) < 2 ^ 53 := by exact_mod_cast c.bounded
  rw [apart] at next
  -- If the point below the double is too far away, the next one is less than an interval above it.
  by_cases close : 4 * b.mantissa - reach b < 4 * (n * (10 : ℚ) ^ k / 2 ^ b.exponent)
  · exact Or.inl (holds_of_near some close (by linarith))
  · refine Or.inr (holds_of_near some ?_ ?_)
    · rw [apart]
      have : (0 : ℚ) ≤ reach b := Nat.cast_nonneg _
      linarith
    · rw [apart]
      unfold reach at close
      split at close
      · rename_i narrow
        have power : (b.mantissa : ℚ) = 2 ^ 52 := by exact_mod_cast narrow.1
        linarith
      · push_cast at close
        linarith

theorem Interval.Proper.pos {i : Interval} (proper : i.Proper) {q : ℚ} (holds : i.Holds q) : 0 < q := by
  have low : (0 : ℚ) < i.low := by exact_mod_cast proper.low
  have unit : (0 : ℚ) < i.unit := by exact_mod_cast proper.unit
  refine pos_of_mul_pos_left ?_ unit.le
  unfold Holds at holds
  split at holds
  · exact low.trans_le holds.1
  · exact low.trans holds.1

/-- On the coarsest grid the points beside a double have one digit, or are the next power of ten. -/
theorem Interval.below_magnitude {i : Interval} (proper : i.Proper) : i.below i.magnitude < 10 := by
  have unit : (0 : ℚ) < i.unit := by exact_mod_cast proper.unit
  have ten : (0 : ℚ) < 10 ^ i.magnitude := zpow_pos (by norm_num) _
  have less := (below_le i.magnitude).trans_lt (magnitude_spec proper).2
  rw [mul_lt_mul_iff_left₀ unit, zpow_add_one₀ (by norm_num), mul_comm, mul_lt_mul_iff_right₀ ten] at less
  exact_mod_cast less

/-- A point that ends in zero is the power of ten above the coarsest grid: any other would stand on a coarser one. -/
theorem Interval.ends_in_zero {i : Interval} (proper : i.Proper) {j : ℕ} {d : Scaled}
    (found : i.onGrid? (i.magnitude - j) = some d) (first : ∀ j' < j, i.onGrid? (i.magnitude - j') = none)
    (ends : d.digits % 10 = 0) : j = 0 ∧ d.digits = 10 := by
  obtain ⟨-, holds, beside⟩ := onGrid?_eq_some found
  have filled : d.digits ≠ 0 := by
    intro zero
    rw [zero, Nat.cast_zero, zero_mul] at holds
    exact lt_irrefl _ (proper.pos holds)
  cases j with
  | zero =>
    have few := below_magnitude proper
    rw [Nat.cast_zero, sub_zero] at beside
    exact ⟨rfl, by omega⟩
  | succ j =>
    have coarser : (d.digits : ℚ) * 10 ^ (i.magnitude - (j + 1 : ℕ)) = (d.digits / 10 : ℕ) * 10 ^ (i.magnitude - j) := by
      have whole : d.digits = d.digits / 10 * 10 := by omega
      have step : i.magnitude - j = i.magnitude - (j + 1 : ℕ) + 1 := by push_cast; ring
      rw [step, zpow_add_one₀ (by norm_num)]
      nth_rewrite 1 [whole]
      push_cast
      ring
    rw [coarser] at holds
    obtain ⟨d', found'⟩ := onGrid?_of_holds proper holds
    rw [first j (Nat.lt_succ_self j)] at found'
    cases found'

theorem shortest_rounds {b : Binary} (c : b.Canonical) (some : b.mantissa ≠ 0) :
    (shortest b.mantissa b.exponent).digits ≠ 0 ∧
      RoundsTo ((shortest b.mantissa b.exponent).digits * 10 ^ (shortest b.mantissa b.exponent).exponent) b := by
  have proper := interval_proper some
  obtain ⟨j, -, found, first⟩ := Interval.firstGrid_eq 17 _ ⟨16, by decide, point_of_seventeen c some⟩
  obtain ⟨exponent, holds, -⟩ := Interval.onGrid?_eq_some found
  have zero := Interval.ends_in_zero proper found first
  simp only [shortest]
  generalize Interval.firstGrid _ _ 17 = d at *
  split
  · rename_i ends
    obtain ⟨rfl, ten⟩ := zero ends
    rw [ten] at holds
    have power : (10 : ℚ) ^ (d.exponent + digitCount d.digits - 1) = 10 * 10 ^ d.exponent := by
      rw [ten, show digitCount 10 = 2 from rfl, ← zpow_one_add₀ (by norm_num)]
      congr 1
      push_cast
      ring
    refine ⟨Nat.one_ne_zero, ?_⟩
    rw [power, Nat.cast_one, one_mul, exponent]
    exact rounds_of_holds some holds
  · rename_i ends
    refine ⟨fun none => ends (by rw [none]), ?_⟩
    rw [exponent]
    exact rounds_of_holds some holds

end Walkthrough.Decimal
