import Walkthrough.Proofs.Decimal.Binary

/-!
Rounding to doubles. An operation on doubles hands over a mantissa, an exponent and what is left of the exact
result, and rounds them. If the exact result lies in the interval of the numbers that round to a double
(`RoundsTo`), the double is what comes of it (`roundWithAccuracy_eq`), so for products and quotients
(`mul_eq`, `div_eq`).
-/
namespace Walkthrough.Decimal

open Float.Model Float.Model.UnpackedFloat

/-- The part of a unit that is left beside a mantissa. -/
def Leaves (f : ℚ) : Accuracy → Prop
  | .exact => f = 0
  | .inexact .lt => 0 < f ∧ f < 1 / 2
  | .inexact .eq => f = 1 / 2
  | .inexact .gt => 1 / 2 < f ∧ f < 1

theorem Leaves.bounds {f : ℚ} {a : Accuracy} (leaves : Leaves f a) : 0 ≤ f ∧ f < 1 := by
  cases a with
  | exact => simp only [Leaves] at leaves; constructor <;> linarith
  | inexact o => cases o <;> simp only [Leaves] at leaves <;> constructor <;> linarith

/-- `m` is the whole number nearest to `v`, and even if there are two. -/
structure NearestEven (v : ℚ) (m : ℕ) : Prop where
  near : |v - m| ≤ 1 / 2
  tie : |v - m| = 1 / 2 → m % 2 = 0

theorem roundToNearestEven_eq {f : ℚ} {a : Accuracy} {m k : ℕ} (leaves : Leaves f a)
    (nearest : NearestEven (m + f) k) : a.roundToNearestEven m = k := by
  obtain ⟨low, high⟩ := abs_le.mp nearest.near
  have tie := nearest.tie
  cases a with
  | exact =>
    simp only [Leaves] at leaves
    subst leaves
    have h1 : (m : ℚ) < k + 1 := by linarith
    have h2 : (k : ℚ) < m + 1 := by linarith
    norm_cast at h1 h2
    simp only [Accuracy.roundToNearestEven]
    omega
  | inexact o =>
    cases o with
    | lt =>
      simp only [Leaves] at leaves
      have h1 : (m : ℚ) < k + 1 := by linarith
      have h2 : (k : ℚ) < m + 1 := by linarith
      norm_cast at h1 h2
      simp only [Accuracy.roundToNearestEven]
      omega
    | gt =>
      simp only [Leaves] at leaves
      have h1 : (m : ℚ) < k := by linarith
      have h2 : (k : ℚ) < m + 2 := by linarith
      norm_cast at h1 h2
      simp only [Accuracy.roundToNearestEven]
      omega
    | eq =>
      simp only [Leaves] at leaves
      subst leaves
      have h1 : (m : ℚ) ≤ k := by linarith
      have h2 : (k : ℚ) ≤ m + 1 := by linarith
      norm_cast at h1 h2
      -- Both neighbours of a tie are near enough, and only one of them is even.
      have even : k % 2 = 0 := by
        apply tie
        rcases (by omega : k = m ∨ k = m + 1) with rfl | rfl
        · rw [add_sub_cancel_left]; norm_num
        · push_cast
          rw [show (m : ℚ) + 1 / 2 - (m + 1) = -(1 / 2) by ring, abs_neg]
          norm_num
      simp only [Accuracy.roundToNearestEven]
      omega

theorem shiftRightOne_leaves {em : ExtendedMantissa} {f : ℚ} (leaves : Leaves f em.accuracy) :
    ∃ g, Leaves g em.shiftRightOne.accuracy ∧
      (em.shiftRightOne.mantissa + g : ℚ) = (em.mantissa + f) / 2 := by
  have parts : (em.mantissa : ℚ) = 2 * (em.mantissa / 2 : ℕ) + (em.mantissa % 2 : ℕ) := by
    exact_mod_cast (Nat.div_add_mod em.mantissa 2).symm
  -- The bit that is shifted out comes before what was left already.
  refine ⟨((em.mantissa % 2 : ℕ) + f) / 2, ?_, ?_⟩
  · obtain ⟨m, r, s⟩ := em
    rcases Nat.mod_two_eq_zero_or_one m with bit | bit <;> cases r <;> cases s <;>
      simp [ExtendedMantissa.shiftRightOne, ExtendedMantissa.accuracy, Leaves, bit] at leaves ⊢ <;>
      (try constructor) <;> linarith
  · simp only [ExtendedMantissa.shiftRightOne]
    linarith

theorem shiftRight_leaves {em : ExtendedMantissa} {f : ℚ} (leaves : Leaves f em.accuracy) (k : ℕ) :
    ∃ g, Leaves g (em >>> k).accuracy ∧ ((em >>> k).mantissa + g : ℚ) = (em.mantissa + f) / 2 ^ k := by
  induction k with
  | zero => exact ⟨f, leaves, by simp [HShiftRight.hShiftRight, Nat.repeat]⟩
  | succ k ih =>
    obtain ⟨g, before, value⟩ := ih
    obtain ⟨h, after, half⟩ := shiftRightOne_leaves before
    refine ⟨h, after, ?_⟩
    change ((em >>> k).shiftRightOne.mantissa + h : ℚ) = _
    rw [half, value, pow_succ, div_div]

/-- The number that a mantissa with an exponent and an accuracy stand for. -/
def Stands (q : ℚ) (m : ℕ) (e : ℤ) (a : Accuracy) : Prop := ∃ f, Leaves f a ∧ q = (m + f) * 2 ^ e

theorem ofMantissaAndAccuracy_accuracy (m : ℕ) (a : Accuracy) :
    (ExtendedMantissa.ofMantissaAndAccuracy m a).accuracy = a ∧
      (ExtendedMantissa.ofMantissaAndAccuracy m a).mantissa = m := by
  cases a with
  | exact => exact ⟨rfl, rfl⟩
  | inexact o => cases o <;> exact ⟨rfl, rfl⟩

theorem binary64_targetExponent (t : ℤ) : Format.binary64.targetExponent t = max (t - 53) (-1074) := rfl

/-- Shifting a mantissa keeps what it stands for. -/
theorem stands_shift {q : ℚ} {m : ℕ} {e : ℤ} {a : Accuracy} (stands : Stands q m e a) (t : ℤ) :
    Stands q (shiftToExponent m e a t).1.mantissa (shiftToExponent m e a t).2 (shiftToExponent m e a t).1.accuracy := by
  obtain ⟨f, leaves, value⟩ := stands
  obtain ⟨accuracy, mantissa⟩ := ofMantissaAndAccuracy_accuracy m a
  rw [← accuracy] at leaves
  obtain ⟨g, after, shifted⟩ := shiftRight_leaves leaves (t - e).toNat
  refine ⟨g, after, ?_⟩
  simp only [shiftToExponent]
  rw [shifted, mantissa, value, zpow_add₀ two_ne_zero, zpow_natCast]
  field_simp

/-- The numbers that round to a double. Below a power of two the doubles lie twice as close. -/
structure RoundsTo (q : ℚ) (b : Binary) : Prop where
  nearest : NearestEven (q / 2 ^ b.exponent) b.mantissa
  narrow : b.mantissa = 2 ^ 52 → -1074 < b.exponent → 2 ^ 52 - 1 / 4 ≤ q / 2 ^ b.exponent

theorem log2_bounds {m : ℕ} (some : m ≠ 0) : (2 : ℚ) ^ m.log2 ≤ m ∧ (m : ℚ) < 2 ^ (m.log2 + 1) := by
  exact ⟨by exact_mod_cast Nat.log2_self_le some, by exact_mod_cast Nat.lt_log2_self⟩

theorem Stands.bounds {q : ℚ} {m : ℕ} {e : ℤ} {a : Accuracy} (stands : Stands q m e a) :
    m * 2 ^ e ≤ q ∧ q < (m + 1) * 2 ^ e := by
  obtain ⟨f, leaves, rfl⟩ := stands
  obtain ⟨low, high⟩ := leaves.bounds
  have pos : (0 : ℚ) < 2 ^ e := zpow_pos two_pos e
  exact ⟨mul_le_mul_of_nonneg_right (by linarith) pos.le, mul_lt_mul_of_pos_right (by linarith) pos⟩

theorem Stands.total {q : ℚ} {m : ℕ} {e : ℤ} {a : Accuracy} (stands : Stands q m e a) (some : m ≠ 0) :
    (2 : ℚ) ^ (totalExponent m e - 1) ≤ q ∧ q < 2 ^ totalExponent m e := by
  obtain ⟨low, high⟩ := stands.bounds
  obtain ⟨least, most⟩ := log2_bounds some
  have pos : (0 : ℚ) < 2 ^ e := zpow_pos two_pos e
  have next : (m + 1 : ℚ) ≤ 2 ^ (m.log2 + 1) := by exact_mod_cast Nat.lt_log2_self
  unfold totalExponent
  constructor
  · rw [show (m.log2 : ℤ) + 1 + e - 1 = m.log2 + e by ring, zpow_add₀ two_ne_zero, zpow_natCast]
    exact le_trans (mul_le_mul_of_nonneg_right least pos.le) low
  · rw [zpow_add₀ two_ne_zero, ← Nat.cast_one, ← Nat.cast_add, zpow_natCast]
    exact lt_of_lt_of_le high (mul_le_mul_of_nonneg_right next pos.le)

theorem lt_of_two_zpow_lt {q : ℚ} {i j : ℤ} (low : (2 : ℚ) ^ i ≤ q) (high : q < 2 ^ j) : i < j :=
  (zpow_lt_zpow_iff_right₀ one_lt_two).mp (lt_of_le_of_lt low high)

theorem RoundsTo.lt {q : ℚ} {b : Binary} (rounds : RoundsTo q b) (c : b.Canonical) :
    q < 2 ^ (b.exponent + 53) := by
  have high := (abs_le.mp rounds.nearest.near).2
  have top : (b.mantissa : ℚ) + 1 ≤ 2 ^ 53 := by exact_mod_cast c.bounded
  have pos : (0 : ℚ) < 2 ^ b.exponent := zpow_pos two_pos _
  have less : q / 2 ^ b.exponent < 2 ^ 53 := by linarith
  rw [div_lt_iff₀ pos] at less
  rw [zpow_add₀ two_ne_zero, zpow_ofNat]
  linarith

theorem RoundsTo.le_of_full {q : ℚ} {b : Binary} (rounds : RoundsTo q b) (full : 2 ^ 52 ≤ b.mantissa) :
    2 ^ (b.exponent + 51) ≤ q := by
  have low := (abs_le.mp rounds.nearest.near).1
  have least : (2 : ℚ) ^ 52 ≤ b.mantissa := by exact_mod_cast full
  have pos : (0 : ℚ) < 2 ^ b.exponent := zpow_pos two_pos _
  have less : (2 : ℚ) ^ 51 ≤ q / 2 ^ b.exponent := by linarith
  rw [le_div_iff₀ pos] at less
  rw [zpow_add₀ two_ne_zero, zpow_ofNat]
  linarith

/-- The exponent to which a number is shifted is that of its double, or one less if it lies just below a power of
two. -/
theorem target_cases {b : Binary} (c : b.Canonical) {q : ℚ} (rounds : RoundsTo q b)
    {m : ℕ} {e : ℤ} {a : Accuracy} (stands : Stands q m e a)
    (fine : e ≤ Format.binary64.targetExponent (totalExponent m e)) :
    Format.binary64.targetExponent (totalExponent m e) = b.exponent ∨
      Format.binary64.targetExponent (totalExponent m e) = b.exponent - 1 ∧ b.mantissa = 2 ^ 52 ∧
        -1074 < b.exponent ∧ q / 2 ^ b.exponent < 2 ^ 52 := by
  rw [binary64_targetExponent] at fine ⊢
  have upper := rounds.lt c
  have least := c.least
  by_cases nothing : m = 0
  · subst nothing
    have zero : totalExponent 0 e = 1 + e := by simp [totalExponent]
    rw [zero] at fine ⊢
    rcases c.full with bottom | full
    · omega
    · have high := stands.bounds.2
      rw [Nat.cast_zero, zero_add, one_mul] at high
      have := lt_of_two_zpow_lt (rounds.le_of_full full) high
      omega
  · obtain ⟨begins, ends⟩ := stands.total nothing
    have most := lt_of_two_zpow_lt begins upper
    rcases c.full with bottom | full
    · omega
    · have fewest := lt_of_two_zpow_lt (rounds.le_of_full full) ends
      by_cases whole : totalExponent m e = 53 + b.exponent
      · omega
      · by_cases bottom : b.exponent = -1074
        · omega
        · -- One bit short, the number lies below the power of two to which it rounds.
          have half : totalExponent m e = b.exponent + 52 := by omega
          rw [half, zpow_add₀ two_ne_zero, mul_comm, ← div_lt_iff₀ (zpow_pos two_pos _), zpow_ofNat] at ends
          have low := (abs_le.mp rounds.nearest.near).1
          have top : (b.mantissa : ℚ) < 2 ^ 52 + 1 := by linarith
          have power : b.mantissa = 2 ^ 52 := by
            norm_cast at top
            omega
          exact Or.inr ⟨by omega, power, by omega, ends⟩

theorem Stands.exact (m : ℕ) (e : ℤ) : Stands (m * 2 ^ e) m e .exact := ⟨0, rfl, by simp⟩

theorem shiftToExponent_of_le {m : ℕ} {e t : ℤ} (le : t ≤ e) : shiftToExponent m e .exact t = (⟨m, false, false⟩, e) := by
  have none : (t - e).toNat = 0 := by omega
  simp only [shiftToExponent, none]
  exact Prod.ext rfl (by simp)

theorem shiftToExponent_power (t : ℤ) :
    shiftToExponent (2 ^ 53) (t - 1) .exact t = (⟨2 ^ 52, false, false⟩, t) := by
  have one : (t - (t - 1)).toNat = 1 := by omega
  simp only [shiftToExponent, one]
  exact Prod.ext rfl (by simp)

/-- Just below a power of two a number rounds up to it, also in units half as large. -/
theorem RoundsTo.below_power {q : ℚ} {b : Binary} (rounds : RoundsTo q b) (power : b.mantissa = 2 ^ 52)
    (above : -1074 < b.exponent) (short : q / 2 ^ b.exponent < 2 ^ 52) :
    NearestEven (q / 2 ^ (b.exponent - 1)) (2 ^ 53) := by
  have doubled : q / 2 ^ (b.exponent - 1) = 2 * (q / 2 ^ b.exponent) := by
    rw [zpow_sub_one₀ two_ne_zero]
    field_simp
  have close := rounds.narrow power above
  rw [doubled]
  refine ⟨abs_le.mpr ⟨?_, ?_⟩, fun _ => rfl⟩
  · push_cast
    linarith
  · push_cast
    linarith

theorem roundWithAccuracy_eq {b : Binary} (c : b.Canonical) (some : b.mantissa ≠ 0) {q : ℚ} (rounds : RoundsTo q b)
    {m : ℕ} {e : ℤ} {a : Accuracy} (stands : Stands q m e a)
    (fine : e ≤ Format.binary64.targetExponent (totalExponent m e)) (s : Sign) :
    roundWithAccuracy Format.binary64 s m e a =
      .finite s b.mantissa b.exponent (Nat.pos_of_ne_zero some) := by
  have which := target_cases c rounds stands fine
  obtain ⟨f, leaves, value⟩ := stands_shift stands (Format.binary64.targetExponent (totalExponent m e))
  have reached : (shiftToExponent m e a (Format.binary64.targetExponent (totalExponent m e))).2 =
      Format.binary64.targetExponent (totalExponent m e) := by
    simp only [shiftToExponent]
    omega
  have least := c.least
  have bits : b.mantissa.log2 < 53 := (Nat.log2_lt some).mpr c.bounded
  unfold roundWithAccuracy shiftToTargetExponent
  generalize Format.binary64.targetExponent (totalExponent m e) = t at *
  have rounded {k : ℕ} (nearest : NearestEven (q / 2 ^ t) k) : (shiftToExponent m e a t).1.roundedMantissa = k := by
    have ratio : q / 2 ^ t = (shiftToExponent m e a t).1.mantissa + f := by
      rw [value, reached]
      field_simp
    exact roundToNearestEven_eq leaves (ratio ▸ nearest)
  rcases which with rfl | ⟨rfl, power, above, short⟩
  · have settled : Format.binary64.targetExponent (totalExponent b.mantissa b.exponent) ≤ b.exponent := by
      rw [binary64_targetExponent, totalExponent]
      omega
    simp only [reached, rounded rounds.nearest, shiftToExponent_of_le settled, dif_neg some]
  · -- The number is rounded in units half as large, up to the power of two, which is then shifted once more.
    have target : Format.binary64.targetExponent (totalExponent (2 ^ 53) (b.exponent - 1)) = b.exponent := by
      rw [binary64_targetExponent, totalExponent, Nat.log2_two_pow]
      omega
    simp only [reached, rounded (rounds.below_power power above short), target, shiftToExponent_power]
    rw [dif_neg (by decide)]
    simp only [power]

theorem accuracyOfFraction_leaves {num den : ℕ} (less : num < den) :
    Leaves ((num : ℚ) / den) (accuracyOfFraction num den) := by
  have pos : (0 : ℚ) < den := by exact_mod_cast Nat.zero_lt_of_lt less
  unfold accuracyOfFraction
  split
  · rename_i zero
    simp [Leaves, zero]
  · rename_i some
    have above : (0 : ℚ) < num := by exact_mod_cast Nat.pos_of_ne_zero some
    cases compared : compare (2 * num) den with
    | lt =>
      have : (2 * num : ℚ) < den := by exact_mod_cast Nat.compare_eq_lt.mp compared
      exact ⟨div_pos above pos, by rw [div_lt_div_iff₀ pos two_pos]; linarith⟩
    | eq =>
      have : (2 * num : ℚ) = den := by exact_mod_cast Nat.compare_eq_eq.mp compared
      change (num : ℚ) / den = 1 / 2
      rw [div_eq_div_iff pos.ne' two_ne_zero]
      linarith
    | gt =>
      have : (den : ℚ) < 2 * num := by exact_mod_cast Nat.compare_eq_gt.mp compared
      have top : (num : ℚ) < den := by exact_mod_cast less
      exact ⟨by rw [div_lt_div_iff₀ two_pos pos]; linarith, (div_lt_one pos).mpr top⟩

theorem quotient_stands {m₁ m₂ : ℕ} (e₁ e₂ : ℤ) (some₂ : m₂ ≠ 0) {t : ℤ} (low : t ≤ e₁ - e₂) :
    Stands ((m₁ * 2 ^ e₁) / (m₂ * 2 ^ e₂)) (m₁ <<< (e₁ - e₂ - t).toNat / m₂) t
      (accuracyOfFraction (m₁ <<< (e₁ - e₂ - t).toNat % m₂) m₂) := by
  refine ⟨_, accuracyOfFraction_leaves (Nat.mod_lt _ (Nat.pos_of_ne_zero some₂)), ?_⟩
  have pos₂ : (0 : ℚ) < m₂ := by exact_mod_cast Nat.pos_of_ne_zero some₂
  have steps : e₁ - e₂ = (e₁ - e₂ - t).toNat + t := by omega
  generalize (e₁ - e₂ - t).toNat = k at *
  have parts : (m₂ : ℚ) * (m₁ <<< k / m₂ : ℕ) + (m₁ <<< k % m₂ : ℕ) = m₁ * 2 ^ k := by
    rw [← Nat.cast_mul, ← Nat.cast_add, Nat.div_add_mod, Nat.shiftLeft_eq]
    push_cast
    rfl
  have quotient : ((m₁ <<< k / m₂ : ℕ) : ℚ) + (m₁ <<< k % m₂ : ℕ) / m₂ = m₁ * 2 ^ k / m₂ := by
    rw [← parts]
    field_simp
  have powers : (2 : ℚ) ^ e₁ = 2 ^ e₂ * 2 ^ k * 2 ^ t := by
    rw [← zpow_natCast, ← zpow_add₀ two_ne_zero, ← zpow_add₀ two_ne_zero]
    congr 1
    omega
  rw [quotient, powers]
  field_simp

theorem le_quotient {m₁ m₂ : ℕ} (e₁ e₂ : ℤ) (some₁ : m₁ ≠ 0) (some₂ : m₂ ≠ 0) :
    (2 : ℚ) ^ (totalExponent m₁ e₁ - totalExponent m₂ e₂ - 1) ≤ (m₁ * 2 ^ e₁) / (m₂ * 2 ^ e₂) := by
  have pos₂ : (0 : ℚ) < m₂ := by exact_mod_cast Nat.pos_of_ne_zero some₂
  have low := ((Stands.exact m₁ e₁).total some₁).1
  have high := ((Stands.exact m₂ e₂).total some₂).2
  rw [le_div_iff₀ (mul_pos pos₂ (zpow_pos two_pos e₂))]
  calc (2 : ℚ) ^ (totalExponent m₁ e₁ - totalExponent m₂ e₂ - 1) * (m₂ * 2 ^ e₂)
      ≤ 2 ^ (totalExponent m₁ e₁ - totalExponent m₂ e₂ - 1) * 2 ^ totalExponent m₂ e₂ :=
        mul_le_mul_of_nonneg_left high.le (zpow_pos two_pos _).le
    _ = 2 ^ (totalExponent m₁ e₁ - 1) := by
        rw [← zpow_add₀ two_ne_zero]
        congr 1
        omega
    _ ≤ m₁ * 2 ^ e₁ := low

theorem divCore_stands {m₁ m₂ : ℕ} (e₁ e₂ : ℤ) (some₁ : m₁ ≠ 0) (some₂ : m₂ ≠ 0) :
    Stands ((m₁ * 2 ^ e₁) / (m₂ * 2 ^ e₂)) (divCore Format.binary64 m₁ e₁ m₂ e₂).1
        (divCore Format.binary64 m₁ e₁ m₂ e₂).2.1 (divCore Format.binary64 m₁ e₁ m₂ e₂).2.2 ∧
      (divCore Format.binary64 m₁ e₁ m₂ e₂).2.1 ≤ Format.binary64.targetExponent
        (totalExponent (divCore Format.binary64 m₁ e₁ m₂ e₂).1 (divCore Format.binary64 m₁ e₁ m₂ e₂).2.1) := by
  unfold divCore
  simp only
  generalize goal : Format.binary64.targetExponent (totalExponent m₁ e₁ - totalExponent m₂ e₂) = goal'
  generalize chosen : min (e₁ - e₂) goal' = t
  have stands := @quotient_stands m₁ m₂ e₁ e₂ some₂ t (by omega)
  have above := le_quotient e₁ e₂ some₁ some₂
  refine ⟨stands, ?_⟩
  -- The sizes of both numbers give that of the quotient but for one bit, which the target leaves room for.
  rw [binary64_targetExponent] at goal ⊢
  by_cases nothing : m₁ <<< (e₁ - e₂ - t).toNat / m₂ = 0
  · rw [nothing] at stands ⊢
    have below := stands.bounds.2
    rw [Nat.cast_zero, zero_add, one_mul] at below
    have := lt_of_two_zpow_lt above below
    simp only [totalExponent, Nat.log2_zero, CharP.cast_eq_zero, zero_add]
    omega
  · have := lt_of_two_zpow_lt above (stands.total nothing).2
    omega

theorem div_eq {b : Binary} (c : b.Canonical) (some : b.mantissa ≠ 0) {m₁ m₂ : ℕ} {e₁ e₂ : ℤ}
    (pos₁ : 0 < m₁) (pos₂ : 0 < m₂) (rounds : RoundsTo ((m₁ * 2 ^ e₁) / (m₂ * 2 ^ e₂)) b) :
    UnpackedFloat.div Format.binary64 (.finite .positive m₁ e₁ pos₁) (.finite .positive m₂ e₂ pos₂) =
      .finite .positive b.mantissa b.exponent (Nat.pos_of_ne_zero some) := by
  obtain ⟨stands, fine⟩ := divCore_stands e₁ e₂ pos₁.ne' pos₂.ne'
  exact roundWithAccuracy_eq c some rounds stands fine _

theorem mul_eq {b : Binary} (c : b.Canonical) (some : b.mantissa ≠ 0) {m₁ m₂ : ℕ} {e₁ e₂ : ℤ}
    (pos₁ : 0 < m₁) (pos₂ : 0 < m₂) (fine : e₁ + e₂ ≤ Format.binary64.targetExponent (totalExponent (m₁ * m₂) (e₁ + e₂)))
    (rounds : RoundsTo ((m₁ * 2 ^ e₁) * (m₂ * 2 ^ e₂)) b) :
    UnpackedFloat.mul Format.binary64 (.finite .positive m₁ e₁ pos₁) (.finite .positive m₂ e₂ pos₂) =
      .finite .positive b.mantissa b.exponent (Nat.pos_of_ne_zero some) := by
  have stands : Stands ((m₁ * 2 ^ e₁) * (m₂ * 2 ^ e₂)) (m₁ * m₂) (e₁ + e₂) .exact := by
    have same : ((m₁ * 2 ^ e₁) * (m₂ * 2 ^ e₂) : ℚ) = (m₁ * m₂ : ℕ) * 2 ^ (e₁ + e₂) := by
      rw [zpow_add₀ two_ne_zero]
      push_cast
      ring
    rw [same]
    exact .exact _ _
  exact roundWithAccuracy_eq c some rounds stands fine _

end Walkthrough.Decimal
