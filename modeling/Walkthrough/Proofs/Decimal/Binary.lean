import Mathlib
import Walkthrough.Decimal.Binary

/-!
Exact numbers and doubles. The number of a double is in canonical form: only a subnormal one has leading
bits that are zero (`canonical_of`). A canonical number packs into a double that unpacks into it again
(`unpack_pack`), and a double without a number is an infinity or not-a-number (`unpack_of_none`).
-/
namespace Walkthrough.Decimal.Binary

open Float.Model Float.Model.UnpackedFloat

theorem field_eq (bits : UInt64) : ((bits >>> 52) &&& 0x7FF).toNat = (@unpackExponent Format.binary64 bits.toBitVec).toNat := by
  rw [unpackExponent_def, BitVec.extractLsb'_toNat, UInt64.toNat_and, UInt64.toNat_shiftRight]
  exact Nat.and_two_pow_sub_one_eq_mod _ 11

theorem fraction_eq (bits : UInt64) : (bits &&& 0xFFFFFFFFFFFFF).toNat = (@unpackMantissa Format.binary64 bits.toBitVec).toNat := by
  rw [unpackMantissa_def, BitVec.extractLsb'_toNat, UInt64.toNat_and]
  exact Nat.and_two_pow_sub_one_eq_mod _ 52

theorem negative_eq (bits : UInt64) : (bits >>> 63 == 1) = (@unpackSign Format.binary64 bits.toBitVec == 1#1) := by
  rw [unpackSign_def]
  rw [Bool.eq_iff_iff, beq_iff_eq, beq_iff_eq, ← UInt64.toNat_inj, ← BitVec.toNat_inj, BitVec.extractLsb'_toNat, UInt64.toNat_shiftRight]
  have small : bits.toNat >>> 63 < 2 := by
    have := bits.toNat_lt
    rw [Nat.shiftRight_eq_div_pow]
    omega
  change bits.toNat >>> 63 = 1 ↔ (bits.toNat >>> 63) % 2 = 1
  omega

structure Canonical (b : Binary) : Prop where
  bounded : b.mantissa < 2 ^ 53
  least : -1074 ≤ b.exponent
  greatest : b.exponent ≤ 971
  full : b.exponent = -1074 ∨ 2 ^ 52 ≤ b.mantissa

def sign (b : Binary) : Sign := if b.negative then .negative else .positive

def unpacked (b : Binary) : UnpackedFloat :=
  if h : b.mantissa = 0 then .zero b.sign
  else .finite b.sign b.mantissa b.exponent (Nat.pos_of_ne_zero h)

theorem unpacked_of_ne {b : Binary} (filled : b.mantissa ≠ 0) :
    b.unpacked = .finite b.sign b.mantissa b.exponent (Nat.pos_of_ne_zero filled) := dif_neg filled

theorem unpacked_of_eq {b : Binary} (zero : b.mantissa = 0) : b.unpacked = .zero b.sign := dif_pos zero

theorem sign_of (v : BitVec 1) : Sign.ofBitVec v = if (v == 1#1) then .negative else .positive := by
  rcases BitVec.eq_zero_or_eq_one v with rfl | rfl <;> rfl

theorem toNat_one_append {w : Nat} (v : BitVec w) : (1#1 ++ v).toNat = v.toNat + 2 ^ w := by
  rw [BitVec.toNat_append, ← Nat.shiftLeft_add_eq_or_of_lt v.isLt, Nat.shiftLeft_eq]
  simp [Nat.add_comm]

theorem unpack_normal {v : BitVec Format.binary64.numBits} (proper : (unpackExponent v).toNat ≠ 2047)
    (normal : (unpackExponent v).toNat ≠ 0) : UnpackedFloat.unpack Format.binary64 v =
      .finite (Sign.ofBitVec (unpackSign v)) ((unpackMantissa v).toNat + 2 ^ 52) ((unpackExponent v).toNat - 1075)
        (Nat.add_pos_right _ (Nat.two_pow_pos 52)) := by
  have whole := toNat_one_append (unpackMantissa v)
  have bias : (Format.binary64.exponentBias : Int) = 1023 := rfl
  have places : (Format.binary64.mantissaBitsWithoutImplicit : Int) = 52 := rfl
  rw [UnpackedFloat.unpack.eq_1, if_neg (fun same => proper (by rw [same]; rfl)),
    if_neg (fun same => normal (by rw [same]; rfl))]
  simp only [whole, bias, places]
  rfl

theorem unpack_subnormal {v : BitVec Format.binary64.numBits} (low : (unpackExponent v).toNat = 0) :
    UnpackedFloat.unpack Format.binary64 v =
      if h : (unpackMantissa v).toNat = 0 then .zero (Sign.ofBitVec (unpackSign v))
      else .finite (Sign.ofBitVec (unpackSign v)) (unpackMantissa v).toNat (-1074) (Nat.pos_of_ne_zero h) := by
  have least : unpackExponent v = BitVec.ofNat Format.binary64.exponentBits 0 := BitVec.eq_of_toNat_eq low
  rw [UnpackedFloat.unpack.eq_1, least, if_neg (by decide), if_pos rfl]
  by_cases zero : unpackMantissa v = BitVec.ofNat Format.binary64.mantissaBitsWithoutImplicit 0
  · have nothing : (unpackMantissa v).toNat = 0 := congrArg BitVec.toNat zero
    rw [dif_pos zero, dif_pos nothing]
  · have some : (unpackMantissa v).toNat ≠ 0 := fun same => zero (BitVec.eq_of_toNat_eq same)
    rw [dif_neg zero, dif_neg some]
    rfl

theorem canonical_of {x : Float} {b : Binary} (found : ofFloat? x = some b) :
    b.Canonical ∧ x.toModel.unpack = b.unpacked := by
  unfold ofFloat? ofBits? at found
  simp only [field_eq, fraction_eq, negative_eq] at found
  have itself : x.toModel.unpack = UnpackedFloat.unpack Format.binary64 x.toBits.toBitVec := rfl
  have small : (@unpackMantissa Format.binary64 x.toBits.toBitVec).toNat < 2 ^ 52 := BitVec.isLt _
  have narrow : (@unpackExponent Format.binary64 x.toBits.toBitVec).toNat < 2 ^ 11 := BitVec.isLt _
  split at found
  · cases found
  · rename_i finite
    split at found
    · rename_i low
      cases found
      refine ⟨⟨by simp only; omega, le_rfl, by simp only; decide, Or.inl rfl⟩, ?_⟩
      rw [itself, unpack_subnormal low, sign_of]
      rfl
    · rename_i high
      cases found
      refine ⟨⟨?_, ?_, ?_, Or.inr ?_⟩, ?_⟩
      · simp only [Nat.pow_eq]; omega
      · simp only [leastExponent]; omega
      · simp only [leastExponent]; omega
      · simp only [Nat.pow_eq]; omega
      · rw [itself, unpack_normal finite high, sign_of, unpacked_of_ne (by simp)]
        simp only [leastExponent, sign, Nat.pow_eq]
        congr 1
        omega

theorem unpack_of_none {x : Float} (none : ofFloat? x = none) :
    x.isNaN = true ∨ ∃ s, x.toModel.unpack = .infinity s := by
  unfold ofFloat? ofBits? at none
  simp only [field_eq] at none
  have unpacked : x.toModel.unpack = UnpackedFloat.unpack Format.binary64 x.toBits.toBitVec := rfl
  split at none
  · rename_i top
    have all : @unpackExponent Format.binary64 x.toBits.toBitVec = -(BitVec.ofNat Format.binary64.exponentBits 1) := BitVec.eq_of_toNat_eq top
    rw [UnpackedFloat.unpack.eq_1, if_pos all] at unpacked
    split at unpacked
    · exact Or.inr ⟨_, unpacked⟩
    · exact Or.inl (by unfold Float.isNaN Float.Model.isNaN; rw [unpacked]; rfl)
  · split at none <;> cases none

theorem ofFloat?_eq_none {x : Float} : ofFloat? x = none ↔ x.isNaN = true ∨ x.isInf = true := by
  have inf : x.isInf = x.toModel.unpack.isInf := rfl
  have nan : x.isNaN = x.toModel.unpack.isNaN := rfl
  constructor
  · intro none
    refine (unpack_of_none none).imp_right ?_
    rintro ⟨s, unpacked⟩
    rw [inf, unpacked]
    rfl
  · intro special
    cases found : ofFloat? x with
    | none => rfl
    | some b =>
      obtain ⟨-, unpacked⟩ := canonical_of found
      rw [inf, nan, unpacked] at special
      unfold Binary.unpacked at special
      split at special <;> simp [UnpackedFloat.isInf, UnpackedFloat.isNaN] at special

theorem isNaN_of_isInf {x : Float} (infinite : x.isInf = true) : x.isNaN = false := by
  have inf : x.isInf = x.toModel.unpack.isInf := rfl
  have nan : x.isNaN = x.toModel.unpack.isNaN := rfl
  rw [inf] at infinite
  rw [nan]
  revert infinite
  cases x.toModel.unpack <;> simp [UnpackedFloat.isInf, UnpackedFloat.isNaN]

theorem isNaN_of_isFinite {x : Float} (finite : x.isFinite = true) : x.isNaN = false := by
  have number : x.isFinite = x.toModel.unpack.isFinite := rfl
  have nan : x.isNaN = x.toModel.unpack.isNaN := rfl
  rw [number] at finite
  rw [nan]
  revert finite
  cases x.toModel.unpack <;> simp [UnpackedFloat.isFinite, UnpackedFloat.isNaN]

theorem le_iff_unpack {x y : Float} : x ≤ y ↔ x.toModel.unpack.le y.toModel.unpack = true := by
  change decide (x.toModel ≤ y.toModel) = true ↔ _
  exact decide_eq_true_iff

theorem lt_iff_unpack {x y : Float} : x < y ↔ x.toModel.unpack.lt y.toModel.unpack = true := by
  change decide (x.toModel < y.toModel) = true ↔ _
  exact decide_eq_true_iff

theorem isNaN_or_nonneg {x : Float} (above : ¬x < 0) : x.isNaN = true ∨ 0 ≤ x := by
  have nan : x.isNaN = x.toModel.unpack.isNaN := rfl
  have zero : (0 : Float).toModel.unpack = .zero .positive := by rfl
  rw [lt_iff_unpack, zero] at above
  rw [nan, le_iff_unpack, zero]
  generalize x.toModel.unpack = unpacked at *
  cases unpacked with
  | notANumber => exact Or.inl rfl
  | zero s => exact Or.inr rfl
  | infinity s | finite s =>
    cases s with
    | positive => exact Or.inr rfl
    | negative => exact absurd rfl above

theorem eq_of_unpack {x y : Float} (same : x.toModel.unpack = y.toModel.unpack) : x = y := by
  have packed (z : Float) : UnpackedFloat.pack Format.binary64 z.toModel.unpack = z.toBits.toBitVec :=
    pack_unpack_of_valid z.toModel.valid
  have bits : x.toBits = y.toBits := by
    rw [← UInt64.toBitVec_inj, ← packed, ← packed, same]
  rw [← Float.ofBits_toBits x, bits, Float.ofBits_toBits]

theorem log2_of_full {m : Nat} (low : 2 ^ 52 ≤ m) (high : m < 2 ^ 53) : m.log2 = 52 := by
  have some : m ≠ 0 := by omega
  have least : 52 ≤ m.log2 := (Nat.le_log2 some).mpr low
  have most : m.log2 < 53 := (Nat.log2_lt some).mpr high
  omega

theorem pack_finite {m : ℕ} {e : ℤ} (s : Sign) (pos : 0 < m) (least : -1074 ≤ e) (greatest : e ≤ 971) :
    UnpackedFloat.pack Format.binary64 (.finite s m e pos) =
      if m.log2 + 1 = 53 then packComponents Format.binary64 s (BitVec.ofNat _ (e + 1075).toNat) (BitVec.ofNat _ m)
      else packComponents Format.binary64 s (BitVec.ofNat _ 0) (BitVec.ofNat _ m) := by
  have bias : (Format.binary64.exponentBias : Int) = 1023 := rfl
  have places : (Format.binary64.mantissaBitsWithoutImplicit : Int) = 52 := rfl
  have shifted : (e + Format.binary64.exponentBias + Format.binary64.mantissaBitsWithoutImplicit).toNat =
      (e + 1075).toNat := by
    rw [bias, places]
    omega
  have finite : ¬ 2 ^ Format.binary64.exponentBits ≤ (e + 1075).toNat + 1 := by
    change ¬ 2 ^ 11 ≤ (e + 1075).toNat + 1
    omega
  have bits : Format.binary64.mantissaBits = 53 := rfl
  simp only [UnpackedFloat.pack, shifted, if_neg finite, bits]

theorem unpack_pack_normal {m : ℕ} {e : ℤ} (s : Sign) (pos : 0 < m) (least : -1074 ≤ e) (greatest : e ≤ 971)
    (full : 2 ^ 52 ≤ m) (bounded : m < 2 ^ 53) :
    UnpackedFloat.unpack Format.binary64 (UnpackedFloat.pack Format.binary64 (.finite s m e pos)) =
      .finite s m e pos := by
  have field : (BitVec.ofNat Format.binary64.exponentBits (e + 1075).toNat).toNat = (e + 1075).toNat :=
    Nat.mod_eq_of_lt (show _ < 2 ^ 11 by omega)
  have fraction : (BitVec.ofNat Format.binary64.mantissaBitsWithoutImplicit m).toNat + 2 ^ 52 = m := by
    rw [BitVec.toNat_ofNat]
    change m % 2 ^ 52 + 2 ^ 52 = m
    omega
  rw [pack_finite s pos least greatest, if_pos (by rw [log2_of_full full bounded]), unpack_normal]
  · simp only [unpackSign_packComponents, unpackExponent_packComponents, unpackMantissa_packComponents,
      Sign.ofBitVec_toBitVec, field, fraction]
    congr 1
    omega
  · rw [unpackExponent_packComponents, field]
    omega
  · rw [unpackExponent_packComponents, field]
    omega

theorem unpack_pack_subnormal {m : ℕ} (s : Sign) (pos : 0 < m) (small : m < 2 ^ 52) :
    UnpackedFloat.unpack Format.binary64 (UnpackedFloat.pack Format.binary64 (.finite s m (-1074) pos)) =
      .finite s m (-1074) pos := by
  have short : ¬ m.log2 + 1 = 53 := by
    have := (Nat.log2_lt pos.ne').mpr small
    omega
  have fraction : (BitVec.ofNat Format.binary64.mantissaBitsWithoutImplicit m).toNat = m := Nat.mod_eq_of_lt small
  rw [pack_finite s pos le_rfl (by decide), if_neg short, unpack_subnormal]
  · simp only [unpackSign_packComponents, unpackMantissa_packComponents, Sign.ofBitVec_toBitVec, fraction]
    rw [dif_neg pos.ne']
  · rw [unpackExponent_packComponents]
    rfl

theorem unpack_pack {b : Binary} (c : b.Canonical) : (Float.Model.pack b.unpacked).unpack = b.unpacked := by
  change UnpackedFloat.unpack Format.binary64 (UnpackedFloat.pack Format.binary64 b.unpacked) = _
  by_cases zero : b.mantissa = 0
  · rw [unpacked_of_eq zero]
    cases b.sign <;> rfl
  · rw [unpacked_of_ne zero]
    by_cases full : 2 ^ 52 ≤ b.mantissa
    · exact unpack_pack_normal _ _ c.least c.greatest full c.bounded
    · have bottom : b.exponent = -1074 := c.full.resolve_right full
      simp only [bottom]
      exact unpack_pack_subnormal _ _ (Nat.lt_of_not_le full)

end Walkthrough.Decimal.Binary
