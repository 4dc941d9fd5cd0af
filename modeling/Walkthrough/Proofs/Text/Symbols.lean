import Walkthrough.Text.Units

/-!
What texts of UTF-16 units spell. The symbols of a text have just the units of that text (`ofSymbols_symbols`), so a
text that can be written as a `String` is the text of this `String` (`string?_eq_some_iff`).
-/
namespace Walkthrough.Text

theorem toNat_ofNat {n : Nat} (valid : n.isValidChar) : (Char.ofNat n).toNat = n := by
  rw [Char.ofNat, dif_pos valid]
  rfl

theorem unitsOf_joined {high low : UInt16} (first : isHighSurrogate high = true) (second : isLowSurrogate low = true) :
    unitsOf (joined high low) = [high, low] := by
  simp only [isHighSurrogate, isLowSurrogate, Bool.and_eq_true, decide_eq_true_eq] at first second
  have value : (joined high low).toNat = 0x10000 + (high.toNat - 0xD800) * 0x400 + (low.toNat - 0xDC00) :=
    toNat_ofNat (Or.inr ⟨by omega, by omega⟩)
  have offset : (joined high low).toNat - 0x10000 = (high.toNat - 0xD800) * 0x400 + (low.toNat - 0xDC00) := by omega
  have top : 0xD800 + ((joined high low).toNat - 0x10000) / 0x400 = high.toNat := by omega
  have bottom : 0xDC00 + ((joined high low).toNat - 0x10000) % 0x400 = low.toNat := by omega
  unfold unitsOf
  rw [if_neg (by omega)]
  dsimp only
  rw [top, bottom, UInt16.ofNat_toNat, UInt16.ofNat_toNat]

theorem units_alone (unit : UInt16) : (alone unit).units = [unit] := by
  unfold alone
  split
  · rfl
  · next single =>
    simp only [isHighSurrogate, isLowSurrogate, Bool.or_eq_true, Bool.and_eq_true, decide_eq_true_eq] at single
    have small := unit.toNat_lt
    have value : (Char.ofNat unit.toNat).toNat = unit.toNat := toNat_ofNat (by unfold Nat.isValidChar; omega)
    unfold Symbol.units unitsOf
    dsimp only
    rw [value, if_pos small, UInt16.ofNat_toNat]

theorem units_spell (unit : UInt16) (later : List Symbol) :
    (spell unit later).flatMap Symbol.units = unit :: later.flatMap Symbol.units := by
  unfold spell
  split
  · split
    · next low rest pair =>
      obtain ⟨first, second⟩ := Bool.and_eq_true_iff.mp pair
      have both : (Symbol.char (joined unit low)).units = [unit, low] := unitsOf_joined first second
      rw [List.flatMap_cons, both]
      rfl
    · rw [List.flatMap_cons, units_alone]
      rfl
  · rw [List.flatMap_cons, units_alone]
    rfl

namespace Units

theorem ofSymbols_symbols (u : Units) : ofSymbols u.symbols = u := by
  have same (units : List UInt16) : (units.foldr spell []).flatMap Symbol.units = units := by
    induction units with
    | nil => rfl
    | cons unit later ih => rw [List.foldr_cons, units_spell, ih]
  unfold ofSymbols symbols
  rw [same]

/-- Only the text of a `String` can be written as that `String`. -/
theorem string?_eq_some_iff {u : Units} {s : String} : u.string? = some s ↔ u = .ofString s := by
  constructor
  · intro written
    unfold string? at written
    obtain ⟨chars, each, rfl⟩ := Option.map_eq_some_iff.mp written
    have spelt (symbols : List Symbol) (chars : List Char) (each : symbols.mapM Symbol.char? = some chars) :
        symbols = chars.map Symbol.char := by
      induction symbols generalizing chars with
      | nil =>
        cases each
        rfl
      | cons symbol later ih =>
        rw [List.mapM_cons] at each
        obtain ⟨c, first, each⟩ := Option.bind_eq_some_iff.mp each
        obtain ⟨rest, others, same⟩ := Option.bind_eq_some_iff.mp each
        cases same
        cases symbol with
        | char d =>
          cases first
          rw [List.map_cons, ← ih rest others]
        | surrogate unit => cases first
    rw [← ofSymbols_symbols u, spelt u.symbols chars each]
    unfold ofSymbols ofString
    rw [String.toList_ofList, List.flatMap_map]
    rfl
  · rintro rfl
    exact string?_ofString s

end Units
end Walkthrough.Text
