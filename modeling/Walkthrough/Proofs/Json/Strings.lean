import Mathlib.Data.Nat.Digits.Defs
import Walkthrough.Json.Reader
import Walkthrough.Json.Writer

/-!
Strings are read as they were written: every unit stands for itself, has a letter behind a backslash, or is
spelled by its four hexadecimal digits (`stringAfter_spelled`).
-/
namespace Walkthrough.Json

open Text (Units unitsOf)

theorem hexValue?_digitChar : ∀ n : Fin 16, hexValue? (Nat.digitChar n) = some n.val := by
  decide

theorem toList_hex (width n : Nat) : (Text.hex width n).toList =
    List.replicate (width - (Nat.toDigits 16 n).length) '0' ++ Nat.toDigits 16 n := by
  simp [Text.hex]

/-- A wider spelling has one more digit at its end. -/
theorem hex_succ {width : Nat} (wide : 0 < width) (n : Nat) :
    (Text.hex (width + 1) n).toList = (Text.hex width (n / 16)).toList ++ [Nat.digitChar (n % 16)] := by
  rw [toList_hex, toList_hex]
  rcases Nat.lt_or_ge n 16 with one | several
  · have zeros : List.replicate (width - 1) '0' ++ ['0'] = List.replicate width '0' := by
      rw [← List.replicate_succ']
      congr 1
      omega
    rw [Nat.div_eq_of_lt one, Nat.mod_eq_of_lt one, Nat.toDigits_of_lt_base one, Nat.toDigits_zero]
    rw [List.length_singleton, List.length_singleton, Nat.add_sub_cancel, zeros]
  · rw [Nat.toDigits_of_base_le (by decide) several, List.length_append, List.length_singleton, Nat.add_sub_add_right,
      List.append_assoc]

theorem hex_four {n : Nat} (small : n < 65536) : (Text.hex 4 n).toList =
    [Nat.digitChar (n / 4096), Nat.digitChar (n / 256 % 16), Nat.digitChar (n / 16 % 16), Nat.digitChar (n % 16)] := by
  have top : n / 16 / 16 / 16 = n / 4096 := by omega
  have second : n / 16 / 16 = n / 256 := by omega
  rw [hex_succ (by decide), hex_succ (by decide), hex_succ (by decide), toList_hex, top, second,
    Nat.toDigits_of_lt_base (by omega)]
  rfl

theorem stringAfter_hex (unit : UInt16) (rest : List Char) (read : List UInt16) :
    stringAfter read (("\\u" ++ Text.hex 4 unit.toNat).toList ++ rest) = stringAfter (unit :: read) rest := by
  have small : unit.toNat < 65536 := unit.toNat_lt
  have value (n : Nat) (less : n < 16) : hexValue? (Nat.digitChar n) = some n := hexValue?_digitChar ⟨n, less⟩
  have whole : ((unit.toNat / 4096 * 16 + unit.toNat / 256 % 16) * 16 + unit.toNat / 16 % 16) * 16 + unit.toNat % 16 =
      unit.toNat := by omega
  have known : unit? (Nat.digitChar (unit.toNat / 4096)) (Nat.digitChar (unit.toNat / 256 % 16))
      (Nat.digitChar (unit.toNat / 16 % 16)) (Nat.digitChar (unit.toNat % 16)) = some unit := by
    unfold unit?
    rw [value _ (by omega), value _ (by omega), value _ (by omega), value _ (by omega)]
    change some (UInt16.ofNat (((unit.toNat / 4096 * 16 + unit.toNat / 256 % 16) * 16 + unit.toNat / 16 % 16) * 16 +
      unit.toNat % 16)) = some unit
    rw [whole, UInt16.ofNat_toNat]
  rw [String.toList_append, hex_four small]
  change stringAfter _ ('\\' :: 'u' :: _ :: _ :: _ :: _ :: rest) = _
  rw [stringAfter, known]

theorem toNat_ofNat {n : Nat} (valid : n.isValidChar) : (Char.ofNat n).toNat = n := by
  unfold Char.ofNat
  rw [dif_pos valid]
  rfl

theorem ofNat_eq {unit : UInt16} {c : Char} (same : Char.ofNat unit.toNat = c) (some : c ≠ '\x00') :
    unit = .ofNat c.toNat := by
  have valid : unit.toNat.isValidChar := by
    by_contra invalid
    unfold Char.ofNat at same
    rw [dif_neg invalid] at same
    exact some same.symm
  rw [← same, toNat_ofNat valid, UInt16.ofNat_toNat]

theorem stringAfter_plain {c : Char} (quote : c ≠ '"') (backslash : c ≠ '\\') (low : 0x20 ≤ c.toNat)
    (high : c.toNat < 0x10000) (rest : List Char) (read : List UInt16) :
    stringAfter read (c :: rest) = stringAfter (.ofNat c.toNat :: read) rest := by
  rw [stringAfter.eq_5 read c rest (fun same => quote same) (fun _ _ _ _ _ same _ => backslash same)
    (fun _ _ same _ => backslash same)]
  rw [if_neg (Nat.not_lt.mpr low), unitsOf, if_pos high]
  rfl

theorem stringAfter_escaped (unit : UInt16) (rest : List Char) (read : List UInt16) :
    stringAfter read ((escaped unit).toList ++ rest) = stringAfter (unit :: read) rest := by
  -- All spellings but the hexadecimal one depend on the character of the unit only.
  have letter {c : Char} {text : String} (same : Char.ofNat unit.toNat = c) (some : c ≠ '\x00')
      (spelled : stringAfter read (text.toList ++ rest) = stringAfter (.ofNat c.toNat :: read) rest) :
      stringAfter read (text.toList ++ rest) = stringAfter (unit :: read) rest := by
    rw [ofNat_eq same some, spelled]
  unfold escaped
  simp only
  split
  · exact letter ‹_› (by decide) rfl
  rename_i quote
  split
  · exact letter ‹_› (by decide) rfl
  rename_i backslash
  split
  · exact letter ‹_› (by decide) rfl
  split
  · exact letter ‹_› (by decide) rfl
  split
  · exact letter ‹_› (by decide) rfl
  split
  · exact letter ‹_› (by decide) rfl
  split
  · exact letter ‹_› (by decide) rfl
  split
  · rename_i printable
    simp only [Bool.and_eq_true, decide_eq_true_eq] at printable
    have itself := toNat_ofNat (n := unit.toNat) (Or.inl (by omega))
    have plain := stringAfter_plain quote backslash (by omega) (by omega) rest read
    refine letter rfl (fun zero => ?_) (by rw [String.toList_singleton]; exact plain)
    rw [zero] at itself
    change 0 = unit.toNat at itself
    omega
  · exact stringAfter_hex unit rest read

/-- What is written of a string after its opening quote. -/
def spelled (units : Units) : List Char := units.toList.flatMap (fun unit => (escaped unit).toList) ++ ['"']

theorem toList_putString (out : String) (units : Units) :
    (putString out units).toList = out.toList ++ '"' :: spelled units := by
  have each (units : List UInt16) (out : String) :
      (units.foldl (fun out unit => out ++ escaped unit) out).toList =
        out.toList ++ units.flatMap fun unit => (escaped unit).toList := by
    induction units generalizing out with
    | nil => simp
    | cons unit units ih =>
      rw [List.foldl_cons, ih, String.toList_append, List.append_assoc, List.flatMap_cons]
  unfold putString spelled
  rw [String.toList_push, each, String.toList_push]
  simp

theorem stringAfter_units (units : List UInt16) (rest : List Char) (read : List UInt16) :
    stringAfter read (units.flatMap (fun unit => (escaped unit).toList) ++ '"' :: rest) =
      .ok (⟨read.reverse ++ units⟩, rest) := by
  induction units generalizing read with
  | nil =>
    rw [List.append_nil]
    rfl
  | cons unit units ih =>
    rw [List.flatMap_cons, List.append_assoc, stringAfter_escaped, ih, List.reverse_cons, List.append_assoc]
    rfl

theorem stringAfter_spelled (units : Units) (rest : List Char) :
    stringAfter [] (spelled units ++ rest) = .ok (units, rest) := by
  unfold spelled
  rw [List.append_assoc]
  exact stringAfter_units units.toList rest []

end Walkthrough.Json
