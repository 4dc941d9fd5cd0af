import Walkthrough.Json.Reader
import Walkthrough.Json.Writer
import Walkthrough.Proofs.Decimal.Shortest

/-!
Numbers are read as they were written. Whole numbers keep their digits, and a double is written as a decimal
that rounds to it, so the nearest double to that decimal is the one that was written (`simple_write`).
-/
namespace Walkthrough.Json

def Digits (s : List Char) : Prop := ∀ c ∈ s, c.isDigit = true

/-- What follows is no further part of a number. -/
def Ends (rest : List Char) : Prop := ∀ c ∈ rest.head?, c.isDigit = false ∧ c ≠ '.' ∧ c ≠ 'e' ∧ c ≠ 'E'

theorem Digits.append {s t : List Char} (first : Digits s) (second : Digits t) : Digits (s ++ t) := by
  intro c member
  rcases List.mem_append.mp member with left | right
  · exact first c left
  · exact second c right

theorem digits_zeros (n : ℕ) : Digits (List.replicate n '0') := by
  intro c member
  rw [List.eq_of_mem_replicate member]
  rfl

theorem digits_toDigits (n : ℕ) : Digits (Nat.toDigits 10 n) := fun _ member =>
  Nat.isDigit_of_mem_toDigits (by decide) (by decide) member

theorem span_digits {s rest : List Char} (digits : Digits s) (stops : ∀ c ∈ rest.head?, c.isDigit = false) :
    (s ++ rest).span Char.isDigit = (s, rest) := by
  have none : rest.takeWhile Char.isDigit = [] ∧ rest.dropWhile Char.isDigit = rest := by
    cases rest with
    | nil => exact ⟨rfl, rfl⟩
    | cons c rest => simp [stops c rfl]
  rw [List.span_eq_takeWhile_dropWhile, List.takeWhile_append_of_pos digits, List.dropWhile_append_of_pos digits,
    none.1, none.2, List.append_nil]

/-- The part of a number before its point: digits that begin with a zero only if that is all. -/
structure Whole (s : List Char) : Prop where
  digits : Digits s
  filled : s ≠ []
  alone : s.head? = some '0' → s = ['0']

theorem whole_toDigits (n : ℕ) : Whole (Nat.toDigits 10 n) where
  digits := digits_toDigits n
  filled := Nat.toDigits_ne_nil
  alone := by
    induction n using Nat.strongRecOn with
    | ind n ih =>
      rcases Nat.lt_or_ge n 10 with one | several
      · rw [Nat.toDigits_of_lt_base one]
        intro zero
        rw [List.head?_cons] at zero
        rw [Option.some.inj zero]
      · -- The leading digit is that of a tenth of the number, and a tenth of it is not zero.
        rw [Nat.toDigits_of_base_le (by decide) several, List.head?_append_of_ne_nil _ Nat.toDigits_ne_nil]
        intro zero
        have rest := congrArg (Nat.ofDigitChars 10 · 0) (ih (n / 10) (by omega) zero)
        simp only [Nat.ofDigitChars_ten_toDigits] at rest
        have none : Nat.ofDigitChars 10 ['0'] 0 = 0 := rfl
        omega

theorem wholePart?_append {whole rest : List Char} (shaped : Whole whole)
    (stops : ∀ c ∈ rest.head?, c.isDigit = false) : wholePart? (whole ++ rest) = some (whole, rest) := by
  obtain ⟨digits, filled, alone⟩ := shaped
  cases whole with
  | nil => exact absurd rfl filled
  | cons c later =>
    by_cases zero : c = '0'
    · rw [zero] at alone ⊢
      rw [alone rfl]
      rfl
    · have digit : c.isDigit = true := digits c (List.mem_cons_self ..)
      unfold wholePart?
      split
      · rename_i same
        exact absurd (List.cons.inj same).1 zero
      · rename_i same
        cases same
        rw [if_pos digit, span_digits digits stops]
      · rename_i none
        cases none

/-- The fraction of a number with its point, or nothing. -/
def pointed (part : List Char) : List Char := if part.isEmpty then [] else '.' :: part

theorem fractionPart_append {part rest : List Char} (digits : Digits part)
    (stops : ∀ c ∈ rest.head?, c.isDigit = false ∧ c ≠ '.') : fractionPart (pointed part ++ rest) = (part, rest) := by
  cases part with
  | nil =>
    unfold fractionPart
    split
    · rename_i same
      exact absurd rfl (stops '.' (by rw [show rest = _ from same]; rfl)).2
    · rfl
  | cons c later =>
    have digit : c.isDigit = true := digits c (List.mem_cons_self ..)
    change (if c.isDigit then (c :: later ++ rest).span Char.isDigit else _) = _
    rw [if_pos digit, span_digits digits fun c first => (stops c first).1]

/-- Spellings of an exponent; there may be none. -/
inductive Raised : List Char → Option ℤ → Prop where
  | none : Raised [] none
  | up {digits : List Char} (shaped : Digits digits) (filled : digits ≠ []) :
      Raised ('e' :: '+' :: digits) (some (natOf digits))
  | down {digits : List Char} (shaped : Digits digits) (filled : digits ≠ []) :
      Raised ('e' :: '-' :: digits) (some (-(natOf digits : ℤ)))

theorem exponentPart_append {raise rest : List Char} {exponent : Option ℤ} (raised : Raised raise exponent)
    (ends : Ends rest) : exponentPart (raise ++ rest) = (exponent, rest) := by
  cases raised with
  | none =>
    cases rest with
    | nil => rfl
    | cons c rest =>
      obtain ⟨-, -, small, large⟩ := ends c rfl
      simp [exponentPart, small, large]
  | @up digits shaped filled | @down digits shaped filled =>
    have some : digits.isEmpty = false := by simpa using filled
    have taken := span_digits shaped fun c first => (ends c first).1
    simp only [exponentPart, List.cons_append, Decimal.Numeral.sign, taken, some]
    rfl

theorem number_whole {whole rest : List Char} (shaped : Whole whole) (short : whole.length ≤ Decimal.Numeral.maxDigits)
    (ends : Ends rest) (negative : Bool) : number negative (whole ++ rest) =
      .ok (integer (if negative then -(natOf whole : ℤ) else natOf whole), rest) := by
  have fraction := fractionPart_append (show Digits [] from nofun) fun c first => ⟨(ends c first).1, (ends c first).2.1⟩
  have exponent := exponentPart_append .none ends
  rw [show pointed [] ++ rest = rest from rfl] at fraction
  rw [List.nil_append] at exponent
  simp [number, wholePart?_append shaped fun c first => (ends c first).1, fraction, exponent, short]

/-- Spellings of a decimal with a fraction or an exponent. -/
inductive Spells : List Char → ℚ → Prop where
  | mk {whole part raise : List Char} {exponent : Option ℤ} (shaped : Whole whole) (digits : Digits part)
      (raised : Raised raise exponent) (more : part = [] → exponent ≠ none) :
      Spells (whole ++ (pointed part ++ raise))
        (natOf (whole ++ part) * 10 ^ (exponent.getD 0 - part.length : ℤ))

theorem Raised.stops {raise rest : List Char} {exponent : Option ℤ} (raised : Raised raise exponent)
    (ends : Ends rest) : ∀ c ∈ (raise ++ rest).head?, c.isDigit = false ∧ c ≠ '.' := by
  cases raised with
  | none => exact fun c first => ⟨(ends c first).1, (ends c first).2.1⟩
  | up | down =>
    intro c first
    cases first
    decide

theorem stops_pointed (part : List Char) {rest : List Char} (stops : ∀ c ∈ rest.head?, c.isDigit = false) :
    ∀ c ∈ (pointed part ++ rest).head?, c.isDigit = false := by
  cases part with
  | nil => exact stops
  | cons _ _ =>
    intro c first
    cases first
    rfl

/-- The nearest double to a decimal is read from its spelling. -/
theorem number_spelled {text rest : List Char} {q : ℚ} (spells : Spells text q) (ends : Ends rest) (negative : Bool) :
    ∃ (m : ℕ) (e : ℤ), q = m * 10 ^ e ∧
      number negative (text ++ rest) = .ok (real (Decimal.nearest negative m e), rest) := by
  obtain @⟨whole, part, raise, exponent, shaped, digits, raised, more⟩ := spells
  have stops := raised.stops ends
  have first := wholePart?_append shaped (stops_pointed part fun c first => (stops c first).1)
  have second := fractionPart_append digits stops
  have third := exponentPart_append raised ends
  have fractional : (part.isEmpty && exponent.isNone) = false := by
    cases part with
    | nil => simpa [Option.isSome_iff_ne_none] using more rfl
    | cons _ _ => rfl
  refine ⟨_, _, rfl, ?_⟩
  simp only [List.append_assoc, number, first, second, third, fractional, Bool.false_eq_true, if_false]

theorem natOf_append (s t : List Char) : natOf (s ++ t) = 10 ^ t.length * natOf s + natOf t := by
  change Nat.ofDigitChars 10 (s ++ t) 0 = _
  rw [Nat.ofDigitChars_append, Nat.ofDigitChars_eq_ofDigitChars_zero]
  rfl

theorem natOf_toDigits (n : ℕ) : natOf (Nat.toDigits 10 n) = n := Nat.ofDigitChars_ten_toDigits

theorem natOf_zeros (n : ℕ) : natOf (List.replicate n '0') = 0 := by
  change Nat.ofDigitChars 10 _ 0 = 0
  rw [Nat.ofDigitChars_replicate_zero, Nat.mul_zero]

theorem head_toDigits {n : ℕ} (filled : n ≠ 0) : (Nat.toDigits 10 n).head? ≠ some '0' := by
  intro zero
  have none := congrArg natOf ((whole_toDigits n).alone zero)
  rw [natOf_toDigits] at none
  exact filled none

/-- Digits that do not begin with a zero are a whole part, and so are those before the point. -/
theorem whole_of_head {s : List Char} (digits : Digits s) (filled : s ≠ []) (head : s.head? ≠ some '0') : Whole s :=
  ⟨digits, filled, fun zero => absurd zero head⟩

/-- Spellings with a point and no exponent. -/
theorem spells_of_point {whole part : List Char} (shaped : Whole whole) (digits : Digits part) (filled : part ≠ []) :
    Spells (whole ++ '.' :: part) (natOf (whole ++ part) * 10 ^ (-part.length : ℤ)) := by
  have text : whole ++ '.' :: part = whole ++ (pointed part ++ []) := by simp [pointed, filled]
  have value : (natOf (whole ++ part) * 10 ^ (-part.length : ℤ) : ℚ) =
      natOf (whole ++ part) * 10 ^ ((none : Option ℤ).getD 0 - part.length : ℤ) := by
    rw [Option.getD_none, zero_sub]
  rw [text, value]
  exact .mk shaped digits .none fun none => absurd none filled

open Decimal.Layout

section Positional

variable {s : List Char} (digits : Digits s) (filled : s ≠ [])

include digits filled

theorem spells_zeros_after (head : s.head? ≠ some '0') {e : ℤ} (up : 0 ≤ e) :
    Spells (String.ofList (s ++ List.replicate e.toNat '0') ++ ".0").toList (natOf s * 10 ^ e) := by
  have shaped : Whole (s ++ List.replicate e.toNat '0') := by
    refine whole_of_head (digits.append (digits_zeros _)) (by simp [filled]) ?_
    rwa [List.head?_append_of_ne_nil _ filled]
  have value : (natOf s * 10 ^ e : ℚ) =
      natOf (s ++ List.replicate e.toNat '0' ++ ['0']) * 10 ^ (-['0'].length : ℤ) := by
    have power : (10 : ℚ) ^ e = 10 ^ e.toNat := by rw [← zpow_natCast, Int.toNat_of_nonneg up]
    rw [natOf_append, natOf_append, natOf_zeros, power, show natOf ['0'] = 0 from rfl, List.length_replicate,
      List.length_singleton]
    push_cast
    ring
  rw [String.toList_append, String.toList_ofList, value]
  exact spells_of_point shaped (digits_zeros 1) (by simp)

theorem spells_zeros_before {zeros : ℕ} {e : ℤ} (low : zeros + s.length = -e) :
    Spells ("0." ++ String.ofList (List.replicate zeros '0' ++ s)).toList (natOf s * 10 ^ e) := by
  have value : (natOf s * 10 ^ e : ℚ) = natOf (['0'] ++ (List.replicate zeros '0' ++ s)) *
      10 ^ (-(List.replicate zeros '0' ++ s).length : ℤ) := by
    rw [natOf_append, natOf_append, natOf_zeros, show natOf ['0'] = 0 from rfl, Nat.mul_zero, Nat.mul_zero,
      Nat.zero_add, Nat.zero_add, List.length_append, List.length_replicate]
    congr 2
    omega
  have text : ("0." ++ String.ofList (List.replicate zeros '0' ++ s)).toList =
      ['0'] ++ '.' :: (List.replicate zeros '0' ++ s) := by
    simp
  rw [text, value]
  exact spells_of_point ⟨digits_zeros 1, by simp, fun _ => rfl⟩ ((digits_zeros _).append digits) (by simp [filled])

theorem spells_point_within (head : s.head? ≠ some '0') {before : ℕ} {e : ℤ} (some : before ≠ 0)
    (high : before = s.length + e) (down : e < 0) :
    Spells (String.ofList (s.take before) ++ "." ++ String.ofList (s.drop before)).toList (natOf s * 10 ^ e) := by
  have shaped : Whole (s.take before) := by
    refine whole_of_head (fun c member => digits c (List.mem_of_mem_take member)) (by simp [filled, some]) ?_
    rwa [List.head?_take, if_neg some]
  have more : s.drop before ≠ [] := by
    rw [Ne, List.drop_eq_nil_iff]
    omega
  have value : (natOf s * 10 ^ e : ℚ) =
      natOf (s.take before ++ s.drop before) * 10 ^ (-(s.drop before).length : ℤ) := by
    rw [List.take_append_drop, List.length_drop]
    congr 2
    omega
  have text : (String.ofList (s.take before) ++ "." ++ String.ofList (s.drop before)).toList =
      s.take before ++ '.' :: s.drop before := by
    simp
  rw [text, value]
  exact spells_of_point shaped (fun c member => digits c (List.mem_of_mem_drop member)) more

end Positional

theorem positional_spells {n : ℕ} (filled : n ≠ 0) (e : ℤ) :
    Spells (positional (Nat.toDigits 10 n) e).toList (n * 10 ^ e) := by
  have digits := digits_toDigits n
  have some : Nat.toDigits 10 n ≠ [] := Nat.toDigits_ne_nil
  have head := head_toDigits filled
  rw [← congrArg (Nat.cast (R := ℚ)) (natOf_toDigits n)]
  generalize Nat.toDigits 10 n = s at *
  unfold positional
  simp only
  split
  · rename_i up
    exact spells_zeros_after digits some head up
  · split
    · rename_i low
      exact spells_zeros_before digits some (by omega)
    · exact spells_point_within digits some head (by omega) (by omega) (by omega)

theorem padded_digits (width n : ℕ) : Digits (padded width n).toList ∧ (padded width n).toList ≠ [] ∧
    natOf (padded width n).toList = n := by
  have text : (padded width n).toList =
      List.replicate (width - (toString n).length) '0' ++ Nat.toDigits 10 n := by
    simp [padded]
  rw [text, natOf_append, natOf_zeros, natOf_toDigits]
  exact ⟨(digits_zeros _).append (digits_toDigits n), by simp, by simp⟩

theorem scientific_spells (l : Decimal.Layout) {n : ℕ} (filled : n ≠ 0) (e : ℤ) :
    Spells (l.scientific (Nat.toDigits 10 n) ((Nat.toDigits 10 n).length + e - 1)).toList (n * 10 ^ e) := by
  have digits := digits_toDigits n
  have there : Nat.toDigits 10 n ≠ [] := Nat.toDigits_ne_nil
  have head := head_toDigits filled
  have total := natOf_toDigits n
  generalize Nat.toDigits 10 n = s at *
  have many : 0 < s.length := List.length_pos_of_ne_nil there
  have first : Whole (s.take 1) := by
    refine whole_of_head (fun c member => digits c (List.mem_of_mem_take member)) (by simp [there]) ?_
    rw [List.head?_take, if_neg Nat.one_ne_zero]
    exact head
  have rest : Digits (s.drop 1) := fun c member => digits c (List.mem_of_mem_drop member)
  have value (exponent : Option ℤ) (same : exponent.getD 0 = s.length + e - 1) :
      (n * 10 ^ e : ℚ) = natOf (s.take 1 ++ s.drop 1) * 10 ^ (exponent.getD 0 - (s.drop 1).length : ℤ) := by
    rw [List.take_append_drop, total, same, List.length_drop]
    congr 2
    omega
  have fraction : (if (s.drop 1).isEmpty then "" else "." ++ String.ofList (s.drop 1)).toList = pointed (s.drop 1) := by
    unfold pointed
    split
    · rfl
    · simp
  obtain ⟨shaped, more, magnitude⟩ := padded_digits l.exponentWidth (s.length + e - 1).natAbs
  unfold scientific
  simp only [String.toList_append, String.toList_ofList, fraction, List.append_assoc]
  split
  · rename_i low
    rw [value (some (-(natOf (padded l.exponentWidth (s.length + e - 1).natAbs).toList : ℤ)))]
    · exact .mk first rest (.down shaped more) nofun
    · rw [magnitude, Option.getD_some]
      omega
  · rename_i high
    rw [value (some (natOf (padded l.exponentWidth (s.length + e - 1).natAbs).toList))]
    · exact .mk first rest (.up shaped more) nofun
    · rw [magnitude, Option.getD_some]
      omega

theorem afterWord?_of_head {word : String} {first c : Char} {later s : List Char} (spelled : word.toList = first :: later)
    (other : first ≠ c) : afterWord? word (c :: s) = none := by
  unfold afterWord?
  rw [spelled]
  simp [List.isPrefixOf, other]

theorem ne_of_isDigit {c d : Char} (digit : c.isDigit = true) (other : d.isDigit = false) : d ≠ c := by
  rintro rfl
  rw [digit] at other
  cases other

def signed (negative : Bool) (s : List Char) : List Char := if negative then '-' :: s else s

theorem signed_append (negative : Bool) (s rest : List Char) : signed negative s ++ rest = signed negative (s ++ rest) := by
  unfold signed
  split <;> rfl

theorem simple_signed {c : Char} {s : List Char} (digit : c.isDigit = true) (negative : Bool) :
    simple (signed negative (c :: s)) = number negative (c :: s) := by
  cases negative with
  | true =>
    change simple ('-' :: c :: s) = _
    simp only [simple, @afterWord?_of_head "Infinity" _ _ _ _ rfl (ne_of_isDigit digit rfl)]
  | false =>
    change simple (c :: s) = _
    unfold simple
    split
    · rename_i same
      exact absurd (List.cons.inj same).1.symm (ne_of_isDigit digit rfl)
    · rename_i same
      exact absurd (List.cons.inj same).1.symm (ne_of_isDigit digit rfl)
    · simp only [@afterWord?_of_head "null" _ _ _ _ rfl (ne_of_isDigit digit rfl),
        @afterWord?_of_head "true" _ _ _ _ rfl (ne_of_isDigit digit rfl),
        @afterWord?_of_head "false" _ _ _ _ rfl (ne_of_isDigit digit rfl),
        @afterWord?_of_head "NaN" _ _ _ _ rfl (ne_of_isDigit digit rfl),
        @afterWord?_of_head "Infinity" _ _ _ _ rfl (ne_of_isDigit digit rfl)]

theorem Whole.cons {whole : List Char} (shaped : Whole whole) : ∃ c later, whole = c :: later ∧ c.isDigit = true := by
  cases whole with
  | nil => exact absurd rfl shaped.filled
  | cons c later => exact ⟨c, later, rfl, shaped.digits c (List.mem_cons_self ..)⟩

theorem Spells.cons {text : List Char} {q : ℚ} (spells : Spells text q) :
    ∃ c later, text = c :: later ∧ c.isDigit = true := by
  obtain @⟨whole, part, raise, exponent, shaped, digits, raised, more⟩ := spells
  obtain ⟨c, later, rfl, digit⟩ := shaped.cons
  exact ⟨c, _, rfl, digit⟩

theorem simple_integer {n : ℤ} (short : (Nat.toDigits 10 n.natAbs).length ≤ Decimal.Numeral.maxDigits)
    {rest : List Char} (ends : Ends rest) : simple ((toString n).toList ++ rest) = .ok (integer n, rest) := by
  have shaped := whole_toDigits n.natAbs
  have read := number_whole shaped short ends (n < 0)
  obtain ⟨c, later, cons, digit⟩ := shaped.cons
  have text : (toString n).toList = signed (n < 0) (Nat.toDigits 10 n.natAbs) := by
    rw [Int.toString_eq_repr, Int.repr_eq_if]
    by_cases low : n < 0
    · have size : (-n).toNat = n.natAbs := by omega
      rw [if_neg (Int.not_le.mpr low), decide_eq_true low, String.toList_append, Nat.toList_repr, size]
      rfl
    · have size : n.toNat = n.natAbs := by omega
      rw [if_pos (Int.not_lt.mp low), decide_eq_false low, Nat.toList_repr, size]
      rfl
  have value : (if (decide (n < 0)) then -(n.natAbs : ℤ) else n.natAbs) = n := by
    by_cases low : n < 0
    · rw [if_pos (decide_eq_true low)]
      omega
    · rw [if_neg (by simpa using low)]
      omega
  rw [natOf_toDigits, value, cons] at read
  rw [text, signed_append, cons, List.cons_append, simple_signed digit]
  exact read

theorem write_spells {x : Float} {b : Decimal.Binary} (found : Decimal.Binary.ofFloat? x = some b) :
    ∃ text q, (realLayout.write x).toList = signed b.negative text ∧ Spells text q ∧
      if b.mantissa = 0 then q = 0 else Decimal.RoundsTo q b := by
  have sign (s : String) : ((if b.negative then "-" else "") ++ s).toList = signed b.negative s.toList := by
    unfold signed
    split
    · rw [String.toList_append]
      rfl
    · rw [String.toList_append]
      rfl
  unfold Decimal.Layout.write
  simp only [found]
  split
  · refine ⟨"0.0".toList, 0, sign "0.0", ?_, rfl⟩
    have zero : (0 : ℚ) = natOf (['0'] ++ ['0']) * 10 ^ ((none : Option ℤ).getD 0 - ['0'].length : ℤ) := by
      simp [show natOf ['0', '0'] = 0 from rfl]
    rw [zero]
    exact .mk ⟨digits_zeros 1, nofun, fun _ => rfl⟩ (digits_zeros 1) .none nofun
  · rename_i filled
    obtain ⟨canonical, -⟩ := Decimal.Binary.canonical_of found
    obtain ⟨some, rounds⟩ := Decimal.shortest_rounds canonical filled
    refine ⟨_, _, sign _, ?_, rounds⟩
    split
    · exact positional_spells some _
    · exact scientific_spells _ some _

theorem simple_write (x : Float) {rest : List Char} (ends : Ends rest) :
    simple ((realLayout.write x).toList ++ rest) = .ok (real x, rest) := by
  cases found : Decimal.Binary.ofFloat? x with
  | none =>
    unfold Decimal.Layout.write
    simp only [found]
    split
    · rename_i nan
      have read : simple ("NaN".toList ++ rest) = .ok (real (0 / 0), rest) := rfl
      rw [Decimal.nan_eq nan] at read
      exact read
    · rename_i number
      have infinite := (Decimal.Binary.ofFloat?_eq_none.mp found).resolve_left number
      have same := Decimal.infinity_eq infinite
      split
      · rename_i low
        have read : simple ("-Infinity".toList ++ rest) = .ok (real (-(1 / 0)), rest) := rfl
        rw [if_pos low] at same
        rw [same] at read
        exact read
      · rename_i high
        have read : simple ("Infinity".toList ++ rest) = .ok (real (1 / 0), rest) := rfl
        rw [if_neg high] at same
        rw [same] at read
        exact read
  | some b =>
    obtain ⟨text, q, written, spells, rounds⟩ := write_spells found
    obtain ⟨m, e, value, read⟩ := number_spelled spells ends b.negative
    obtain ⟨c, later, cons, digit⟩ := spells.cons
    have same : Decimal.nearest b.negative m e = x := by
      split at rounds
      · rename_i zero
        have none : m = 0 := by
          rw [value, mul_eq_zero, Nat.cast_eq_zero] at rounds
          exact rounds.resolve_right (zpow_pos (by norm_num) e).ne'
        rw [none]
        exact Decimal.nearest_zero found zero e
      · rename_i filled
        rw [value] at rounds
        exact Decimal.nearest_eq found filled rounds
    rw [cons, same] at read
    rw [written, signed_append, cons, List.cons_append, simple_signed digit]
    exact read

end Walkthrough.Json
