/-!
Texts of UTF-16 units. A character beyond U+FFFF takes two of them, a high and a low surrogate. Such a
text can also hold a surrogate that stands alone, which no `String` can. Main statement: the units of a
`String` spell that `String` and no other.
-/
namespace Walkthrough.Text

structure Units where
  toList : List UInt16
  deriving DecidableEq, Inhabited, Repr

inductive Symbol where
  | char (c : Char)
  /-- A surrogate that stands alone. -/
  | surrogate (unit : UInt16)
  deriving DecidableEq, Repr

def Symbol.char? : Symbol → Option Char
  | char c => some c
  | surrogate _ => none

/-- The code point, by which texts are ordered. -/
def Symbol.codePoint : Symbol → Nat
  | char c => c.toNat
  | surrogate unit => unit.toNat

def isHighSurrogate (unit : UInt16) : Bool := 0xD800 ≤ unit.toNat && unit.toNat < 0xDC00

def isLowSurrogate (unit : UInt16) : Bool := 0xDC00 ≤ unit.toNat && unit.toNat < 0xE000

def unitsOf (c : Char) : List UInt16 :=
  if c.toNat < 0x10000 then [.ofNat c.toNat]
  else
    let offset := c.toNat - 0x10000
    [.ofNat (0xD800 + offset / 0x400), .ofNat (0xDC00 + offset % 0x400)]

def Symbol.units : Symbol → List UInt16
  | char c => unitsOf c
  | surrogate unit => [unit]

def alone (unit : UInt16) : Symbol :=
  if isHighSurrogate unit || isLowSurrogate unit then .surrogate unit else .char (.ofNat unit.toNat)

def joined (high low : UInt16) : Char :=
  .ofNat (0x10000 + (high.toNat - 0xD800) * 0x400 + (low.toNat - 0xDC00))

/-- Puts a unit in front of what later units spell. -/
def spell (unit : UInt16) : List Symbol → List Symbol
  | .surrogate low :: later =>
    if isHighSurrogate unit && isLowSurrogate low then .char (joined unit low) :: later
    else alone unit :: .surrogate low :: later
  | later => alone unit :: later

namespace Units

def ofString (s : String) : Units := ⟨s.toList.flatMap unitsOf⟩

def isEmpty (u : Units) : Bool := u.toList.isEmpty

def symbols (u : Units) : List Symbol := u.toList.foldr spell []

def string? (u : Units) : Option String := (u.symbols.mapM Symbol.char?).map String.ofList

/-- The text as a `String`, with U+FFFD for every surrogate that stands alone. -/
def display (u : Units) : String := String.ofList (u.symbols.map fun s => s.char?.getD '\uFFFD')

def ofSymbols (symbols : List Symbol) : Units := ⟨symbols.flatMap Symbol.units⟩

instance : Coe String Units := ⟨ofString⟩

instance : Append Units := ⟨fun u v => ⟨u.toList ++ v.toList⟩⟩

end Units

theorem alone_unit {c : Char} (h : c.toNat < 0x10000) : alone (.ofNat c.toNat) = .char c := by
  have same : (UInt16.ofNat c.toNat).toNat = c.toNat := by
    rw [UInt16.toNat_ofNat']
    exact Nat.mod_eq_of_lt h
  have valid := c.valid
  have notSurrogate : ¬(0xD800 ≤ c.toNat ∧ c.toNat < 0xE000) := by
    intro ⟨low, high⟩
    cases valid with
    | inl below => exact absurd below (Nat.not_lt.mpr low)
    | inr above => exact absurd above.1 (Nat.not_lt.mpr (Nat.le_of_lt_succ high))
  unfold alone
  rw [if_neg, same, Char.ofNat_toNat]
  simp only [isHighSurrogate, isLowSurrogate, same, Bool.or_eq_true, Bool.and_eq_true,
    decide_eq_true_eq]
  omega

theorem foldr_unitsOf (c : Char) (later : List Symbol) :
    (unitsOf c).foldr spell later = .char c :: later := by
  have bound : c.toNat < 0x110000 := by
    cases c.valid with
    | inl below => exact Nat.lt_trans below (by decide)
    | inr above => exact above.2
  unfold unitsOf
  split
  · next small =>
    have itself := alone_unit small
    have high : isHighSurrogate (.ofNat c.toNat) = false := by
      cases h : isHighSurrogate (.ofNat c.toNat) with
      | false => rfl
      | true =>
        unfold alone at itself
        rw [h, Bool.true_or] at itself
        cases itself
    simp only [List.foldr_cons, List.foldr_nil]
    unfold spell
    split
    · rw [high, Bool.false_and, itself]
      rfl
    · rw [itself]
  · next large =>
    have top : (UInt16.ofNat (0xD800 + (c.toNat - 0x10000) / 0x400)).toNat =
        0xD800 + (c.toNat - 0x10000) / 0x400 := by
      rw [UInt16.toNat_ofNat']
      exact Nat.mod_eq_of_lt (by omega)
    have bottom : (UInt16.ofNat (0xDC00 + (c.toNat - 0x10000) % 0x400)).toNat =
        0xDC00 + (c.toNat - 0x10000) % 0x400 := by
      rw [UInt16.toNat_ofNat']
      exact Nat.mod_eq_of_lt (by omega)
    have isTop : isHighSurrogate (.ofNat (0xD800 + (c.toNat - 0x10000) / 0x400)) = true := by
      simp only [isHighSurrogate, top, Bool.and_eq_true, decide_eq_true_eq]
      omega
    have isBottom : isLowSurrogate (.ofNat (0xDC00 + (c.toNat - 0x10000) % 0x400)) = true := by
      simp only [isLowSurrogate, bottom, Bool.and_eq_true, decide_eq_true_eq]
      omega
    have notTop : isHighSurrogate (.ofNat (0xDC00 + (c.toNat - 0x10000) % 0x400)) = false := by
      simp only [isHighSurrogate, bottom, Bool.and_eq_false_iff, decide_eq_false_iff_not]
      omega
    have itself : alone (.ofNat (0xDC00 + (c.toNat - 0x10000) % 0x400)) =
        .surrogate (.ofNat (0xDC00 + (c.toNat - 0x10000) % 0x400)) := by
      unfold alone
      rw [isBottom, Bool.or_true]
      rfl
    have second : spell (.ofNat (0xDC00 + (c.toNat - 0x10000) % 0x400)) later =
        .surrogate (.ofNat (0xDC00 + (c.toNat - 0x10000) % 0x400)) :: later := by
      unfold spell
      split
      · rw [notTop, Bool.false_and, itself]
        rfl
      · rw [itself]
    have whole : joined (.ofNat (0xD800 + (c.toNat - 0x10000) / 0x400))
        (.ofNat (0xDC00 + (c.toNat - 0x10000) % 0x400)) = c := by
      unfold joined
      rw [top, bottom]
      have sum : 0x10000 + (0xD800 + (c.toNat - 0x10000) / 0x400 - 0xD800) * 0x400 +
          (0xDC00 + (c.toNat - 0x10000) % 0x400 - 0xDC00) = c.toNat := by omega
      rw [sum, Char.ofNat_toNat]
    simp only [List.foldr_cons, List.foldr_nil]
    rw [second]
    unfold spell
    simp only [isTop, isBottom, whole, Bool.and_self, if_true]

namespace Units

theorem symbols_ofString (s : String) : (ofString s).symbols = s.toList.map .char := by
  unfold symbols ofString
  simp only
  induction s.toList with
  | nil => rfl
  | cons c rest ih => rw [List.flatMap_cons, List.foldr_append, ih, foldr_unitsOf, List.map_cons]

@[simp] theorem string?_ofString (s : String) : (ofString s).string? = some s := by
  have chars (l : List Char) : (l.map Symbol.char).mapM Symbol.char? = some l := by
    induction l with
    | nil => rfl
    | cons c rest ih => rw [List.map_cons, List.mapM_cons, ih]; rfl
  unfold string?
  rw [symbols_ofString, chars, Option.map_some, String.ofList_toList]

theorem ofString_append (s t : String) : ofString (s ++ t) = ofString s ++ ofString t := by
  unfold ofString
  rw [String.toList_append, List.flatMap_append]
  rfl

@[simp] theorem ofString_inj {s t : String} : ofString s = ofString t ↔ s = t := by
  constructor
  · intro same
    have spelled := congrArg string? same
    rw [string?_ofString, string?_ofString] at spelled
    exact Option.some.inj spelled
  · rintro rfl
    rfl

end Units
end Walkthrough.Text
