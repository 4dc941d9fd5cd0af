/-!
Blank characters, and the two ways a text sheds them: trimming both ends, and compacting, which also
leaves one space where several blanks stood together. A compacted text can be cut to a limit.
-/
namespace Walkthrough.Text

/-- White space of the Unicode standard, and the four information separators U+001C to U+001F. -/
def isBlank (c : Char) : Bool :=
  let n := c.toNat
  (9 ≤ n && n ≤ 13) || (28 ≤ n && n ≤ 32) || n == 0x85 || n == 0xA0 || n == 0x1680 ||
    (0x2000 ≤ n && n ≤ 0x200A) || n == 0x2028 || n == 0x2029 || n == 0x202F || n == 0x205F ||
    n == 0x3000

def trimStart (s : List Char) : List Char := s.dropWhile isBlank

def trimEnd (s : List Char) : List Char := (s.reverse.dropWhile isBlank).reverse

def trim (s : List Char) : List Char := trimEnd (trimStart s)

def allBlank (s : List Char) : Bool := s.all isBlank

/-- A finished word, which is reversed, in front of the later ones; an empty one is no word. -/
def putWord (word : List Char) (later : List (List Char)) : List (List Char) :=
  if word.isEmpty then later else word.reverse :: later

/-- The words of a text that goes on after the reversed `word`. -/
def wordsAfter (word : List Char) : List Char → List (List Char)
  | [] => putWord word []
  | c :: rest => if isBlank c then putWord word (wordsAfter [] rest) else wordsAfter (c :: word) rest

def words (s : List Char) : List (List Char) := wordsAfter [] s

def compact (s : List Char) : List Char := List.intercalate [' '] (words s)

/-- The first `limit` characters; a negative limit counts from the end. -/
def cut (limit : Int) (s : List Char) : List Char :=
  if limit < 0 then s.take (s.length - limit.natAbs) else s.take limit.toNat

theorem ne_nil_of_mem_putWord {word w : List Char} {later : List (List Char)}
    (h : w ∈ putWord word later) : w ≠ [] ∨ w ∈ later := by
  cases word with
  | nil => exact Or.inr h
  | cons c rest =>
    rcases List.mem_cons.mp h with rfl | inLater
    · exact Or.inl (by simp)
    · exact Or.inr inLater

theorem ne_nil_of_mem_wordsAfter {w : List Char} (s word : List Char) (h : w ∈ wordsAfter word s) :
    w ≠ [] := by
  induction s generalizing word with
  | nil =>
    rcases ne_nil_of_mem_putWord h with filled | absent
    · exact filled
    · cases absent
  | cons c rest ih =>
    unfold wordsAfter at h
    split at h
    · rcases ne_nil_of_mem_putWord h with filled | later
      · exact filled
      · exact ih [] later
    · exact ih (c :: word) h

theorem wordsAfter_eq_nil (s word : List Char) :
    wordsAfter word s = [] ↔ word = [] ∧ allBlank s = true := by
  induction s generalizing word with
  | nil => cases word <;> simp [wordsAfter, putWord, allBlank]
  | cons c rest ih =>
    unfold wordsAfter
    cases blank : isBlank c with
    | true => cases word <;> simp [putWord, allBlank, blank, ih []]
    | false => simp [allBlank, blank, ih (c :: word)]

theorem compact_eq_nil (s : List Char) : compact s = [] ↔ allBlank s = true := by
  have none : words s = [] ↔ allBlank s = true := by simp [words, wordsAfter_eq_nil]
  rw [← none]
  constructor
  · intro empty
    cases split : words s with
    | nil => rfl
    | cons word later =>
      have filled : word ≠ [] := ne_nil_of_mem_wordsAfter s [] (by rw [← words, split]; simp)
      rw [compact, split] at empty
      cases later <;> simp [List.intercalate, filled] at empty
  · intro empty
    rw [compact, empty]
    rfl

theorem length_cut_le (limit : Nat) (s : List Char) : (cut limit s).length ≤ limit := by
  have notNegative : ¬ ((limit : Int) < 0) := by omega
  rw [cut, if_neg notNegative, List.length_take, Int.toNat_natCast]
  exact Nat.min_le_left _ _

def trimmed (s : String) : String := String.ofList (trim s.toList)

def compacted (limit : Int) (s : String) : String := String.ofList (cut limit (compact s.toList))

end Walkthrough.Text
