import Walkthrough.Page.XPath

/-!
XPath expressions as they are read. The tokens of an expression are found from left to right, each as long as it can
be: a quoted literal goes on to the next quote of its own kind, so nothing in it is looked at. An operand that stands
for a text is one literal, or a call of `concat` whose arguments are literals (`Token.text?`).
-/
namespace Walkthrough.XPath

inductive Token where
  | literal (text : List Char)
  | number (digits : List Char)
  /-- A name: of an axis, an element, an attribute, a function or an operator. -/
  | name (letters : List Char)
  | sign (text : List Char)
  deriving DecidableEq, Repr

/-- White space as XPath has it; it is less than what Unicode counts as blank. -/
def isSpace (c : Char) : Bool := c = ' ' || c = '\t' || c = '\r' || c = '\n'

/-- Can a name begin with the character? -/
def isNameStart (c : Char) : Bool :=
  let n := c.toNat
  c.isAlpha || c = '_' || (0xC0 ≤ n && n ≤ 0xD6) || (0xD8 ≤ n && n ≤ 0xF6) || (0xF8 ≤ n && n ≤ 0x2FF) ||
    (0x370 ≤ n && n ≤ 0x37D) || (0x37F ≤ n && n ≤ 0x1FFF) || n == 0x200C || n == 0x200D ||
    (0x2070 ≤ n && n ≤ 0x218F) || (0x2C00 ≤ n && n ≤ 0x2FEF) || (0x3001 ≤ n && n ≤ 0xD7FF) ||
    (0xF900 ≤ n && n ≤ 0xFDCF) || (0xFDF0 ≤ n && n ≤ 0xFFFD) || (0x10000 ≤ n && n ≤ 0xEFFFF)

def isNameRest (c : Char) : Bool :=
  let n := c.toNat
  isNameStart c || c.isDigit || c = '-' || c = '.' || n == 0xB7 || (0x300 ≤ n && n ≤ 0x36F) ||
    n == 0x203F || n == 0x2040

def isSign (c : Char) : Bool := "()[].@,:*/|+-=!<>$".toList.contains c

/-- The signs of two characters. -/
def doubleSigns : List (Char × Char) := [('/', '/'), ('.', '.'), (':', ':'), ('!', '='), ('<', '='), ('>', '=')]

/-- What has been read of a token that may go on; letters and digits are kept reversed. -/
inductive Pending where
  | nothing
  | quoted (quote : Char) (read : List Char)
  | word (read : List Char)
  | digits (read : List Char)
  | sign (c : Char)
  | whole (t : Token)
  deriving DecidableEq, Repr

namespace Pending

/-- The token with one more character, if that belongs to it. -/
def extend? : Pending → Char → Option Pending
  | nothing, _ | whole _, _ => none
  | quoted quote read, c => some (if c = quote then whole (.literal read.reverse) else quoted quote (c :: read))
  | word read, c => if isNameRest c then some (word (c :: read)) else none
  | digits read, c => if c.isDigit || (c = '.' && !read.contains '.') then some (digits (c :: read)) else none
  | sign s, c =>
    if s = '.' && c.isDigit then some (digits [c, '.'])
    else if doubleSigns.contains (s, c) then some (whole (.sign [s, c]))
    else none

/-- The token if it ends here; no token is a literal without its second quote, nor an exclamation mark alone. -/
def ended? : Pending → Option (List Token)
  | nothing => some []
  | quoted _ _ => none
  | word read => some [.name read.reverse]
  | digits read => some [.number read.reverse]
  | sign s => if s = '!' then none else some [.sign [s]]
  | whole t => some [t]

/-- What begins with the character when nothing is pending. -/
def begun? (c : Char) : Option Pending :=
  if c = '\x27' || c = '"' then some (quoted c [])
  else if isSpace c then some nothing
  else if isNameStart c then some (word [c])
  else if c.isDigit then some (digits [c])
  else if isSign c then some (sign c)
  else none

/-- The tokens that one more character completes, and what is pending then. -/
def next? (p : Pending) (c : Char) : Option (List Token × Pending) :=
  match p.extend? c with
  | some q => some ([], q)
  | none =>
    match p.ended?, begun? c with
    | some done, some q => some (done, q)
    | _, _ => none

end Pending

/-- The tokens that a text completes after what is pending, and what is pending after it. -/
def advance : Pending → List Char → Option (List Token × Pending)
  | p, [] => some ([], p)
  | p, c :: rest =>
    match p.next? c with
    | none => none
    | some (done, q) => (advance q rest).map fun (later, r) => (done ++ later, r)

/-- The tokens of an expression; none if it has a part that is no token. -/
def tokens? (s : List Char) : Option (List Token) :=
  match advance .nothing s with
  | none => none
  | some (done, q) => q.ended?.map (done ++ ·)

namespace Token

@[match_pattern]
def concat : Token := name ['c', 'o', 'n', 'c', 'a', 't']

/-- The texts of literals with a comma between each two, up to the closing bracket at the end. -/
def arguments? : List Token → Option (List (List Char))
  | [.literal text, .sign [')']] => some [text]
  | .literal text :: .sign [','] :: later => (arguments? later).map (text :: ·)
  | _ => none

/-- The text that an operand stands for: a literal for what is between its quotes, `concat` for its arguments, two of
them at least, one after the other. -/
def text? : List Token → Option (List Char)
  | [.literal text] => some text
  | concat :: .sign ['('] :: later =>
    match arguments? later with
    | some (first :: second :: more) => some (first ++ (second ++ more.flatten))
    | _ => none
  | _ => none

end Token

variable {p q r : Pending} {s t : List Char} {done later : List Token}

theorem advance_cons {c : Char} (step : p.next? c = some (done, q)) (rest : advance q s = some (later, r)) :
    advance p (c :: s) = some (done ++ later, r) := by
  rw [advance, step]
  simp only [rest, Option.map_some]

theorem advance_append (first : advance p s = some (done, q)) (second : advance q t = some (later, r)) :
    advance p (s ++ t) = some (done ++ later, r) := by
  induction s generalizing p done with
  | nil =>
    cases first
    exact second
  | cons c rest ih =>
    cases stepped : p.next? c with
    | none =>
      rw [advance, stepped] at first
      cases first
    | some after =>
      obtain ⟨now, u⟩ := after
      rw [advance, stepped] at first
      obtain ⟨⟨others, v⟩, goes, same⟩ := Option.map_eq_some_iff.mp first
      cases same
      rw [List.append_assoc]
      exact advance_cons stepped (ih goes)

namespace Pending

/-- Does the token end here, whatever comes next? -/
def isClosed : Pending → Bool
  | nothing | whole _ => true
  | sign s => !doubleSigns.any fun double => double.1 = s
  | _ => false

theorem alone_of_isClosed {c : Char} (closed : (sign c).isClosed = true) : ∀ double ∈ doubleSigns, double.1 ≠ c := by
  simpa [isClosed] using closed

theorem extend?_of_isClosed (closed : p.isClosed = true) (c : Char) : p.extend? c = none := by
  cases p with
  | nothing => rfl
  | whole t => rfl
  | sign s =>
    have point : s ≠ '.' := (alone_of_isClosed closed ('.', '.') (by decide)).symm
    have single : (s, c) ∉ doubleSigns := fun listed => alone_of_isClosed closed (s, c) listed rfl
    simp [extend?, point, single]
  | _ => cases closed

theorem ended?_of_isClosed (closed : p.isClosed = true) : ∃ last, p.ended? = some last := by
  cases p with
  | nothing => exact ⟨_, rfl⟩
  | whole t => exact ⟨_, rfl⟩
  | sign s =>
    exact ⟨_, if_neg (alone_of_isClosed closed ('!', '=') (by decide)).symm⟩
  | _ => cases closed

end Pending

/-- The text is read as these tokens, also if more text follows. -/
def Reads (s : List Char) (ts : List Token) : Prop :=
  ∃ done q last, advance .nothing s = some (done, q) ∧ q.isClosed = true ∧ q.ended? = some last ∧ ts = done ++ last

theorem advance_of_isClosed {last : List Token} (closed : p.isClosed = true) (ended : p.ended? = some last)
    (filled : s ≠ []) (goes : advance .nothing s = some (later, r)) : advance p s = some (last ++ later, r) := by
  cases s with
  | nil => exact absurd rfl filled
  | cons c rest =>
    cases begins : Pending.begun? c with
    | none =>
      rw [advance, Pending.next?] at goes
      simp only [Pending.extend?, Pending.ended?, begins] at goes
      cases goes
    | some u =>
      have fresh : Pending.nothing.next? c = some ([], u) := by
        simp only [Pending.next?, Pending.extend?, Pending.ended?, begins]
      have here : p.next? c = some (last, u) := by
        simp only [Pending.next?, Pending.extend?_of_isClosed closed, ended, begins]
      rw [advance, fresh] at goes
      obtain ⟨⟨others, v⟩, onward, same⟩ := Option.map_eq_some_iff.mp goes
      cases same
      exact advance_cons here onward

/-- A text whose last token is closed is read as its tokens. -/
theorem exists_reads (closes : (advance .nothing s).any (·.2.isClosed) = true) : ∃ ts, Reads s ts := by
  obtain ⟨⟨done, q⟩, goes, closed⟩ := (Option.any_eq_true _ _).mp closes
  obtain ⟨last, ended⟩ := Pending.ended?_of_isClosed closed
  exact ⟨_, done, q, last, goes, closed, ended, rfl⟩

namespace Reads

variable {ts us : List Token}

theorem append (first : Reads s ts) (second : Reads t us) : Reads (s ++ t) (ts ++ us) := by
  obtain ⟨done, q, last, begun, closed, ended, rfl⟩ := first
  by_cases empty : t = []
  · subst empty
    obtain ⟨_, _, _, goes, -, stops, rfl⟩ := second
    cases goes
    cases stops
    refine ⟨done, q, last, ?_, closed, ended, by simp⟩
    rwa [List.append_nil]
  · obtain ⟨later, r, final, goes, closed', ended', rfl⟩ := second
    refine ⟨done ++ (last ++ later), r, final, ?_, closed', ended', by simp only [List.append_assoc]⟩
    exact advance_append begun (advance_of_isClosed closed ended empty goes)

theorem tokens (reads : Reads s ts) : tokens? s = some ts := by
  obtain ⟨done, q, last, goes, -, ended, rfl⟩ := reads
  unfold tokens?
  rw [goes]
  simp only [ended, Option.map_some]

end Reads
end Walkthrough.XPath
