import Walkthrough.Report.Html

/-!
Reading a page again. A page is taken apart into its tags, each with its attributes and with the text up to the next
tag, knowing nothing of how the page was made. Pieces that are written with all texts and values escaped are read again
as they are, whatever the texts hold (`fragments_written`).
-/
namespace Walkthrough.Report

namespace Markup

/-- A text with its character references replaced. -/
def unescaped : List Char → List Char
  | '&' :: 'a' :: 'm' :: 'p' :: ';' :: rest => '&' :: unescaped rest
  | '&' :: 'l' :: 't' :: ';' :: rest => '<' :: unescaped rest
  | '&' :: 'g' :: 't' :: ';' :: rest => '>' :: unescaped rest
  | '&' :: 'q' :: 'u' :: 'o' :: 't' :: ';' :: rest => '"' :: unescaped rest
  | '&' :: '#' :: 'x' :: '2' :: '7' :: ';' :: rest => '\x27' :: unescaped rest
  | c :: rest => c :: unescaped rest
  | [] => []

structure Tag where
  name : String
  attributes : List (String × String) := []
  deriving DecidableEq, Repr

/-- A tag and the text behind it, up to the next tag. -/
structure Fragment where
  tag : Tag
  text : String := ""
  deriving DecidableEq, Repr

namespace Tag

def add (t : Tag) (name : String) (value : List Char) : Tag :=
  { t with attributes := t.attributes ++ [(name, String.ofList (unescaped value))] }

end Tag

/-- What the next character belongs to. What has been read of it is kept reversed. -/
inductive Pending where
  | name (read : List Char)
  | inside (t : Tag)
  | attribute (t : Tag) (read : List Char)
  | equals (t : Tag) (name : String)
  | value (t : Tag) (name : String) (read : List Char)
  | text (t : Tag) (read : List Char)

/-- The fragments of a page, unless it ends within a tag. -/
def fragments : Pending → List Char → Option (List Fragment)
  | .text t read, [] => some [⟨t, String.ofList (unescaped read.reverse)⟩]
  | _, [] => none
  | .name read, c :: rest =>
    if c = '>' then fragments (.text ⟨String.ofList read.reverse, []⟩ []) rest
    else if c = ' ' then fragments (.inside ⟨String.ofList read.reverse, []⟩) rest
    else fragments (.name (c :: read)) rest
  | .inside t, c :: rest =>
    if c = '>' then fragments (.text t []) rest
    else if c = ' ' then fragments (.inside t) rest
    else fragments (.attribute t [c]) rest
  | .attribute t read, c :: rest =>
    if c = '=' then fragments (.equals t (String.ofList read.reverse)) rest
    else if c = '>' || c = ' ' then none
    else fragments (.attribute t (c :: read)) rest
  | .equals t name, c :: rest => if c = '"' then fragments (.value t name []) rest else none
  | .value t name read, c :: rest =>
    if c = '"' then fragments (.inside (t.add name read.reverse)) rest else fragments (.value t name (c :: read)) rest
  | .text t read, c :: rest =>
    if c = '<' then (fragments (.name []) rest).map (⟨t, String.ofList (unescaped read.reverse)⟩ :: ·)
    else fragments (.text t (c :: read)) rest

section Next

variable (t : Tag) (name : String) (read : List Char) (c : Char) (rest : List Char)

theorem fragments_name_cons : fragments (.name read) (c :: rest) =
    if c = '>' then fragments (.text ⟨String.ofList read.reverse, []⟩ []) rest
    else if c = ' ' then fragments (.inside ⟨String.ofList read.reverse, []⟩) rest
    else fragments (.name (c :: read)) rest := rfl

theorem fragments_inside_cons : fragments (.inside t) (c :: rest) =
    if c = '>' then fragments (.text t []) rest
    else if c = ' ' then fragments (.inside t) rest
    else fragments (.attribute t [c]) rest := rfl

theorem fragments_attribute_cons : fragments (.attribute t read) (c :: rest) =
    if c = '=' then fragments (.equals t (String.ofList read.reverse)) rest
    else if c = '>' || c = ' ' then none
    else fragments (.attribute t (c :: read)) rest := rfl

theorem fragments_equals_cons :
    fragments (.equals t name) (c :: rest) = if c = '"' then fragments (.value t name []) rest else none := rfl

theorem fragments_value_cons : fragments (.value t name read) (c :: rest) =
    if c = '"' then fragments (.inside (t.add name read.reverse)) rest
    else fragments (.value t name (c :: read)) rest := rfl

theorem fragments_text_cons : fragments (.text t read) (c :: rest) =
    if c = '<' then (fragments (.name []) rest).map (⟨t, String.ofList (unescaped read.reverse)⟩ :: ·)
    else fragments (.text t (c :: read)) rest := rfl

end Next

def opening : String := "<!DOCTYPE html>\n"

/-- The fragments of a page behind its opening. -/
def read (page : String) : Option (List Fragment) :=
  if opening.toList.isPrefixOf page.toList then
    match page.toList.drop opening.toList.length with
    | '<' :: rest => fragments (.name []) rest
    | _ => none
  else none

/-! ### What is escaped -/

theorem toList_escaped (s : String) : (escaped s).toList = s.toList.flatMap fun c => (escapedChar c).toList := by
  have from_ (out : String) (chars : List Char) : (chars.foldl (fun out c => out ++ escapedChar c) out).toList =
      out.toList ++ chars.flatMap fun c => (escapedChar c).toList := by
    induction chars generalizing out with
    | nil => simp
    | cons c chars ih => rw [List.foldl_cons, ih, String.toList_append, List.flatMap_cons, List.append_assoc]
  rw [escaped, String.foldl_eq_foldl_toList, from_]
  rfl

/-- A character that is escaped, or one that stands for itself. -/
theorem escapedChar_cases (c : Char) :
    c ∈ ['&', '<', '>', '"', '\x27'] ∨ c ∉ ['&', '<', '>', '"', '\x27'] ∧ (escapedChar c).toList = [c] := by
  by_cases special : c ∈ ['&', '<', '>', '"', '\x27']
  · exact Or.inl special
  · refine Or.inr ⟨special, ?_⟩
    simp only [List.mem_cons, List.not_mem_nil, or_false, not_or] at special
    obtain ⟨amp, lt, gt, quote, apostrophe⟩ := special
    rw [escapedChar, if_neg amp, if_neg lt, if_neg gt, if_neg quote, if_neg apostrophe, String.toList_singleton]

/-- No text that is escaped can end the text or the value it stands in. -/
theorem not_mem_escaped {d : Char} (mark : d = '<' ∨ d = '"') (s : String) : d ∉ (escaped s).toList := by
  rw [toList_escaped]
  intro listed
  obtain ⟨c, -, inside⟩ := List.mem_flatMap.mp listed
  obtain special | ⟨other, itself⟩ := escapedChar_cases c
  · simp only [List.mem_cons, List.not_mem_nil, or_false] at special
    rcases special with rfl | rfl | rfl | rfl | rfl <;> rcases mark with rfl | rfl <;> revert inside <;> decide
  · rw [itself] at inside
    rw [List.mem_singleton.mp inside] at mark
    rcases mark with rfl | rfl <;> revert other <;> decide

theorem unescaped_cons {c : Char} (other : c ≠ '&') (rest : List Char) : unescaped (c :: rest) = c :: unescaped rest := by
  conv => lhs; unfold unescaped
  split <;> simp_all

theorem unescaped_escapedChar (c : Char) (rest : List Char) :
    unescaped ((escapedChar c).toList ++ rest) = c :: unescaped rest := by
  obtain special | ⟨other, itself⟩ := escapedChar_cases c
  · simp only [List.mem_cons, List.not_mem_nil, or_false] at special
    rcases special with rfl | rfl | rfl | rfl | rfl <;> rfl
  · rw [itself]
    exact unescaped_cons (fun same => other (by simp [same])) rest

theorem unescaped_escaped (s : String) : String.ofList (unescaped (escaped s).toList) = s := by
  have each (chars : List Char) : unescaped (chars.flatMap fun c => (escapedChar c).toList) = chars := by
    induction chars with
    | nil => rfl
    | cons c chars ih => rw [List.flatMap_cons, unescaped_escapedChar, ih]
  rw [toList_escaped, each, String.ofList_toList]

/-! ### Pieces that are written -/

structure IsName (s : String) : Prop where
  filled : s.toList ≠ []
  plain : ∀ c ∈ s.toList, c ∉ [' ', '>', '=']

-- The characters of the name are gone through, not all that there are.
instance (s : String) : Decidable (IsName s) :=
  have : Decidable (∀ c ∈ s.toList, c ∉ [' ', '>', '=']) := List.decidableBAll (fun c => c ∉ [' ', '>', '=']) s.toList
  decidable_of_iff (s.toList ≠ [] ∧ ∀ c ∈ s.toList, c ∉ [' ', '>', '='])
    ⟨fun ⟨filled, plain⟩ => ⟨filled, plain⟩, fun ⟨filled, plain⟩ => ⟨filled, plain⟩⟩

structure Tag.Proper (t : Tag) : Prop where
  name : IsName t.name
  attributes : ∀ a ∈ t.attributes, IsName a.1

instance (t : Tag) : Decidable t.Proper :=
  decidable_of_iff (IsName t.name ∧ ∀ a ∈ t.attributes, IsName a.1)
    ⟨fun ⟨name, attributes⟩ => ⟨name, attributes⟩, fun ⟨name, attributes⟩ => ⟨name, attributes⟩⟩

def attributesText : List (String × String) → String
  | [] => ""
  | (name, value) :: later => " " ++ name ++ "=\"" ++ escaped value ++ "\"" ++ attributesText later

def written : List Fragment → String
  | [] => ""
  | p :: later => "<" ++ p.tag.name ++ attributesText p.tag.attributes ++ ">" ++ escaped p.text ++ written later

/-- Characters of one kind are all kept, one after the other. -/
theorem fragments_kept {keeping : List Char → Pending} {s : List Char}
    (each : ∀ c ∈ s, ∀ read rest, fragments (keeping read) (c :: rest) = fragments (keeping (c :: read)) rest)
    (before rest : List Char) :
    fragments (keeping before) (s ++ rest) = fragments (keeping (s.reverse ++ before)) rest := by
  induction s generalizing before with
  | nil => rfl
  | cons c s ih =>
    obtain ⟨here, others⟩ := List.forall_mem_cons.mp each
    rw [List.cons_append, here, ih others, List.reverse_cons, List.append_assoc]
    rfl

theorem fragments_name {s : List Char} (plain : ∀ c ∈ s, c ∉ [' ', '>', '=']) (before rest : List Char) :
    fragments (.name before) (s ++ rest) = fragments (.name (s.reverse ++ before)) rest := by
  refine fragments_kept (fun c listed read rest => ?_) before rest
  have other := plain c listed
  simp only [List.mem_cons, List.not_mem_nil, or_false, not_or] at other
  rw [fragments_name_cons, if_neg other.2.1, if_neg other.1]

theorem fragments_attribute {s : List Char} (plain : ∀ c ∈ s, c ∉ [' ', '>', '=']) (t : Tag) (before rest : List Char) :
    fragments (.attribute t before) (s ++ rest) = fragments (.attribute t (s.reverse ++ before)) rest := by
  refine fragments_kept (fun c listed read rest => ?_) before rest
  have other := plain c listed
  simp only [List.mem_cons, List.not_mem_nil, or_false, not_or] at other
  rw [fragments_attribute_cons, if_neg other.2.2, if_neg (by simp [other])]

theorem fragments_value {s : List Char} (closed : '"' ∉ s) (t : Tag) (name : String) (before rest : List Char) :
    fragments (.value t name before) (s ++ rest) = fragments (.value t name (s.reverse ++ before)) rest := by
  refine fragments_kept (fun c listed read rest => ?_) before rest
  rw [fragments_value_cons, if_neg (ne_of_mem_of_not_mem listed closed)]

theorem fragments_text {s : List Char} (closed : '<' ∉ s) (t : Tag) (before rest : List Char) :
    fragments (.text t before) (s ++ rest) = fragments (.text t (s.reverse ++ before)) rest := by
  refine fragments_kept (fun c listed read rest => ?_) before rest
  rw [fragments_text_cons, if_neg (ne_of_mem_of_not_mem listed closed)]

/-- Attributes are read as they were meant, whatever their values are. -/
theorem fragments_attributes {attributes : List (String × String)} (named : ∀ a ∈ attributes, IsName a.1) (t : Tag)
    (rest : List Char) : fragments (.inside t) ((attributesText attributes).toList ++ rest) =
      fragments (.inside { t with attributes := t.attributes ++ attributes }) rest := by
  induction attributes generalizing t with
  | nil => rw [List.append_nil]; rfl
  | cons a later ih =>
    obtain ⟨name, value⟩ := a
    obtain ⟨proper, others⟩ := List.forall_mem_cons.mp named
    obtain ⟨first, letters, spelt⟩ := List.exists_cons_of_ne_nil proper.filled
    have plain := proper.plain
    rw [spelt] at plain
    obtain ⟨here, plain⟩ := List.forall_mem_cons.mp plain
    simp only [List.mem_cons, List.not_mem_nil, or_false, not_or] at here
    have whole : String.ofList (letters.reverse ++ [first]).reverse = name := by
      rw [List.reverse_append, List.reverse_reverse, List.reverse_singleton, List.singleton_append, ← spelt,
        String.ofList_toList]
    have closed : '"' ∉ (escaped value).toList := not_mem_escaped (Or.inr rfl) value
    have split : (attributesText ((name, value) :: later)).toList ++ rest = ' ' :: first :: (letters ++ '=' :: '"' ::
        ((escaped value).toList ++ '"' :: ((attributesText later).toList ++ rest))) := by
      simp [attributesText, show name.toList = first :: letters from spelt]
    rw [split, fragments_inside_cons, if_neg (by decide), if_pos rfl, fragments_inside_cons, if_neg here.2.1,
      if_neg here.1, fragments_attribute plain, fragments_attribute_cons, if_pos rfl, whole, fragments_equals_cons,
      if_pos rfl, fragments_value closed, List.append_nil, fragments_value_cons, if_pos rfl, Tag.add,
      List.reverse_reverse, unescaped_escaped, ih others]
    simp

/-- What follows a name is read as it is after an attribute. -/
theorem fragments_named {c : Char} (ends : c = '>' ∨ c = ' ') (before rest : List Char) :
    fragments (.name before) (c :: rest) = fragments (.inside ⟨String.ofList before.reverse, []⟩) (c :: rest) := by
  rcases ends with rfl | rfl <;> rfl

theorem head_attributesText (attributes : List (String × String)) (rest : List Char) :
    ∃ c more, (attributesText attributes).toList ++ '>' :: rest = c :: more ∧ (c = '>' ∨ c = ' ') := by
  cases attributes with
  | nil => exact ⟨_, _, rfl, Or.inl rfl⟩
  | cons a later =>
    refine ⟨' ', a.1.toList ++ '=' :: '"' :: ((escaped a.2).toList ++ '"' :: ((attributesText later).toList ++
      '>' :: rest)), ?_, Or.inr rfl⟩
    simp [attributesText]

theorem toList_written (p : Fragment) (later : List Fragment) : (written (p :: later)).toList =
    '<' :: (p.tag.name.toList ++ ((attributesText p.tag.attributes).toList ++
      '>' :: ((escaped p.text).toList ++ (written later).toList))) := by
  simp [written]

theorem fragments_tag {p : Fragment} (proper : p.tag.Proper) (rest : List Char) :
    fragments (.name []) (p.tag.name.toList ++ ((attributesText p.tag.attributes).toList ++
      '>' :: ((escaped p.text).toList ++ rest))) = fragments (.text p.tag (escaped p.text).toList.reverse) rest := by
  have closed : '<' ∉ (escaped p.text).toList := not_mem_escaped (Or.inl rfl) p.text
  obtain ⟨c, more, begins, ends⟩ := head_attributesText p.tag.attributes ((escaped p.text).toList ++ rest)
  rw [fragments_name proper.name.plain, List.append_nil, begins, fragments_named ends, ← begins,
    fragments_attributes proper.attributes, fragments_inside_cons, if_pos rfl, fragments_text closed, List.reverse_reverse,
    String.ofList_toList, List.nil_append, List.append_nil]

theorem fragments_written {ps : List Fragment} (proper : ∀ p ∈ ps, p.tag.Proper) (t : Tag) (text : List Char) :
    fragments (.text t text) (written ps).toList = some (⟨t, String.ofList (unescaped text.reverse)⟩ :: ps) := by
  induction ps generalizing t text with
  | nil => rfl
  | cons p ps ih =>
    obtain ⟨here, others⟩ := List.forall_mem_cons.mp proper
    rw [toList_written, fragments_text_cons, if_pos rfl, fragments_tag here, ih others, List.reverse_reverse, unescaped_escaped]
    rfl

/-- Fragments that are written are read again. -/
theorem read_written {ps : List Fragment} (proper : ∀ p ∈ ps, p.tag.Proper) (some : ps ≠ []) :
    read (opening ++ written ps) = .some ps := by
  cases ps with
  | nil => exact absurd rfl some
  | cons p ps =>
    obtain ⟨here, others⟩ := List.forall_mem_cons.mp proper
    have begins : opening.toList.isPrefixOf (opening ++ written (p :: ps)).toList = true := by
      rw [String.toList_append, List.isPrefixOf_iff_prefix]
      exact List.prefix_append ..
    unfold read
    rw [if_pos begins, String.toList_append, List.drop_left, toList_written]
    change fragments (.name []) _ = _
    rw [fragments_tag here, fragments_written others, List.reverse_reverse, unescaped_escaped]

end Markup
end Walkthrough.Report
