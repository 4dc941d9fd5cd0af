import Walkthrough.Proofs.Json.Numbers
import Walkthrough.Proofs.Json.Strings

/-!
Values are read as they were written, on one line or over several (`parse_put`). What is written of a list or an
object is read item by item: blanks stand only where the reader passes them over, and what follows an item is
none of its own text.
-/
namespace Walkthrough.Json

open Text (Units)

/-- Values that are within the bounds of the reader, no name standing twice in one object. -/
inductive Writable : (depth : ℕ) → Json → Prop where
  | null {depth : ℕ} : Writable depth null
  | bool {depth : ℕ} (value : Bool) : Writable depth (bool value)
  | integer {depth : ℕ} {value : ℤ} (short : (Nat.toDigits 10 value.natAbs).length ≤ Decimal.Numeral.maxDigits) :
      Writable depth (integer value)
  | real {depth : ℕ} (value : Float) : Writable depth (real value)
  | string {depth : ℕ} (units : Units) : Writable depth (string units)
  | list {depth : ℕ} {items : List Json} (shallow : depth < maxDepth)
      (members : ∀ item ∈ items, Writable (depth + 1) item) : Writable depth (list items)
  | object {depth : ℕ} {fields : List (Units × Json)} (shallow : depth < maxDepth)
      (distinct : (fields.map Prod.fst).Nodup) (members : ∀ f ∈ fields, Writable (depth + 1) f.2) :
      Writable depth (object fields)

/-! ### Writing behind what is written -/

theorem putString_append (out : String) (units : Units) : putString out units = out ++ putString "" units := by
  rw [← String.toList_inj, String.toList_append, toList_putString, toList_putString]
  rfl

mutual

theorem put_append (indent : Option ℕ) (depth : ℕ) (out : String) (j : Json) :
    put indent depth out j = out ++ put indent depth "" j := by
  match j with
  | null => simp only [put, String.empty_append]
  | bool _ => simp only [put, String.empty_append]
  | integer _ => simp only [put, String.empty_append]
  | real _ => simp only [put, String.empty_append]
  | string _ => exact putString_append out _
  | list [] => simp only [put, String.empty_append]
  | list (item :: items) =>
    simp only [put]
    rw [putItems_append, put_append, putItems_append indent (depth + 1) (put indent (depth + 1) _ item),
      put_append indent (depth + 1) ("" ++ "[" ++ lineStart indent (depth + 1))]
    simp only [String.append_assoc, String.empty_append]
  | object [] => simp only [put, String.empty_append]
  | object ((name, value) :: fields) =>
    simp only [put]
    rw [putFields_append, put_append, putString_append, putFields_append indent (depth + 1) (put indent (depth + 1) _ value),
      put_append indent (depth + 1) (putString _ name ++ ": "),
      putString_append ("" ++ "\x7b" ++ lineStart indent (depth + 1))]
    simp only [String.append_assoc, String.empty_append]

theorem putItems_append (indent : Option ℕ) (depth : ℕ) (out : String) (items : List Json) :
    putItems indent depth out items = out ++ putItems indent depth "" items := by
  match items with
  | [] => simp only [putItems, String.append_empty]
  | item :: items =>
    simp only [putItems]
    rw [putItems_append, put_append, putItems_append indent depth (put indent depth _ item),
      put_append indent depth ("" ++ separator indent depth)]
    simp only [String.append_assoc, String.empty_append]

theorem putFields_append (indent : Option ℕ) (depth : ℕ) (out : String) (fields : List (Units × Json)) :
    putFields indent depth out fields = out ++ putFields indent depth "" fields := by
  match fields with
  | [] => simp only [putFields, String.append_empty]
  | (name, value) :: fields =>
    simp only [putFields]
    rw [putFields_append, put_append, putString_append, putFields_append indent depth (put indent depth _ value),
      put_append indent depth (putString _ name ++ ": "), putString_append ("" ++ separator indent depth)]
    simp only [String.append_assoc, String.empty_append]

end

section Written

variable (indent : Option ℕ) (depth : ℕ)

def written (j : Json) : List Char := (put indent depth "" j).toList

def writtenItems (items : List Json) : List Char := (putItems indent depth "" items).toList

def writtenFields (fields : List (Units × Json)) : List Char := (putFields indent depth "" fields).toList

def writtenField (f : Units × Json) : List Char := '"' :: (spelled f.1 ++ ':' :: ' ' :: written indent depth f.2)

/-- What stands behind the last item of a list or an object, before its bracket. -/
def margin : List Char := (lineStart indent depth).toList

theorem writtenItems_cons (item : Json) (items : List Json) : writtenItems indent depth (item :: items) =
    (separator indent depth).toList ++ (written indent depth item ++ writtenItems indent depth items) := by
  unfold writtenItems written
  simp only [putItems]
  rw [putItems_append, put_append]
  simp only [String.toList_append, String.toList_empty, List.nil_append, List.append_assoc]

theorem writtenFields_cons (f : Units × Json) (fields : List (Units × Json)) : writtenFields indent depth (f :: fields) =
    (separator indent depth).toList ++ (writtenField indent depth f ++ writtenFields indent depth fields) := by
  unfold writtenFields writtenField written
  simp only [putFields]
  rw [putFields_append, put_append, String.toList_append, String.toList_append, String.toList_append, toList_putString]
  simp

theorem written_list (item : Json) (items : List Json) : written indent depth (list (item :: items)) =
    '[' :: (margin indent (depth + 1) ++ (written indent (depth + 1) item ++
      (writtenItems indent (depth + 1) items ++ (margin indent depth ++ [']'])))) := by
  unfold writtenItems written margin
  simp only [put]
  rw [putItems_append, put_append]
  simp

theorem written_object (f : Units × Json) (fields : List (Units × Json)) : written indent depth (object (f :: fields)) =
    '\x7b' :: (margin indent (depth + 1) ++ (writtenField indent (depth + 1) f ++
      (writtenFields indent (depth + 1) fields ++ (margin indent depth ++ ['\x7d'])))) := by
  unfold writtenFields writtenField written margin
  simp only [put]
  rw [putFields_append, put_append, String.toList_append, String.toList_append, String.toList_append, String.toList_append,
    String.toList_append, toList_putString]
  simp

end Written

/-! ### Blanks -/

def Blank (s : List Char) : Prop := ∀ c ∈ s, isSpace c = true

/-- Characters that begin a value: no blank and no closing bracket. -/
def Opening (c : Char) : Prop := isSpace c = false ∧ c ≠ ']' ∧ c ≠ '\x7d'

instance (c : Char) : Decidable (Opening c) := inferInstanceAs (Decidable (_ ∧ _))

theorem skipSpace_blank {blank : List Char} (blanks : Blank blank) {c : Char} (visible : isSpace c = false)
    (rest : List Char) : skipSpace (blank ++ c :: rest) = c :: rest := by
  unfold skipSpace
  rw [List.dropWhile_append_of_pos blanks]
  simp [visible]

theorem space_blank : Blank [' '] := by
  intro c member
  rw [List.mem_singleton.mp member]
  rfl

theorem skipSpace_visible {c : Char} (visible : isSpace c = false) (rest : List Char) :
    skipSpace (c :: rest) = c :: rest :=
  skipSpace_blank (show Blank [] from nofun) visible rest

theorem margin_blank (indent : Option ℕ) (depth : ℕ) : Blank (margin indent depth) := by
  intro c member
  unfold margin lineStart at member
  cases indent with
  | none => simp at member
  | some width =>
    simp only [String.toList_append, List.mem_append, String.toList_ofList, List.mem_replicate] at member
    rcases member with line | ⟨-, rfl⟩
    · rw [List.mem_singleton.mp line]
      rfl
    · rfl

theorem separator_eq (indent : Option ℕ) (depth : ℕ) :
    ∃ blank, (separator indent depth).toList = ',' :: blank ∧ Blank blank := by
  unfold separator
  cases indent with
  | none => exact ⟨[' '], by simp, space_blank⟩
  | some width => exact ⟨margin (some width) depth, String.toList_append, margin_blank _ _⟩

theorem ends_cons {c : Char} (digit : c.isDigit = false) (point : c ≠ '.') (small : c ≠ 'e') (large : c ≠ 'E')
    (rest : List Char) : Ends (c :: rest) := by
  intro d first
  cases first
  exact ⟨digit, point, small, large⟩

theorem ends_blank {blank : List Char} (blanks : Blank blank) {rest : List Char} (ends : Ends rest) :
    Ends (blank ++ rest) := by
  cases blank with
  | nil => exact ends
  | cons c later =>
    have space := blanks c (List.mem_cons_self ..)
    simp only [isSpace, Bool.or_eq_true, decide_eq_true_eq] at space
    rcases space with ((rfl | rfl) | rfl) | rfl
    · exact ends_cons rfl (by decide) (by decide) (by decide) _
    · exact ends_cons rfl (by decide) (by decide) (by decide) _
    · exact ends_cons rfl (by decide) (by decide) (by decide) _
    · exact ends_cons rfl (by decide) (by decide) (by decide) _

/-! ### Values without items -/

/-- What is no list and no object begins with no bracket and no blank. -/
theorem opening_of_simple {s : List Char} {r : Json × List Char} (read : simple s = .ok r) :
    ∃ c later, s = c :: later ∧ Opening c ∧ c ≠ '[' ∧ c ≠ '\x7b' := by
  cases s with
  | nil => cases read
  | cons c later =>
    have refused {d : Char} (wrong : simple (d :: later) = .error .malformed) : c ≠ d := by
      rintro rfl
      rw [wrong] at read
      cases read
    refine ⟨c, later, rfl, ⟨?_, refused rfl, refused rfl⟩, refused rfl, refused rfl⟩
    unfold isSpace
    simp [@refused ' ' rfl, @refused '\t' rfl, @refused '\n' rfl, @refused '\r' rfl]

theorem value_of_simple {s : List Char} {r : Json × List Char} (read : simple s = .ok r) (depth fuel : ℕ) :
    value depth s (fuel + 1) = .ok r := by
  obtain ⟨c, later, rfl, -, list, object⟩ := opening_of_simple read
  unfold value
  split
  · rename_i same
    exact absurd (List.cons.inj same).1 list
  · rename_i same
    exact absurd (List.cons.inj same).1 object
  · exact read

/-! ### Reading back -/

/-- A value is read as it was written, whatever follows that is no part of a number. -/
def ReadBack (indent : Option ℕ) (depth : ℕ) (j : Json) : Prop := ∀ (rest : List Char) (fuel : ℕ), Ends rest →
  2 * (written indent depth j).length ≤ fuel + 1 → value depth (written indent depth j ++ rest) fuel = .ok (j, rest)

variable {indent : Option ℕ} {depth : ℕ}

theorem readBack_of_simple {j : Json}
    (read : ∀ rest, Ends rest → simple (written indent depth j ++ rest) = .ok (j, rest)) : ReadBack indent depth j := by
  intro rest fuel ends enough
  have filled : 0 < (written indent depth j).length := by
    have itself := read [] nofun
    rw [List.append_nil] at itself
    obtain ⟨c, later, cons, -⟩ := opening_of_simple itself
    rw [cons]
    exact Nat.succ_pos _
  obtain ⟨fuel, rfl⟩ : ∃ less, fuel = less + 1 := ⟨fuel - 1, by omega⟩
  exact value_of_simple (read rest ends) depth fuel

theorem written_of_put {j : Json} (text : String) (same : put indent depth "" j = "" ++ text) :
    written indent depth j = text.toList := by
  unfold written
  rw [same, String.empty_append]

/-- All values but lists and objects are read in one step. -/
theorem simple_written {j : Json} (writable : Writable depth j) : (∃ items, j = list items) ∨ (∃ fields, j = object fields) ∨
    ∀ rest, Ends rest → simple (written indent depth j ++ rest) = .ok (j, rest) := by
  cases writable with
  | null =>
    refine Or.inr (Or.inr fun rest _ => ?_)
    rw [written_of_put "null" (by simp only [put])]
    rfl
  | bool value =>
    refine Or.inr (Or.inr fun rest _ => ?_)
    rw [written_of_put (if value then "true" else "false") (by simp only [put])]
    cases value
    · rfl
    · rfl
  | @integer _ n short =>
    refine Or.inr (Or.inr fun rest ends => ?_)
    rw [written_of_put (toString n) (by simp only [put])]
    exact simple_integer short ends
  | real x =>
    refine Or.inr (Or.inr fun rest ends => ?_)
    rw [written_of_put (realLayout.write x) (by simp only [put])]
    exact simple_write x ends
  | string units =>
    refine Or.inr (Or.inr fun rest _ => ?_)
    rw [show written indent depth (string units) = '"' :: spelled units from toList_putString "" units]
    change (stringAfter [] (spelled units ++ rest)).map _ = _
    rw [stringAfter_spelled]
    rfl
  | list => exact Or.inl ⟨_, rfl⟩
  | object => exact Or.inr (Or.inl ⟨_, rfl⟩)

theorem opening_of_written {j : Json} (writable : Writable depth j) :
    ∃ c later, written indent depth j = c :: later ∧ Opening c := by
  obtain ⟨items, rfl⟩ | ⟨fields, rfl⟩ | read := @simple_written indent depth j writable
  · cases items with
    | nil => exact ⟨'[', [']'], by rw [written_of_put "[]" (by simp only [put])]; rfl, by decide⟩
    | cons item items => exact ⟨'[', _, written_list .., by decide⟩
  · cases fields with
    | nil => exact ⟨'\x7b', ['\x7d'], by rw [written_of_put "\x7b\x7d" (by simp only [put])]; rfl, by decide⟩
    | cons f fields => exact ⟨'\x7b', _, written_object .., by decide⟩
  · have itself := read [] nofun
    rw [List.append_nil] at itself
    obtain ⟨c, later, cons, opening, -⟩ := opening_of_simple itself
    exact ⟨c, later, cons, opening⟩

theorem skipSpace_written {j : Json} (writable : Writable depth j) {blank : List Char} (blanks : Blank blank)
    (after : List Char) : skipSpace (blank ++ (written indent depth j ++ after)) = written indent depth j ++ after := by
  obtain ⟨c, later, opens, visible, -⟩ := @opening_of_written indent depth j writable
  rw [opens]
  exact skipSpace_blank blanks visible _

/-- What stands behind an item decides how the reading goes on: a bracket ends it, a comma leads to the next. -/
theorem items_last {item : Json} (readBack : ReadBack indent depth item) (before : List Json) {after rest : List Char}
    (ends : Ends after) (closes : skipSpace after = ']' :: rest) {fuel : ℕ}
    (enough : 2 * (written indent depth item).length ≤ fuel + 1) :
    items depth before (written indent depth item ++ after) (fuel + 1) = .ok (list (item :: before).reverse, rest) := by
  have read := readBack after fuel ends enough
  unfold items
  simp only [read, bind, Except.bind, closes]

theorem items_next {item : Json} (readBack : ReadBack indent depth item) (before : List Json) {after rest : List Char}
    (ends : Ends after) (comma : skipSpace after = ',' :: rest) {fuel : ℕ}
    (enough : 2 * (written indent depth item).length ≤ fuel + 1) :
    items depth before (written indent depth item ++ after) (fuel + 1) =
      items depth (item :: before) (skipSpace rest) fuel := by
  have read := readBack after fuel ends enough
  conv => lhs; unfold items
  simp only [read, bind, Except.bind, comma]

/-- What is written of a list from an item on is read behind the items that were read before. -/
theorem items_read {closing : List Char} (blanks : Blank closing) {item : Json} {more : List Json}
    (members : ∀ j ∈ item :: more, Writable depth j ∧ ReadBack indent depth j) (before : List Json) (rest : List Char)
    (fuel : ℕ)
    (enough : 2 * (written indent depth item ++ (writtenItems indent depth more ++ (closing ++ [']']))).length ≤ fuel) :
    items depth before (written indent depth item ++ (writtenItems indent depth more ++ (closing ++ ']' :: rest))) fuel =
      .ok (list (before.reverse ++ item :: more), rest) := by
  -- The fuel pays for two steps a character; a step for an item is paid by what is written before the next.
  induction more generalizing item before fuel with
  | nil =>
    simp only [List.length_append, List.length_singleton] at enough
    obtain ⟨fuel, rfl⟩ : ∃ less, fuel = less + 1 := ⟨fuel - 1, by omega⟩
    have ends : Ends (closing ++ ']' :: rest) := ends_blank blanks (ends_cons rfl (by decide) (by decide) (by decide) _)
    have none : writtenItems indent depth [] = [] := rfl
    rw [none, List.nil_append, items_last (members item (List.mem_cons_self ..)).2 before ends
      (skipSpace_blank blanks rfl rest) (by omega), List.reverse_cons]
  | cons next more ih =>
    obtain ⟨blank, comma, blanks'⟩ := separator_eq indent depth
    rw [writtenItems_cons, comma] at enough ⊢
    simp only [List.length_append, List.length_cons, List.length_nil] at enough
    obtain ⟨fuel, rfl⟩ : ∃ less, fuel = less + 1 := ⟨fuel - 1, by omega⟩
    have skipped := @skipSpace_written indent depth next
      (members next (List.mem_cons_of_mem _ (List.mem_cons_self ..))).1 _ blanks'
    have later := ih (fun j member => members j (List.mem_cons_of_mem _ member)) (item :: before) fuel
      (by simp only [List.length_append, List.length_singleton]; omega)
    have same : before.reverse ++ item :: next :: more = (item :: before).reverse ++ next :: more := by simp
    rw [List.append_assoc, List.cons_append, List.append_assoc,
      items_next (members item (List.mem_cons_self ..)).2 before (ends_cons rfl (by decide) (by decide) (by decide) _)
        (skipSpace_visible rfl _) (by omega), skipped, later, same]

/-- A name that no field before has gets its place behind them. -/
theorem setField_of_new {f : Units × Json} {before after : List (Units × Json)}
    (distinct : ((before ++ f :: after).map Prod.fst).Nodup) : setField f.1 f.2 before = before ++ [f] := by
  rw [List.map_append, List.nodup_append] at distinct
  unfold setField
  rw [if_neg]
  intro known
  obtain ⟨g, member, same⟩ := List.any_eq_true.mp known
  exact distinct.2.2 g.1 (List.mem_map_of_mem member) f.1 (List.mem_cons_self ..) (eq_of_beq same)

theorem fields_last {f : Units × Json} (writable : Writable depth f.2) (readBack : ReadBack indent depth f.2)
    (before : List (Units × Json)) {after rest : List Char} (ends : Ends after) (closes : skipSpace after = '\x7d' :: rest)
    {fuel : ℕ} (enough : 2 * (writtenField indent depth f).length ≤ fuel + 1) :
    fields depth before (writtenField indent depth f ++ after) (fuel + 1) =
      .ok (object (setField f.1 f.2 before), rest) := by
  have skipped := @skipSpace_written indent depth _ writable _ space_blank after
  simp only [writtenField, List.length_append, List.length_cons] at enough
  have read := readBack after fuel ends (by omega)
  unfold fields writtenField
  simp only [List.cons_append, List.nil_append, List.append_assoc, stringAfter_spelled, bind, Except.bind,
    skipSpace_visible (c := ':') rfl] at skipped ⊢
  simp only [skipped, read, closes]

theorem fields_next {f : Units × Json} (writable : Writable depth f.2) (readBack : ReadBack indent depth f.2)
    (before : List (Units × Json)) {after rest : List Char} (ends : Ends after) (comma : skipSpace after = ',' :: rest)
    {fuel : ℕ} (enough : 2 * (writtenField indent depth f).length ≤ fuel + 1) :
    fields depth before (writtenField indent depth f ++ after) (fuel + 1) =
      fields depth (setField f.1 f.2 before) (skipSpace rest) fuel := by
  have skipped := @skipSpace_written indent depth _ writable _ space_blank after
  simp only [writtenField, List.length_append, List.length_cons] at enough
  have read := readBack after fuel ends (by omega)
  conv => lhs; unfold fields writtenField
  simp only [List.cons_append, List.nil_append, List.append_assoc, stringAfter_spelled, bind, Except.bind,
    skipSpace_visible (c := ':') rfl] at skipped ⊢
  simp only [skipped, read, comma]

theorem fields_read {closing : List Char} (blanks : Blank closing) {f : Units × Json} {more : List (Units × Json)}
    (members : ∀ f' ∈ f :: more, Writable depth f'.2 ∧ ReadBack indent depth f'.2) {before : List (Units × Json)}
    (distinct : ((before ++ f :: more).map Prod.fst).Nodup) (rest : List Char) (fuel : ℕ)
    (enough : 2 * (writtenField indent depth f ++ (writtenFields indent depth more ++ (closing ++ ['\x7d']))).length ≤ fuel) :
    fields depth before (writtenField indent depth f ++ (writtenFields indent depth more ++ (closing ++ '\x7d' :: rest)))
      fuel = .ok (object (before ++ f :: more), rest) := by
  induction more generalizing f before fuel with
  | nil =>
    simp only [List.length_append, List.length_singleton] at enough
    obtain ⟨fuel, rfl⟩ : ∃ less, fuel = less + 1 := ⟨fuel - 1, by omega⟩
    obtain ⟨writable, readBack⟩ := members f (List.mem_cons_self ..)
    have ends : Ends (closing ++ '\x7d' :: rest) := ends_blank blanks (ends_cons rfl (by decide) (by decide) (by decide) _)
    have none : writtenFields indent depth [] = [] := rfl
    rw [none, List.nil_append, fields_last writable readBack before ends (skipSpace_blank blanks rfl rest) (by omega),
      setField_of_new distinct]
  | cons next more ih =>
    obtain ⟨blank, comma, blanks'⟩ := separator_eq indent depth
    rw [writtenFields_cons, comma] at enough ⊢
    simp only [List.length_append, List.length_cons, List.length_nil] at enough
    obtain ⟨fuel, rfl⟩ : ∃ less, fuel = less + 1 := ⟨fuel - 1, by omega⟩
    obtain ⟨writable, readBack⟩ := members f (List.mem_cons_self ..)
    have skipped (after : List Char) : skipSpace (blank ++ (writtenField indent depth next ++ after)) =
        writtenField indent depth next ++ after := skipSpace_blank blanks' rfl _
    have same : before ++ f :: next :: more = before ++ [f] ++ next :: more := by simp
    have later := ih (fun f' member => members f' (List.mem_cons_of_mem _ member)) (same ▸ distinct) fuel
      (by simp only [List.length_append, List.length_singleton]; omega)
    rw [List.append_assoc, List.cons_append, List.append_assoc,
      fields_next writable readBack before (ends_cons rfl (by decide) (by decide) (by decide) _)
        (skipSpace_visible rfl _) (by omega), skipped, setField_of_new distinct, later, same]

theorem value_list (shallow : depth < maxDepth) {s rest : List Char} {c : Char} (opens : skipSpace s = c :: rest)
    (filled : c ≠ ']') (fuel : ℕ) :
    value depth ('[' :: s) (fuel + 1) = items (depth + 1) [] (c :: rest) fuel := by
  unfold value
  simp only [if_neg (Nat.not_le.mpr shallow), opens]
  split
  · rename_i same
    exact absurd (List.cons.inj same).1 filled
  · rfl

theorem value_object (shallow : depth < maxDepth) {s rest : List Char} {c : Char} (opens : skipSpace s = c :: rest)
    (filled : c ≠ '\x7d') (fuel : ℕ) :
    value depth ('\x7b' :: s) (fuel + 1) = fields (depth + 1) [] (c :: rest) fuel := by
  unfold value
  simp only [if_neg (Nat.not_le.mpr shallow), opens]
  split
  · rename_i same
    exact absurd (List.cons.inj same).1 filled
  · rfl

theorem written_filled {j : Json} (writable : Writable depth j) : 0 < (written indent depth j).length := by
  obtain ⟨c, later, cons, -⟩ := @opening_of_written indent depth j writable
  rw [cons]
  exact Nat.succ_pos _

theorem value_empty_list (shallow : depth < maxDepth) (rest : List Char) (fuel : ℕ) :
    value depth ('[' :: ']' :: rest) (fuel + 1) = .ok (list [], rest) := by
  unfold value
  simp only [if_neg (Nat.not_le.mpr shallow), skipSpace_visible (c := ']') rfl]

theorem value_empty_object (shallow : depth < maxDepth) (rest : List Char) (fuel : ℕ) :
    value depth ('\x7b' :: '\x7d' :: rest) (fuel + 1) = .ok (object [], rest) := by
  unfold value
  simp only [if_neg (Nat.not_le.mpr shallow), skipSpace_visible (c := '\x7d') rfl]

theorem readBack_list {items : List Json} (shallow : depth < maxDepth)
    (members : ∀ item ∈ items, Writable (depth + 1) item ∧ ReadBack indent (depth + 1) item) :
    ReadBack indent depth (list items) := by
  intro rest fuel _ enough
  have filled := @written_filled indent depth _ (.list shallow fun item member => (members item member).1)
  obtain ⟨fuel, rfl⟩ : ∃ less, fuel = less + 1 := ⟨fuel - 1, by omega⟩
  cases items with
  | nil =>
    rw [written_of_put "[]" (by simp only [put])]
    exact value_empty_list shallow rest fuel
  | cons item items =>
    have writable := (members item (List.mem_cons_self ..)).1
    obtain ⟨c, later, opens, -, bracket, -⟩ := @opening_of_written indent (depth + 1) item writable
    have skipped := @skipSpace_written indent (depth + 1) item writable _ (margin_blank indent (depth + 1))
    rw [written_list] at enough ⊢
    simp only [List.length_cons, List.length_append] at enough
    have read := items_read (margin_blank indent depth) members [] rest fuel
      (by simp only [List.length_append, List.length_singleton]; omega)
    rw [opens] at read skipped ⊢
    simp only [List.cons_append, List.append_assoc, List.nil_append] at read skipped ⊢
    rw [value_list shallow (skipped _) bracket]
    exact read

theorem readBack_object {members : List (Units × Json)} (shallow : depth < maxDepth)
    (distinct : (members.map Prod.fst).Nodup)
    (readBack : ∀ f ∈ members, Writable (depth + 1) f.2 ∧ ReadBack indent (depth + 1) f.2) :
    ReadBack indent depth (object members) := by
  intro rest fuel _ enough
  have filled := @written_filled indent depth _ (.object shallow distinct fun f member => (readBack f member).1)
  obtain ⟨fuel, rfl⟩ : ∃ less, fuel = less + 1 := ⟨fuel - 1, by omega⟩
  cases members with
  | nil =>
    rw [written_of_put "\x7b\x7d" (by simp only [put])]
    exact value_empty_object shallow rest fuel
  | cons f later =>
    have skipped (after : List Char) : skipSpace (margin indent (depth + 1) ++ (writtenField indent (depth + 1) f ++ after)) =
        writtenField indent (depth + 1) f ++ after := skipSpace_blank (margin_blank indent (depth + 1)) rfl _
    rw [written_object] at enough ⊢
    simp only [List.length_cons, List.length_append] at enough
    have read := @fields_read indent (depth + 1) _ (margin_blank indent depth) f later readBack [] distinct rest fuel
      (by simp only [List.length_append, List.length_singleton]; omega)
    simp only [List.cons_append, List.append_assoc, List.nil_append] at read ⊢
    rw [value_object shallow (skipped _) (by decide)]
    exact read

theorem readBack_of_writable {j : Json} (writable : Writable depth j) : ReadBack indent depth j := by
  have plain {depth : ℕ} {j : Json} (writable : Writable depth j) (noList : ∀ items, j ≠ list items)
      (noObject : ∀ fields, j ≠ object fields) : ReadBack indent depth j := by
    obtain ⟨items, same⟩ | ⟨fields, same⟩ | read := @simple_written indent depth j writable
    · exact absurd same (noList items)
    · exact absurd same (noObject fields)
    · exact readBack_of_simple read
  induction writable with
  | null => exact plain .null nofun nofun
  | bool value => exact plain (.bool value) nofun nofun
  | integer short => exact plain (.integer short) nofun nofun
  | real value => exact plain (.real value) nofun nofun
  | string units => exact plain (.string units) nofun nofun
  | list shallow members ih => exact readBack_list shallow fun item member => ⟨members item member, ih item member⟩
  | object shallow distinct members ih =>
    exact readBack_object shallow distinct fun f member => ⟨members f member, ih f member⟩

/-- What is written is parsed again, blanks behind it or not. -/
theorem parse_put {j : Json} (writable : Writable 0 j) (indent : Option ℕ) {blank : List Char} (blanks : Blank blank) :
    parse ((put indent 0 "" j).toList ++ blank) = .ok j := by
  change parse (written indent 0 j ++ blank) = .ok j
  obtain ⟨c, later, opens, visible, -⟩ := @opening_of_written indent 0 j writable
  have ends : Ends (blank ++ []) := ends_blank blanks nofun
  rw [List.append_nil] at ends
  have read := @readBack_of_writable indent 0 j writable blank (2 * (written indent 0 j ++ blank).length + 2) ends
    (by simp only [List.length_append]; omega)
  have skipped : skipSpace (written indent 0 j ++ blank) = written indent 0 j ++ blank := by
    rw [opens]
    exact skipSpace_visible visible _
  have passed : skipSpace blank = [] := by
    unfold skipSpace
    exact List.dropWhile_eq_nil_iff.mpr blanks
  unfold parse
  simp only [skipped, read, bind, Except.bind, passed]
  rfl

end Walkthrough.Json
