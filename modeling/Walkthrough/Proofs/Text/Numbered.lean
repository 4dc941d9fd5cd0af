import Mathlib.Data.List.Basic

/-!
Numbered texts. A number is written with digits only, so it can be told from a text that it stands behind, if there is
a separator between them (`eq_of_last`, `numbered_inj`).
-/
namespace Walkthrough.Text

theorem append_cons_inj {α : Type} {c : α} {s t s' t' : List α} (same : s ++ c :: t = s' ++ c :: t') (first : c ∉ s)
    (second : c ∉ s') : s = s' ∧ t = t' := by
  rcases List.append_eq_append_iff.mp same with ⟨between, rfl, rest⟩ | ⟨between, rfl, rest⟩
  · cases between with
    | nil => simpa using rest
    | cons d between =>
      obtain rfl := (List.cons.inj rest).1
      simp at second
  · cases between with
    | nil => simpa [eq_comm] using rest
    | cons d between =>
      obtain rfl := (List.cons.inj rest).1
      simp at first

theorem not_mem_append {c : Char} {s t : String} (front : c ∉ s.toList) (back : c ∉ t.toList) :
    c ∉ (s ++ t).toList := by
  rw [String.toList_append]
  exact List.not_mem_append front back

theorem toList_toString (n : Nat) : (toString n).toList = Nat.toDigits 10 n := Nat.toList_repr

theorem isDigit_toString {n : Nat} : ∀ c ∈ (toString n).toList, c.isDigit = true := by
  intro c listed
  rw [toList_toString] at listed
  exact Nat.isDigit_of_mem_toDigits (by decide) (by decide) listed

theorem not_mem_toString {c : Char} (other : c.isDigit = false) (n : Nat) : c ∉ (toString n).toList := by
  intro listed
  have digit := isDigit_toString c listed
  rw [other] at digit
  cases digit

theorem toString_inj {m n : Nat} (same : toString m = toString n) : m = n := by
  have digits := congrArg String.toList same
  rw [toList_toString, toList_toString] at digits
  have values := congrArg (Nat.ofDigitChars 10 · 0) digits
  simpa only [Nat.ofDigitChars_ten_toDigits] using values

/-- What stands behind the last separator can be told from what stands before it. -/
theorem eq_of_last {c : Char} {s t s' t' : String}
    (same : s ++ String.singleton c ++ t = s' ++ String.singleton c ++ t') (last : c ∉ t.toList)
    (last' : c ∉ t'.toList) : s = s' ∧ t = t' := by
  have chars := congrArg (fun text : String => text.toList.reverse) same
  simp only [String.toList_append, String.toList_singleton, List.append_assoc, List.singleton_append,
    List.reverse_append, List.reverse_cons] at chars
  have plain {text : String} (absent : c ∉ text.toList) : c ∉ text.toList.reverse := fun listed =>
    absent (List.mem_reverse.mp listed)
  obtain ⟨back, front⟩ := append_cons_inj chars (plain last) (plain last')
  exact ⟨String.toList_inj.mp (List.reverse_inj.mp front), String.toList_inj.mp (List.reverse_inj.mp back)⟩

theorem numbered_inj {s t : String} {i j : Nat} (same : s ++ "_" ++ toString i = t ++ "_" ++ toString j) :
    s = t ∧ i = j := by
  have none (n : Nat) : '_' ∉ (toString n).toList := not_mem_toString (by decide) n
  obtain ⟨front, number⟩ := eq_of_last (c := '_') same (none i) (none j)
  exact ⟨front, toString_inj number⟩

end Walkthrough.Text
