import Walkthrough.Text.Blank

/-!
Splitting a text, and its words. What a text is split at is in none of its pieces, and all else is in one of them. The
words of a text are the pieces between its blanks that are not empty, so its compacted form has no blank but spaces.
-/
namespace Walkthrough.Text

section Split

variable {α : Type} {p q : α → Bool}

theorem not_of_mem_splitOnP {s piece : List α} (among : piece ∈ s.splitOnP p) : ∀ a ∈ piece, p a = false := by
  induction s generalizing piece with
  | nil =>
    obtain rfl : piece = [] := by simpa using among
    exact List.forall_mem_nil _
  | cons a rest ih =>
    rw [List.splitOnP_cons_eq_if_modifyHead] at among
    split at among
    · rcases List.mem_cons.mp among with rfl | later
      · exact List.forall_mem_nil _
      · exact ih later
    · next other =>
      obtain ⟨first, later, split⟩ := List.exists_cons_of_ne_nil (List.splitOnP_ne_nil p rest)
      rw [split, List.modifyHead_cons] at among
      rcases List.mem_cons.mp among with rfl | behind
      · exact List.forall_mem_cons.mpr ⟨by simpa using other, ih (split ▸ List.mem_cons_self)⟩
      · exact ih (split ▸ List.mem_cons_of_mem first behind)

theorem exists_mem_splitOnP {s : List α} {a : α} (listed : a ∈ s) (other : p a = false) :
    ∃ piece ∈ s.splitOnP p, a ∈ piece := by
  induction s with
  | nil => cases listed
  | cons b rest ih =>
    rw [List.splitOnP_cons_eq_if_modifyHead]
    obtain ⟨first, later, split⟩ := List.exists_cons_of_ne_nil (List.splitOnP_ne_nil p rest)
    split
    · next here =>
      have further : a ∈ rest := (List.mem_cons.mp listed).resolve_left fun same => by simp [← same, other] at here
      obtain ⟨piece, among, inside⟩ := ih further
      exact ⟨piece, List.mem_cons_of_mem [] among, inside⟩
    · rw [split, List.modifyHead_cons]
      rcases List.mem_cons.mp listed with rfl | further
      · exact ⟨a :: first, List.mem_cons_self, List.mem_cons_self⟩
      · obtain ⟨piece, among, inside⟩ := ih further
        rcases List.mem_cons.mp (split ▸ among) with rfl | behind
        · exact ⟨b :: piece, List.mem_cons_self, List.mem_cons_of_mem b inside⟩
        · exact ⟨piece, List.mem_cons_of_mem _ behind, inside⟩

theorem splitOnP_congr {s : List α} (same : ∀ a ∈ s, p a = q a) : s.splitOnP p = s.splitOnP q := by
  induction s with
  | nil => simp
  | cons a rest ih =>
    obtain ⟨here, later⟩ := List.forall_mem_cons.mp same
    rw [List.splitOnP_cons_eq_if_modifyHead, List.splitOnP_cons_eq_if_modifyHead, here, ih later]

end Split

theorem putWord_eq (word : List Char) (later : List (List Char)) :
    putWord word (later.filter fun w => !w.isEmpty) = (word.reverse :: later).filter fun w => !w.isEmpty := by
  unfold putWord
  cases word <;> simp

theorem wordsAfter_eq (s word : List Char) :
    wordsAfter word s = ((s.splitOnP isBlank).modifyHead (word.reverse ++ ·)).filter fun w => !w.isEmpty := by
  induction s generalizing word with
  | nil => simpa [wordsAfter] using putWord_eq word []
  | cons c rest ih =>
    obtain ⟨first, later, split⟩ := List.exists_cons_of_ne_nil (List.splitOnP_ne_nil isBlank rest)
    rw [wordsAfter, List.splitOnP_cons_eq_if_modifyHead]
    split
    · rw [ih [], List.modifyHead_cons, List.append_nil, ← putWord_eq]
      simp [split]
    · rw [ih (c :: word), split]
      simp

/-- The words are the pieces between blanks that are not empty. -/
theorem words_eq_splitOnP (s : List Char) : words s = (s.splitOnP isBlank).filter fun w => !w.isEmpty := by
  obtain ⟨first, later, split⟩ := List.exists_cons_of_ne_nil (List.splitOnP_ne_nil isBlank s)
  rw [words, wordsAfter_eq, split]
  rfl

theorem mem_intercalate {α : Type} {sep : List α} {lists : List (List α)} {a : α}
    (listed : a ∈ List.intercalate sep lists) : a ∈ sep ∨ ∃ l ∈ lists, a ∈ l := by
  induction lists with
  | nil => simp at listed
  | cons l later ih =>
    cases later with
    | nil =>
      rw [List.intercalate_singleton] at listed
      exact Or.inr ⟨l, List.mem_cons_self, listed⟩
    | cons next later =>
      rw [List.intercalate_cons_cons, List.append_assoc] at listed
      rcases List.mem_append.mp listed with here | listed
      · exact Or.inr ⟨l, List.mem_cons_self, here⟩
      rcases List.mem_append.mp listed with between | behind
      · exact Or.inl between
      · exact (ih behind).imp_right fun ⟨piece, among, inside⟩ => ⟨piece, List.mem_cons_of_mem l among, inside⟩

theorem mem_intercalate_of_mem {α : Type} (sep : List α) {lists : List (List α)} {l : List α} {a : α}
    (among : l ∈ lists) (inside : a ∈ l) : a ∈ List.intercalate sep lists := by
  induction lists with
  | nil => cases among
  | cons first later ih =>
    cases later with
    | nil =>
      obtain rfl := List.mem_singleton.mp among
      rwa [List.intercalate_singleton]
    | cons next later =>
      rw [List.intercalate_cons_cons]
      rcases List.mem_cons.mp among with rfl | behind
      · exact List.mem_append_left _ (List.mem_append_left _ inside)
      · exact List.mem_append_right _ (ih behind)

/-- A compacted text has no blank but spaces. -/
theorem eq_space_of_mem_compact {s : List Char} {c : Char} (listed : c ∈ compact s) (blank : isBlank c = true) :
    c = ' ' := by
  rcases mem_intercalate listed with space | ⟨word, among, inside⟩
  · exact List.mem_singleton.mp space
  · rw [words_eq_splitOnP] at among
    have filled := not_of_mem_splitOnP (List.mem_filter.mp among).1 c inside
    rw [blank] at filled
    cases filled

theorem cut_of_length_le {limit : Nat} {s : List Char} (short : s.length ≤ limit) : cut limit s = s := by
  have notNegative : ¬ ((limit : Int) < 0) := by omega
  rw [cut, if_neg notNegative, Int.toNat_natCast]
  exact List.take_of_length_le short

theorem cut_subset (limit : Int) (s : List Char) : cut limit s ⊆ s := by
  unfold cut
  split <;> exact List.take_subset _ _

end Walkthrough.Text
