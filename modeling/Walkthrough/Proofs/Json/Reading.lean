import Walkthrough.Proofs.Decimal.Whole
import Walkthrough.Proofs.Except
import Walkthrough.Proofs.Json.Values

/-!
What is read can be written and read again (`writable_of_parse`): the reader lets nothing through that is beyond
its own bounds, and of two fields with one name it keeps one.
-/
namespace Walkthrough.Json

open Text (Units)

theorem natOf_lt {s : List Char} (digits : Digits s) : natOf s < 10 ^ s.length := by
  induction s with
  | nil => decide
  | cons c s ih =>
    have less := ih fun d member => digits d (List.mem_cons_of_mem _ member)
    have first : natOf [c] ≤ 9 := by
      have digit := Text.le_nine (digits c (List.mem_cons_self ..))
      change 10 * 0 + (c.toNat - 48) ≤ 9
      omega
    rw [← List.singleton_append, natOf_append, List.length_append, List.length_singleton, Nat.add_comm 1, Nat.pow_succ]
    calc 10 ^ s.length * natOf [c] + natOf s < 10 ^ s.length * 9 + 10 ^ s.length :=
          Nat.add_lt_add_of_le_of_lt (Nat.mul_le_mul_left _ first) less
      _ = 10 ^ s.length * 10 := by ring

theorem wholePart?_digits {s whole rest : List Char} (found : wholePart? s = some (whole, rest)) : Digits whole := by
  unfold wholePart? at found
  split at found
  · cases found
    exact digits_zeros 1
  · split at found
    · rw [List.span_eq_takeWhile_dropWhile] at found
      cases found
      exact fun c member => List.mem_takeWhile_imp member
    · cases found
  · cases found

theorem short_of_lt {n : ℕ} (less : n < 10 ^ Decimal.Numeral.maxDigits) :
    (Nat.toDigits 10 n).length ≤ Decimal.Numeral.maxDigits :=
  (Nat.length_toDigits_le_iff (by decide) (by decide)).mpr less

theorem number_writable {negative : Bool} {s rest : List Char} {j : Json} (read : number negative s = .ok (j, rest))
    (depth : ℕ) : Writable depth j := by
  unfold number at read
  split at read
  · cases read
  · rename_i whole after found
    simp only at read
    split at read
    · split at read
      · cases read
      · rename_i short
        cases read
        apply Writable.integer
        have size : (if negative then -(natOf whole : ℤ) else natOf whole).natAbs = natOf whole := by
          split <;> omega
        rw [size]
        exact short_of_lt (lt_of_lt_of_le (natOf_lt (wholePart?_digits found))
          (Nat.pow_le_pow_right (by decide) (Nat.le_of_not_lt short)))
    · cases read
      exact .real _

theorem simple_writable {s rest : List Char} {j : Json} (read : simple s = .ok (j, rest)) (depth : ℕ) :
    Writable depth j := by
  unfold simple at read
  split at read
  · rename_i after
    cases taken : stringAfter [] after with
    | error e => rw [taken] at read; cases read
    | ok r =>
      rw [taken] at read
      cases read
      exact .string _
  · split at read
    · cases read
      exact .real _
    · exact number_writable read depth
  · split at read
    · cases read
      exact .null
    · cases read
      exact .bool _
    · cases read
      exact .bool _
    · split at read
      · cases read
        exact .real _
      · cases read
        exact .real _
      · exact number_writable read depth

theorem nodup_setField {name : Units} {item : Json} {before : List (Units × Json)}
    (distinct : (before.map Prod.fst).Nodup) : ((setField name item before).map Prod.fst).Nodup := by
  unfold setField
  split
  · have same : (before.map fun f => if f.1 == name then (name, item) else f).map Prod.fst = before.map Prod.fst := by
      rw [List.map_map]
      apply List.map_congr_left
      intro f member
      change (if f.1 == name then (name, item) else f).1 = f.1
      split
      · rename_i named
        exact (eq_of_beq named).symm
      · rfl
    rw [same]
    exact distinct
  · rename_i fresh
    rw [List.map_append, List.nodup_append]
    refine ⟨distinct, List.nodup_singleton _, ?_⟩
    intro known member other last same
    rw [List.map_singleton, List.mem_singleton] at last
    obtain ⟨f, held, named⟩ := List.mem_map.mp member
    apply fresh
    exact List.any_eq_true.mpr ⟨f, held, by rw [named, same, last]; exact beq_self_eq_true _⟩

theorem mem_setField {name : Units} {item : Json} {before : List (Units × Json)} {f : Units × Json}
    (member : f ∈ setField name item before) : f ∈ before ∨ f = (name, item) := by
  unfold setField at member
  split at member
  · obtain ⟨g, held, same⟩ := List.mem_map.mp member
    split at same
    · exact Or.inr same.symm
    · exact Or.inl (same ▸ held)
  · rcases List.mem_append.mp member with held | new
    · exact Or.inl held
    · exact Or.inr (List.mem_singleton.mp new)

/-- With this much fuel, what is read of a value, of the items of a list or of the fields of an object can be
written. -/
structure ReadsWritable (fuel : ℕ) : Prop where
  value {depth : ℕ} {s rest : List Char} {j : Json} (read : value depth s fuel = .ok (j, rest)) : Writable depth j
  items {depth : ℕ} {before : List Json} {s rest : List Char} {j : Json} (shallow : depth < maxDepth)
    (known : ∀ item ∈ before, Writable (depth + 1) item) (read : items (depth + 1) before s fuel = .ok (j, rest)) :
    Writable depth j
  fields {depth : ℕ} {before : List (Units × Json)} {s rest : List Char} {j : Json} (shallow : depth < maxDepth)
    (distinct : (before.map Prod.fst).Nodup) (known : ∀ f ∈ before, Writable (depth + 1) f.2)
    (read : fields (depth + 1) before s fuel = .ok (j, rest)) : Writable depth j

theorem readsWritable (fuel : ℕ) : ReadsWritable fuel := by
  -- The three readers call each other with less fuel, so one induction carries all of them.
  induction fuel with
  | zero =>
    constructor
    · intro depth s rest j read
      cases read
    · intro depth before s rest j shallow known read
      cases read
    · intro depth before s rest j shallow distinct known read
      cases read
  | succ fuel ih =>
    constructor
    · intro depth s rest j read
      unfold value at read
      split at read
      · split at read
        · cases read
        · rename_i shallow
          split at read
          · cases read
            exact .list (Nat.lt_of_not_le shallow) (List.forall_mem_nil _)
          · exact ih.items (Nat.lt_of_not_le shallow) (by simp) read
      · split at read
        · cases read
        · rename_i shallow
          split at read
          · cases read
            exact .object (Nat.lt_of_not_le shallow) List.nodup_nil (List.forall_mem_nil _)
          · exact ih.fields (Nat.lt_of_not_le shallow) (by simp) (by simp) read
      · exact simple_writable read depth
    · intro depth before s rest j shallow known read
      unfold items at read
      obtain ⟨⟨item, after⟩, first, read⟩ := Except.bind_eq_ok.mp read
      have all : ∀ other ∈ item :: before, Writable (depth + 1) other := by
        intro other member
        rcases List.mem_cons.mp member with rfl | held
        · exact ih.value first
        · exact known other held
      simp only at read
      split at read
      · cases read
        exact .list shallow fun other member => all other (List.mem_reverse.mp member)
      · exact ih.items shallow all read
      · cases read
    · intro depth before s rest j shallow distinct known read
      unfold fields at read
      split at read
      · obtain ⟨⟨name, after⟩, -, read⟩ := Except.bind_eq_ok.mp read
        simp only at read
        split at read
        · obtain ⟨⟨item, after'⟩, first, read⟩ := Except.bind_eq_ok.mp read
          have all : ∀ f ∈ setField name item before, Writable (depth + 1) f.2 := by
            intro f member
            rcases mem_setField member with held | rfl
            · exact known f held
            · exact ih.value first
          simp only at read
          split at read
          · cases read
            exact .object shallow (nodup_setField distinct) all
          · exact ih.fields shallow (nodup_setField distinct) all read
          · cases read
        · cases read
      · cases read

theorem writable_of_parse {s : List Char} {j : Json} (read : parse s = .ok j) : Writable 0 j := by
  obtain ⟨⟨item, rest⟩, first, read⟩ := Except.bind_eq_ok.mp read
  simp only at read
  split at read
  · cases read
    exact (readsWritable _).value first
  · cases read

end Walkthrough.Json
