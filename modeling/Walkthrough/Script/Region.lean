import Walkthrough.Script.Basic

/-!
What the tables of a script hold. `handler?_eq_some_iff` and `handler?_eq_none_iff` say that the first
table names the least handler not before a statement, and `regionStart_spec` that the second names the
place after the last handler before it. The two agree on a region: from where the region of a handler
begins, that handler is the nearest one (`handler?_regionStart`). The number of handlers still ahead,
`handlersFrom`, is constant in a region and drops behind its handler.
-/
namespace Walkthrough

def HandlerAt (statements : List Statement) (i : Nat) : Prop :=
  ∃ s, statements[i]? = some s ∧ s.isHandler = true

def handlersFrom (statements : List Statement) (i : Nat) : Nat :=
  (statements.drop i).countP (·.isHandler)

theorem HandlerAt.lt {statements : List Statement} {i : Nat} (h : HandlerAt statements i) :
    i < statements.length := by
  obtain ⟨s, found, -⟩ := h
  exact (List.getElem?_eq_some_iff.mp found).1

theorem handlerTable_join (index i : Nat) (statements : List Statement) :
    (handlerTable index statements)[i]?.join =
      ((statements.drop i).findIdx? (·.isHandler)).map (index + i + ·) := by
  induction statements generalizing index i with
  | nil => simp [handlerTable]
  | cons s later ih =>
    cases i with
    | zero =>
      have next := ih (index + 1) 0
      simp only [List.drop_zero, ← List.head?_eq_getElem?] at next
      simp only [handlerTable, List.getElem?_cons_zero, Option.join_some, List.drop_zero,
        List.findIdx?_cons]
      split
      · simp
      · rw [next, Option.map_map]
        congr 1
        funext n
        simp only [Function.comp]
        omega
    | succ i =>
      have next := ih (index + 1) i
      simp only [handlerTable, List.getElem?_cons_succ, List.drop_succ_cons, next]
      congr 1
      funext n
      omega

namespace Script

theorem handler?_eq (s : Script) (i : Nat) :
    s.handler? i = ((s.statements.drop i).findIdx? (·.isHandler)).map (i + ·) := by
  rw [handler?, s.handlers_eq, handlerTable_join]
  simp

theorem handler?_eq_some_iff {s : Script} {i h : Nat} :
    s.handler? i = some h ↔
      i ≤ h ∧ HandlerAt s.statements h ∧ ∀ j, i ≤ j → j < h → ¬ HandlerAt s.statements j := by
  rw [handler?_eq, Option.map_eq_some_iff]
  constructor
  · rintro ⟨k, found, rfl⟩
    obtain ⟨inside, handles, before⟩ := List.findIdx?_eq_some_iff_getElem.mp found
    simp only [List.length_drop] at inside
    refine ⟨by omega, ⟨s.statements[i + k], ?_, ?_⟩, ?_⟩
    · exact List.getElem?_eq_getElem _
    · simpa [List.getElem_drop] using handles
    · rintro j low high ⟨t, at_j, handling⟩
      have plain := before (j - i) (by omega)
      simp only [List.getElem_drop, show i + (j - i) = j by omega] at plain
      rw [List.getElem?_eq_getElem (by omega)] at at_j
      cases at_j
      exact plain handling
  · rintro ⟨low, handling, between⟩
    have bound := handling.lt
    obtain ⟨t, at_h, handles⟩ := handling
    rw [List.getElem?_eq_getElem bound] at at_h
    refine ⟨h - i, List.findIdx?_eq_some_iff_getElem.mpr ⟨?_, ?_, ?_⟩, by omega⟩
    · simp only [List.length_drop]
      omega
    · simp only [List.getElem_drop, show i + (h - i) = h by omega]
      cases at_h
      exact handles
    · intro j before
      simp only [List.getElem_drop]
      intro handles
      exact between (i + j) (by omega) (by omega) ⟨_, List.getElem?_eq_getElem (by omega), handles⟩

theorem handler?_eq_none_iff {s : Script} {i : Nat} :
    s.handler? i = none ↔ ∀ j, i ≤ j → ¬ HandlerAt s.statements j := by
  rw [handler?_eq, Option.map_eq_none_iff, List.findIdx?_eq_none_iff]
  constructor
  · rintro none j low ⟨t, at_j, handles⟩
    have inside : t ∈ s.statements.drop i := by
      refine List.mem_iff_getElem?.mpr ⟨j - i, ?_⟩
      rw [List.getElem?_drop, show i + (j - i) = j by omega, at_j]
    simp [none t inside] at handles
  · intro none t inside
    obtain ⟨k, at_k⟩ := List.mem_iff_getElem?.mp inside
    rw [List.getElem?_drop] at at_k
    cases handles : t.isHandler with
    | false => rfl
    | true => exact absurd ⟨t, at_k, handles⟩ (none (i + k) (by omega))

end Script

theorem regionTable_spec (before later : List Statement) {start i r : Nat}
    (inside : start ≤ before.length)
    (region : ∀ j, start ≤ j → j < before.length → ¬ HandlerAt (before ++ later) j)
    (bounded : start = 0 ∨ HandlerAt (before ++ later) (start - 1))
    (found : (regionTable start before.length later)[i]? = some r) :
    r ≤ before.length + i ∧
      (∀ j, r ≤ j → j < before.length + i → ¬ HandlerAt (before ++ later) j) ∧
      (r = 0 ∨ HandlerAt (before ++ later) (r - 1)) := by
  induction later generalizing before start i with
  | nil => simp [regionTable] at found
  | cons s later ih =>
    cases i with
    | zero =>
      have : start = r := by simpa [regionTable] using found
      subst this
      exact ⟨by omega, fun j low high => region j low (by omega), bounded⟩
    | succ i =>
      have shape : before ++ s :: later = (before ++ [s]) ++ later := by simp
      have size : (before ++ [s]).length = before.length + 1 := by simp
      have here : (before ++ s :: later)[before.length]? = some s := by simp
      rw [shape] at region bounded here ⊢
      rw [show before.length + (i + 1) = (before ++ [s]).length + i by omega]
      simp only [regionTable, List.getElem?_cons_succ, ← size] at found
      refine ih _ ?_ ?_ ?_ found
      · split <;> omega
      · intro j low high
        split at low
        · omega
        · next plain =>
          rcases Nat.lt_or_ge j before.length with earlier | last
          · exact region j low earlier
          · rintro ⟨t, at_j, handles⟩
            have : j = before.length := by omega
            subst this
            rw [here] at at_j
            cases at_j
            exact plain handles
      · split
        · next handles => exact Or.inr ⟨s, by simp, handles⟩
        · exact bounded

namespace Script

theorem getElem?_regions {s : Script} {i : Nat} (inside : i < s.length) :
    s.regions[i]? = some (s.regionStart i) := by
  have bound : i < s.regions.length := by
    rw [s.regions_eq, length_regionTable]
    exact inside
  rw [regionStart, List.getElem?_eq_getElem bound, Option.getD_some]

theorem regionStart_spec {s : Script} {i : Nat} (inside : i < s.length) :
    s.regionStart i ≤ i ∧
      (∀ j, s.regionStart i ≤ j → j < i → ¬ HandlerAt s.statements j) ∧
      (s.regionStart i = 0 ∨ HandlerAt s.statements (s.regionStart i - 1)) := by
  have entry := getElem?_regions inside
  rw [s.regions_eq] at entry
  simpa using regionTable_spec [] s.statements (Nat.le_refl 0)
    (fun j _ high => absurd high (by simp)) (Or.inl rfl) entry

theorem regionStart_eq {s : Script} {r i : Nat} (low : r ≤ i) (inside : i < s.length)
    (region : ∀ j, r ≤ j → j < i → ¬ HandlerAt s.statements j)
    (bounded : r = 0 ∨ HandlerAt s.statements (r - 1)) : s.regionStart i = r := by
  obtain ⟨start_le, plain, start_bounded⟩ := regionStart_spec inside
  rcases Nat.lt_trichotomy (s.regionStart i) r with earlier | same | later
  · rcases bounded with zero | handling
    · omega
    · exact absurd handling (plain (r - 1) (by omega) (by omega))
  · exact same
  · rcases start_bounded with zero | handling
    · omega
    · exact absurd handling (region (s.regionStart i - 1) (by omega) (by omega))

theorem regionStart_le {s : Script} {i h : Nat} (named : s.handler? i = some h) :
    s.regionStart h ≤ i := by
  obtain ⟨-, handling, between⟩ := handler?_eq_some_iff.mp named
  obtain ⟨-, -, bounded⟩ := regionStart_spec (s := s) handling.lt
  have start_le := (regionStart_spec (s := s) handling.lt).1
  rcases bounded with zero_eq | bounded
  · omega
  · apply Nat.le_of_not_lt
    intro beyond
    exact between (s.regionStart h - 1) (by omega) (by omega) bounded

theorem handler?_regionStart {s : Script} {i h : Nat} (named : s.handler? i = some h) :
    s.handler? (s.regionStart h) = some h := by
  obtain ⟨-, handling, -⟩ := handler?_eq_some_iff.mp named
  obtain ⟨low, region, -⟩ := regionStart_spec (s := s) handling.lt
  exact handler?_eq_some_iff.mpr ⟨low, handling, region⟩

theorem handler?_succ {s : Script} {i : Nat} (plain : ¬ HandlerAt s.statements i) :
    s.handler? (i + 1) = s.handler? i := by
  cases named : s.handler? i with
  | none =>
    rw [handler?_eq_none_iff] at named ⊢
    exact fun j low => named j (by omega)
  | some h =>
    rw [handler?_eq_some_iff] at named ⊢
    obtain ⟨low, handling, between⟩ := named
    have : i ≠ h := fun same => plain (same ▸ handling)
    exact ⟨by omega, handling, fun j above below => between j (by omega) below⟩

end Script

theorem handlersFrom_succ_of_plain {statements : List Statement} {i : Nat}
    (plain : ¬ HandlerAt statements i) : handlersFrom statements (i + 1) = handlersFrom statements i := by
  unfold handlersFrom
  rcases Nat.lt_or_ge i statements.length with inside | outside
  · rw [List.drop_eq_getElem_cons inside, List.countP_cons_of_neg]
    exact fun handles => plain ⟨_, List.getElem?_eq_getElem inside, handles⟩
  · rw [List.drop_eq_nil_of_le outside, List.drop_eq_nil_of_le (by omega)]

theorem handlersFrom_succ_of_handler {statements : List Statement} {i : Nat}
    (handling : HandlerAt statements i) :
    handlersFrom statements (i + 1) < handlersFrom statements i := by
  have inside := handling.lt
  obtain ⟨s, at_i, handles⟩ := handling
  rw [List.getElem?_eq_getElem inside] at at_i
  cases at_i
  unfold handlersFrom
  rw [List.drop_eq_getElem_cons inside, List.countP_cons_of_pos (by simpa using handles)]
  omega

theorem handlersFrom_eq_of_region {statements : List Statement} {r i : Nat} (low : r ≤ i)
    (region : ∀ j, r ≤ j → j < i → ¬ HandlerAt statements j) :
    handlersFrom statements r = handlersFrom statements i := by
  induction i with
  | zero => rw [show r = 0 by omega]
  | succ i ih =>
    rcases Nat.lt_or_ge i r with last | earlier
    · rw [show r = i + 1 by omega]
    · rw [ih earlier fun j above below => region j above (by omega),
        handlersFrom_succ_of_plain (region i earlier (by omega))]

namespace Script

theorem handlersFrom_lt {s : Script} {i h : Nat} (named : s.handler? i = some h) :
    handlersFrom s.statements (h + 1) < handlersFrom s.statements i := by
  obtain ⟨low, handling, between⟩ := handler?_eq_some_iff.mp named
  rw [handlersFrom_eq_of_region low between]
  exact handlersFrom_succ_of_handler handling

theorem handlersFrom_regionStart {s : Script} {i h : Nat} (named : s.handler? i = some h) :
    handlersFrom s.statements (s.regionStart h) = handlersFrom s.statements i := by
  obtain ⟨low, handling, between⟩ := handler?_eq_some_iff.mp named
  obtain ⟨start_low, region, -⟩ := regionStart_spec (s := s) handling.lt
  rw [handlersFrom_eq_of_region low between, handlersFrom_eq_of_region start_low region]

end Script
end Walkthrough
