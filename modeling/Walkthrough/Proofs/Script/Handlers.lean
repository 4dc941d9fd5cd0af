import Mathlib.Order.Bounds.Basic
import Walkthrough.Script.Region

/-!
The tables of a script, entry by entry. The entry of a statement in the first table is the least place of a handler
from it on, and that in the second one is one past the greatest place of a handler before it. Of a statement that has
a handler, both tables tell the same region (`tables_tell_regions`).
-/
namespace Walkthrough.Script

variable {s : Script} {i h r : Nat}

theorem getElem?_handlers (inside : i < s.length) : s.handlers[i]? = some (s.handler? i) := by
  have bound : i < s.handlers.length := by
    rw [s.handlers_eq, length_handlerTable]
    exact inside
  rw [handler?, List.getElem?_eq_getElem bound, Option.join_some]

theorem handler?_eq_some_iff_isLeast :
    s.handler? i = some h ↔ IsLeast {j | i ≤ j ∧ HandlerAt s.statements j} h := by
  rw [handler?_eq_some_iff]
  constructor
  · rintro ⟨low, handling, between⟩
    refine ⟨⟨low, handling⟩, ?_⟩
    rintro j ⟨above, handling'⟩
    exact Nat.le_of_not_lt fun below => between j above below handling'
  · rintro ⟨⟨low, handling⟩, least⟩
    exact ⟨low, handling, fun j above below handling' => Nat.not_lt.mpr (least ⟨above, handling'⟩) below⟩

/-- A region begins behind the last handler before it, or with the script. -/
theorem regionStart_eq_iff (inside : i < s.length) :
    s.regionStart i = r ↔ (∃ g, IsGreatest {j | j < i ∧ HandlerAt s.statements j} g ∧ r = g + 1) ∨
      (∀ j, j < i → ¬ HandlerAt s.statements j) ∧ r = 0 := by
  constructor
  · rintro rfl
    obtain ⟨low, region, bounded⟩ := regionStart_spec inside
    by_cases first : s.regionStart i = 0
    · exact Or.inr ⟨fun j below => region j (first ▸ Nat.zero_le j) below, first⟩
    · refine Or.inl ⟨s.regionStart i - 1, ⟨⟨by omega, bounded.resolve_left first⟩, ?_⟩, by omega⟩
      rintro j ⟨below, handling⟩
      by_contra beyond
      exact region j (by omega) below handling
  · rintro (⟨g, ⟨⟨below, handling⟩, greatest⟩, rfl⟩ | ⟨plain, rfl⟩)
    · refine regionStart_eq below inside (fun j above below' handling' => ?_) (Or.inr handling)
      have low : j ≤ g := greatest ⟨below', handling'⟩
      omega
    · exact regionStart_eq (Nat.zero_le i) inside (fun j _ => plain j) (Or.inl rfl)

/-- Every statement of the region of a handler has the beginning of that region. -/
theorem regionStart_eq_of_handler (named : s.handler? i = some h) : s.regionStart i = s.regionStart h := by
  obtain ⟨low, handling, between⟩ := handler?_eq_some_iff.mp named
  obtain ⟨-, region, bounded⟩ := regionStart_spec (s := s) handling.lt
  have inside : i < s.length := Nat.lt_of_le_of_lt low handling.lt
  exact regionStart_eq (regionStart_le named) inside (fun j above below => region j above (by omega)) bounded

/-- For each statement, the first table has the least place of a handler from it on, if there is any, and the second
one the place behind the greatest one of a handler before it, or that of the first statement. A statement and the
handler named for it have the same beginning of their region, and between this and the handler there is no other. -/
theorem tables_tell_regions (statements : List Statement) {i : Nat} (inside : i < statements.length) :
    let s := ofStatements statements
    (∀ h, s.handlers[i]? = some (some h) ↔ IsLeast {j | i ≤ j ∧ HandlerAt statements j} h) ∧
    (s.handlers[i]? = some none ↔ ∀ j, i ≤ j → ¬ HandlerAt statements j) ∧
    (∀ r, s.regions[i]? = some r ↔ (∃ g, IsGreatest {j | j < i ∧ HandlerAt statements j} g ∧ r = g + 1) ∨
      (∀ j, j < i → ¬ HandlerAt statements j) ∧ r = 0) ∧
    ∀ h, s.handlers[i]? = some (some h) → ∃ r, s.regions[i]? = some r ∧ s.regions[h]? = some r ∧ r ≤ i ∧ i ≤ h ∧
      ∀ j, r ≤ j → j < h → ¬ HandlerAt statements j := by
  intro s
  have here : i < s.length := inside
  simp only [getElem?_handlers here, getElem?_regions here, Option.some.injEq]
  refine ⟨fun h => handler?_eq_some_iff_isLeast, handler?_eq_none_iff, fun r => regionStart_eq_iff here, ?_⟩
  intro h named
  obtain ⟨low, handling, -⟩ := handler?_eq_some_iff.mp named
  refine ⟨s.regionStart i, rfl, ?_, (regionStart_spec here).1, low, ?_⟩
  · rw [getElem?_regions handling.lt, regionStart_eq_of_handler named]
  · rw [regionStart_eq_of_handler named]
    exact (regionStart_spec handling.lt).2.1

/-- Two regions, each with its handler, and a comment that has none. -/
def twoRegions : List Statement :=
  [⟨.run [{ verb := .refresh }], 1⟩, ⟨.handler [{ verb := .tryAgain }], 2⟩, ⟨.run [{ verb := .refresh }], 3⟩,
    ⟨.handler [{ verb := .refresh }], 4⟩, ⟨.comment "# end", 5⟩]

theorem tables_tell_regions_second : (2 < twoRegions.length) ∧
    IsLeast {j | 2 ≤ j ∧ HandlerAt twoRegions j} 3 ∧ IsGreatest {j | j < 2 ∧ HandlerAt twoRegions j} 1 ∧
    (ofStatements twoRegions).regions[3]? = some 2 := by
  have inside : 2 < twoRegions.length := by decide
  obtain ⟨least, -, start, agree⟩ := tables_tell_regions twoRegions inside
  have named : (ofStatements twoRegions).handlers[2]? = some (some 3) := rfl
  have begins : (ofStatements twoRegions).regions[2]? = some 2 := rfl
  refine ⟨inside, (least 3).mp named, ?_, ?_⟩
  · rcases (start 2).mp begins with ⟨g, greatest, same⟩ | ⟨-, zero⟩
    · rwa [show (1 : Nat) = g by omega]
    · cases zero
  · obtain ⟨r, at_two, at_three, -⟩ := agree 3 named
    rw [at_three, ← at_two, begins]

end Walkthrough.Script
