import Walkthrough.Proofs.Locate.FirstHit
import Walkthrough.Proofs.Session.Stops

/-!
What stops the search for an element. Besides by failures, it stops only at a pause between its attempts
(`Locator.stopsOnly_resolve`).
-/
namespace Walkthrough

open Walkthrough.Action

variable {σ η ν : Type} {P : Stop → Prop}

namespace Session

variable {page : Page σ η ν}

theorem stopsOnly_namedControl (name : String) : StopsOnly P (namedControl page name) :=
  stopsOnly_ite (stopsOnly_pure _)
    (stopsOnly_first (stopsOnly_find _ _ _) (fun _ => stopsOnly_pure _) (stopsOnly_find _ _ _))

variable (failing : ∀ failure, P (.failure failure))
include failing

theorem stopsOnly_controlAround (element : η) (depth : Nat) : StopsOnly P (controlAround page element depth) := by
  induction depth generalizing element with
  | zero => exact stopsOnly_pure _
  | succ depth ih =>
    refine stopsOnly_first (stopsOnly_demand failing _ _) (fun container => ?_) (stopsOnly_pure _)
    exact stopsOnly_first (stopsOnly_find _ _ _) (fun _ => stopsOnly_pure _) (ih container)

theorem stopsOnly_associatedControl (element : η) : StopsOnly P (associatedControl page element) := by
  refine stopsOnly_bind (stopsOnly_demand failing _ _) fun tag => ?_
  refine stopsOnly_ite (stopsOnly_pure _) ?_
  refine stopsOnly_first (stopsOnly_find _ _ _) (fun _ => stopsOnly_pure _) ?_
  have around {isLabel : Bool} :
      StopsOnly P (if isLabel then controlAround page element containerDepth else pure none) :=
    stopsOnly_ite (stopsOnly_controlAround failing _ _) (stopsOnly_pure _)
  refine stopsOnly_ite ?_ (stopsOnly_first (stopsOnly_find _ _ _) (fun _ => stopsOnly_pure _) around)
  refine stopsOnly_bind (stopsOnly_demand failing _ _) fun value => ?_
  refine stopsOnly_first (stopsOnly_namedControl _) (fun _ => stopsOnly_pure _) ?_
  exact stopsOnly_first (stopsOnly_find _ _ _) (fun _ => stopsOnly_pure _) around

theorem stopsOnly_interactionTarget (element : η) (choosing : Bool) :
    StopsOnly P (interactionTarget page element choosing) := by
  refine stopsOnly_bind (stopsOnly_demand failing _ _) fun tag => stopsOnly_ite ?_ ?_
  · exact stopsOnly_first (stopsOnly_find _ _ _) (fun _ => stopsOnly_pure _) (stopsOnly_throw (failing _))
  · refine stopsOnly_first (stopsOnly_associatedControl failing _) (fun control => ?_) (stopsOnly_pure _)
    exact stopsOnly_bind (stopsOnly_note _) fun _ => stopsOnly_pure _

end Session

namespace Locator

open Session

variable {locator : Locator σ η ν} (failing : ∀ failure, P (.failure failure))
include failing

theorem stopsOnly_hit (strategy : Strategy) (query : String) (within : Option η) :
    StopsOnly P (locator.hit strategy query within) := by
  refine stopsOnly_ite (stopsOnly_pure _) (stopsOnly_ite ?_ (stopsOnly_find _ _ _))
  refine stopsOnly_bind (stopsOnly_findAll _ _ _) fun labels => ?_
  induction labels with
  | nil => exact stopsOnly_pure _
  | cons label later ih =>
    exact stopsOnly_first (stopsOnly_associatedControl failing _) (fun _ => stopsOnly_pure _) ih

theorem stopsOnly_search (query : String) (within : Option η) : StopsOnly P (locator.search query within) := by
  unfold search
  generalize Strategy.precedence = strategies
  induction strategies with
  | nil => exact stopsOnly_pure _
  | cons strategy later ih =>
    refine stopsOnly_first (stopsOnly_hit failing _ _ _) (fun element => ?_) ih
    exact stopsOnly_bind (stopsOnly_note _) fun _ => stopsOnly_pure _

theorem stopsOnly_searchUp (query : String) (anchor : Option η) (levels : Nat) :
    StopsOnly P (locator.searchUp query anchor levels) := by
  induction levels generalizing anchor with
  | zero => cases anchor <;> exact stopsOnly_pure _
  | succ levels ih =>
    cases anchor with
    | none => exact stopsOnly_pure _
    | some anchor =>
      refine stopsOnly_first (stopsOnly_search failing _ _) (fun _ => stopsOnly_pure _) ?_
      exact stopsOnly_bind (stopsOnly_demand failing _ _) ih

theorem stopsOnly_searchPage (query : String) {delays : List Float}
    (refusal : ∀ r, locator.refused delays = some r → P (.fault r.fault)) :
    StopsOnly P (locator.searchPage query delays) := by
  induction delays with
  | nil => exact stopsOnly_pure _
  | cons delay later ih =>
    have onward (made : locator.refusal? delay = none) : StopsOnly P (locator.searchPage query later) :=
      ih fun r refused => refusal r ((cut_of_made made later).2.trans refused)
    unfold searchPage
    by_cases waits : 0 < delay
    · simp only [waits, if_true]
      refine stopsOnly_bind (stopsOnly_note _) fun _ => ?_
      refine stopsOnly_pausing (fun r refused => refusal r ?_) fun made => ?_
      · exact (cut_of_refused (by rw [refusal?, if_pos waits, refused]) later).2
      · refine stopsOnly_first (stopsOnly_search failing _ _) (fun _ => stopsOnly_pure _) (onward ?_)
        rw [refusal?, if_pos waits, made]
    · simp only [waits, if_false]
      exact stopsOnly_first (stopsOnly_search failing _ _) (fun _ => stopsOnly_pure _) (onward (if_neg waits))

/-- Besides by failures, the search for an element stops only at the first pause that is refused. -/
theorem stopsOnly_resolve (query : String) (scope : Option η)
    (refusal : ∀ r, locator.refused locator.attempts = some r → P (.fault r.fault)) :
    StopsOnly P (locator.resolve query scope) := by
  refine stopsOnly_ite (stopsOnly_bind (stopsOnly_throw (failing _)) fun _ => ?_) ?_
  all_goals
    refine stopsOnly_bind stopsOnly_get fun s => ?_
    refine stopsOnly_first (stopsOnly_searchUp failing _ _ _) (fun _ => stopsOnly_pure _) ?_
    refine stopsOnly_first (stopsOnly_searchPage failing _ refusal) (fun _ => stopsOnly_pure _) ?_
    exact stopsOnly_throw (failing _)

end Locator
end Walkthrough
