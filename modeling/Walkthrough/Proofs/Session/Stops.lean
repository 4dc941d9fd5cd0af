import Walkthrough.Session.Action
import Walkthrough.Session.Element

/-!
What stops an action. A sequence stops only for the reasons for which its parts stop (`Action.stopsOnly_bind`). A
session stops by failures alone, but for pauses that cannot be made (`Session.stopsOnly_pause`).
-/
namespace Walkthrough

namespace Action

variable {ε S α β : Type} {P : ε → Prop} {x : EStateM ε S α} {f : α → EStateM ε S β}

/-- The action stops for such reasons only. -/
def StopsOnly (P : ε → Prop) (x : EStateM ε S α) : Prop := ∀ s e t, x s = .error e t → P e

theorem stopsOnly_pure (a : α) : StopsOnly P (pure a : EStateM ε S α) := fun _ _ _ stopped => by cases stopped

theorem stopsOnly_throw {e : ε} (reason : P e) : StopsOnly P (throw e : EStateM ε S α) :=
  fun _ _ _ stopped => by
    cases stopped
    exact reason

theorem stopsOnly_modify (change : S → S) : StopsOnly P (modify change : EStateM ε S Unit) :=
  fun _ _ _ stopped => by cases stopped

theorem stopsOnly_get : StopsOnly P (get : EStateM ε S S) := fun _ _ _ stopped => by cases stopped

theorem stopsOnly_bind (first : StopsOnly P x) (next : ∀ a, StopsOnly P (f a)) : StopsOnly P (x >>= f) := by
  intro s e t stopped
  rcases bind_eq_error.mp stopped with stopped | ⟨a, u, -, stopped⟩
  · exact first s e t stopped
  · exact next a u e t stopped

theorem stopsOnly_ite {p : Prop} [Decidable p] {y : EStateM ε S α} (met : StopsOnly P x) (missed : StopsOnly P y) :
    StopsOnly P (if p then x else y) := by
  split
  · exact met
  · exact missed

/-- What is done unless something bars it. -/
theorem stopsOnly_barred {p : Prop} [Decidable p] {bar : EStateM ε S PUnit} (barred : StopsOnly P bar)
    (deed : StopsOnly P x) : StopsOnly P (if p then bar >>= fun _ => x else x) :=
  stopsOnly_ite (stopsOnly_bind barred fun _ => deed) deed

/-- The first of several attempts: what it yields is taken, or else the next one is made. -/
theorem stopsOnly_first {x : EStateM ε S (Option α)} {f : Option α → EStateM ε S β} (first : StopsOnly P x)
    (taken : ∀ a, StopsOnly P (f (some a))) (otherwise : StopsOnly P (f none)) : StopsOnly P (x >>= f) :=
  stopsOnly_bind first fun found => by
    cases found with
    | some a => exact taken a
    | none => exact otherwise

end Action

open Walkthrough.Action

variable {σ η ν α : Type} {P : Stop → Prop}

namespace Session

variable {page : Page σ η ν}

theorem stopsOnly_note (n : Notice) : StopsOnly P (note n : SessionM σ ν Unit) := stopsOnly_modify _

theorem stopsOnly_ask (r : Request η α) : StopsOnly P (ask page r) := fun _ _ _ stopped => by cases stopped

theorem stopsOnly_pause {seconds : Float} (refusal : ∀ r, page.refuses seconds = some r → P (.fault r.fault)) :
    StopsOnly P (pause page seconds) := by
  intro s e t stopped
  cases refused : page.refuses seconds with
  | some r =>
    rw [pause_of_refused refused] at stopped
    cases stopped
    exact refusal r refused
  | none =>
    rw [pause_of_made refused] at stopped
    cases stopped

/-- What comes after a pause comes after one that was made. -/
theorem stopsOnly_pausing {seconds : Float} {f : Unit → SessionM σ ν α}
    (refusal : ∀ r, page.refuses seconds = some r → P (.fault r.fault))
    (after : page.refuses seconds = none → StopsOnly P (f ())) : StopsOnly P (pause page seconds >>= f) := by
  intro s e t stopped
  rcases bind_eq_error.mp stopped with stopped | ⟨_, u, paused, stopped⟩
  · exact stopsOnly_pause refusal s e t stopped
  · cases refused : page.refuses seconds with
    | none => exact after refused u e t stopped
    | some r =>
      rw [pause_of_refused refused] at paused
      cases paused

theorem stopsOnly_query (strategy : Strategy) (value : String) (within : Option η) :
    StopsOnly P (query page strategy value within) := by
  unfold query
  split
  · exact stopsOnly_pure _
  · exact stopsOnly_pure _
  · refine stopsOnly_bind (stopsOnly_ask _) fun result => ?_
    cases result with
    | ok elements => exact stopsOnly_pure _
    | error reason => exact stopsOnly_bind (stopsOnly_note _) fun _ => stopsOnly_pure _

theorem stopsOnly_suits (strategy : Strategy) (element : η) : StopsOnly P (suits page strategy element) := by
  refine stopsOnly_ite (stopsOnly_bind (stopsOnly_ask _) fun result => ?_) (stopsOnly_pure _)
  cases result <;> exact stopsOnly_pure _

theorem stopsOnly_find (strategy : Strategy) (value : String) (within : Option η) :
    StopsOnly P (find page strategy value within) := by
  refine stopsOnly_bind (stopsOnly_query _ _ _) fun elements => ?_
  induction elements with
  | nil => exact stopsOnly_pure _
  | cons element later ih =>
    exact stopsOnly_bind (stopsOnly_suits _ _) fun suiting => stopsOnly_ite (stopsOnly_pure _) ih

theorem stopsOnly_findAll (strategy : Strategy) (value : String) (within : Option η) :
    StopsOnly P (findAll page strategy value within) := by
  refine stopsOnly_bind (stopsOnly_query _ _ _) fun elements => ?_
  induction elements with
  | nil => exact stopsOnly_pure _
  | cons element later ih =>
    exact stopsOnly_bind (stopsOnly_suits _ _) fun _ => stopsOnly_bind ih fun _ => stopsOnly_pure _

theorem stopsOnly_isAttached (element : η) : StopsOnly P (isAttached page element) := by
  refine stopsOnly_bind (stopsOnly_ask _) fun result => ?_
  cases result <;> exact stopsOnly_pure _

theorem stopsOnly_scrollIntoView (element : η) : StopsOnly P (scrollIntoView page element) := by
  refine stopsOnly_bind (stopsOnly_ask _) fun result => ?_
  cases result with
  | ok => exact stopsOnly_pure _
  | error reason => exact stopsOnly_note _

section Failing

variable (failing : ∀ failure, P (.failure failure))
include failing

theorem stopsOnly_demand (deed : Deed) (r : Request η α) : StopsOnly P (demand page deed r) := by
  refine stopsOnly_bind (stopsOnly_ask r) fun result => ?_
  cases result with
  | ok a => exact stopsOnly_pure a
  | error reason => exact stopsOnly_throw (failing _)

theorem stopsOnly_sendKeys (element : η) (text : String) : StopsOnly P (sendKeys page element text) :=
  stopsOnly_bind (stopsOnly_demand failing _ _) fun _ => stopsOnly_demand failing _ _

theorem stopsOnly_selectOption (element : η) (label : String) : StopsOnly P (selectOption page element label) :=
  stopsOnly_bind (stopsOnly_demand failing _ _) fun _ => stopsOnly_ite (stopsOnly_pure _) (stopsOnly_throw (failing _))

theorem stopsOnly_navigate (url : String) : StopsOnly P (navigate page url) :=
  stopsOnly_bind (stopsOnly_modify _) fun _ => stopsOnly_demand failing _ _

theorem stopsOnly_takeDialog (wanted : Answer) : StopsOnly P (takeDialog wanted : SessionM σ ν Unit) := by
  intro s e t stopped
  unfold takeDialog at stopped
  dsimp only at stopped
  split at stopped
  · cases stopped
  · cases stopped
    exact failing _

end Failing
end Session
end Walkthrough
