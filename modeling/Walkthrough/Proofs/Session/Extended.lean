import Walkthrough.Proofs.Session.Alike

/-!
Pages that also keep something. A page extends another one if it does what the other one does and only
keeps more; then whatever a session does with it goes as it would with the other page.
-/
namespace Walkthrough

open Walkthrough.Action Session

variable {σ τ η ν α ε : Type}

structure Page.Extends (page' : Page (σ × τ) η ν) (page : Page σ η ν) : Prop where
  perform : ∀ {α : Type} (r : Request η α) (answer : Answer) (s : σ × τ), ∃ kept,
    page'.perform r answer s =
      ⟨(page.perform r answer s.1).result, (page.perform r answer s.1).happenings,
        ((page.perform r answer s.1).state, kept)⟩
  sleep : ∀ (seconds : Float) (answer : Answer) (s : σ × τ), ∃ kept,
    page'.sleep seconds answer s =
      ((page.sleep seconds answer s.1).1, ((page.sleep seconds answer s.1).2, kept))
  refuses : ∀ seconds, page'.refuses seconds = page.refuses seconds
  levels : ∀ s : σ × τ, page'.levels s = page.levels s.1

namespace Session

theorem page_absorb (s : Session σ ν) (happening : Happening ν) : (s.absorb happening).page = s.page := by
  cases happening with
  | note n => rfl
  | dialog message refusal => cases refusal <;> rfl

theorem page_absorbAll (happenings : List (Happening ν)) (s : Session σ ν) :
    (s.absorbAll happenings).page = s.page := by
  induction happenings generalizing s with
  | nil => rfl
  | cons happening later ih => exact (ih _).trans (page_absorb s happening)

theorem bare_absorb (s : Session (σ × τ) ν) (happening : Happening ν) :
    (s.absorb happening).bare = s.bare.absorb happening := by
  cases happening with
  | note n => rfl
  | dialog message refusal => cases refusal <;> rfl

theorem bare_absorbAll (happenings : List (Happening ν)) (s : Session (σ × τ) ν) :
    (s.absorbAll happenings).bare = s.bare.absorbAll happenings := by
  induction happenings generalizing s with
  | nil => rfl
  | cons happening later ih =>
    have once := bare_absorb s happening
    exact (ih (s.absorb happening)).trans (congrArg (absorbAll · later) once)

/-- What is done with the answer to a request leaves the session alone. -/
theorem final_demand (page : Page σ η ν) (deed : Deed) (r : Request η α) (s : Session σ ν) :
    final (demand page deed r s) = final (ask page r s) := by
  have asked : ask page r s = .ok (page.perform r s.dialogs.answer s.page).result (final (ask page r s)) :=
    rfl
  unfold demand
  rw [bind_of_ok asked]
  cases (page.perform r s.dialogs.answer s.page).result <;> rfl

/-- What happens during a pause; nothing does if it is not made. -/
def during (page : Page σ η ν) (seconds : Float) (s : Session σ ν) : List (Happening ν) :=
  match page.refuses seconds with
  | some _ => []
  | none => (page.sleep seconds s.dialogs.answer s.page).1

/-- What becomes of the page meanwhile. -/
def rested (page : Page σ η ν) (seconds : Float) (s : Session σ ν) : σ :=
  match page.refuses seconds with
  | some _ => s.page
  | none => (page.sleep seconds s.dialogs.answer s.page).2

theorem final_pause (page : Page σ η ν) (seconds : Float) (s : Session σ ν) :
    final (pause page seconds s) = { s with page := rested page seconds s }.absorbAll (during page seconds s) := by
  unfold rested during
  cases refused : page.refuses seconds with
  | some refusal =>
    rw [pause_of_refused refused]
    rfl
  | none =>
    rw [pause_of_made refused]
    rfl

/-- Without what is kept besides, the first session is the second. -/
abbrev Bares (a : Session (σ × τ) ν) (b : Session σ ν) : Prop := a.bare = b

variable {page' : Page (σ × τ) η ν} {page : Page σ η ν}

theorem ask_bares (more : page'.Extends page) (r : Request η α) :
    Together Bares (ask page' r) (ask page r) := by
  rintro s _ rfl
  obtain ⟨kept, performed⟩ := more.perform r s.dialogs.answer s.page
  unfold ask
  rw [performed]
  exact .ok _ (bare_absorbAll _ _)

theorem demand_bares (more : page'.Extends page) (deed : Deed) (r : Request η α) :
    Together Bares (demand page' deed r) (demand page deed r) := by
  refine alike_bind (ask_bares more r) fun result => ?_
  cases result with
  | ok a => exact alike_pure a
  | error reason => exact alike_throw _

theorem final_takeDialog (wanted : Answer) (s : Session σ ν) :
    final (takeDialog wanted s) = { s with dialogs := (s.dialogs.take wanted).2 } := by
  unfold takeDialog
  generalize s.dialogs.take wanted = taken
  obtain ⟨result, dialogs⟩ := taken
  cases result <;> rfl

theorem succeeded_takeDialog (wanted : Answer) (s : Session σ ν) :
    succeeded (takeDialog wanted s) = true ↔ (s.dialogs.take wanted).1 = .ok () := by
  unfold takeDialog
  generalize s.dialogs.take wanted = taken
  obtain ⟨result, dialogs⟩ := taken
  cases result <;> simp [succeeded]

theorem takeDialog_bares (wanted : Answer) :
    Together (Bares : Session (σ × τ) ν → Session σ ν → Prop) (takeDialog wanted) (takeDialog wanted) := by
  rintro s _ rfl
  have same : s.bare.dialogs = s.dialogs := rfl
  unfold takeDialog
  rw [same]
  generalize s.dialogs.take wanted = taken
  obtain ⟨result, dialogs⟩ := taken
  cases result with
  | ok => exact .ok () rfl
  | error failure => exact .error _ rfl

theorem pause_bares (more : page'.Extends page) (seconds : Float) :
    Together Bares (pause page' seconds) (pause page seconds) := by
  rintro s _ rfl
  obtain ⟨kept, slept⟩ := more.sleep seconds s.dialogs.answer s.page
  cases refused : page.refuses seconds with
  | some refusal =>
    rw [pause_of_refused ((more.refuses seconds).trans refused), pause_of_refused refused]
    exact .error _ rfl
  | none =>
    rw [pause_of_made ((more.refuses seconds).trans refused), pause_of_made refused, slept]
    exact .ok () (bare_absorbAll _ _)

theorem tied_bares (more : page'.Extends page) : Tied page' page Bares where
  levels same := same ▸ more.levels _
  note _ same := same ▸ rfl
  ask r _ := ask_bares more r
  pause seconds := pause_bares more seconds

end Session

namespace Action

variable {S T : Type} {p : S → T} {x : EStateM ε S α} {y : EStateM ε T α}

/-- An action that goes like another one, whenever the other's state is a view of its own, mirrors it. -/
theorem mirrors_of_alike {tie : S → T → Prop} (view : ∀ {s t}, tie s t ↔ p s = t) (alike : Alike tie x y) :
    Mirrors p x y := by
  intro s
  have ends := alike s (p s) (view.mpr rfl)
  generalize x s = r, y (p s) = r' at ends
  cases ends with
  | ok a tied => exact congrArg (EStateM.Result.ok a) (view.mp tied)
  | error e tied => exact congrArg (EStateM.Result.error e) (view.mp tied)

theorem alike_of_mirrors {tie : S → T → Prop} (view : ∀ {s t}, tie s t ↔ p s = t) (mirrors : Mirrors p x y) :
    Alike tie x y := by
  intro s t tied
  have same := mirrors s
  rw [← view.mp tied, ← same]
  cases x s with
  | ok a s' => exact .ok a (view.mpr rfl)
  | error e s' => exact .error e (view.mpr rfl)

end Action
end Walkthrough
