import Walkthrough.Proofs.Session.Extended

/-!
What actions keep and what they yield. A property of the state is kept by a sequence if its parts keep it, and what
a part yields is known to the next one (`Action.secures_bind`). Of sessions, a property is calm if it is kept by
every request but one for a border, by notes and pauses, and by whatever happens to the dialogs.
-/
namespace Walkthrough

namespace Action

variable {ε S α β : Type} {P : S → Prop} {Q : α → Prop} {R : β → Prop} {x : EStateM ε S α} {f : α → EStateM ε S β}

/-- The state keeps the property wherever the action stops, and what it yields has the other one. -/
def Secures (P : S → Prop) (x : EStateM ε S α) (Q : α → Prop) : Prop :=
  ∀ s, P s → P (final (x s)) ∧ ∀ a t, x s = .ok a t → Q a

/-- A sequence ends where its first part stops, or where the next one ends. -/
theorem ends_bind {s : S} (stopped : ∀ e t, x s = .error e t → P t)
    (next : ∀ a t, x s = .ok a t → P (final (f a t)) ∧ ∀ b u, f a t = .ok b u → R b) :
    P (final ((x >>= f) s)) ∧ ∀ b u, (x >>= f) s = .ok b u → R b := by
  simp only [bind, EStateM.bind]
  cases result : x s with
  | ok a t => exact next a t result
  | error e t => exact ⟨stopped e t result, fun _ _ ended => by cases ended⟩

theorem secures_bind (first : Secures P x Q) (next : ∀ a, Q a → Secures P (f a) R) : Secures P (x >>= f) R := by
  intro s holds
  obtain ⟨kept, yields⟩ := first s holds
  refine ends_bind (fun e t stopped => ?_) fun a t done => ?_
  · rwa [stopped] at kept
  · rw [done] at kept
    exact next a (yields a t done) t kept

/-- Wherever the action stops, the state keeps the property. -/
abbrev Maintains (P : S → Prop) (x : EStateM ε S α) : Prop := Secures P x fun _ => True

theorem maintains_bind (first : Maintains P x) (next : ∀ a, Secures P (f a) R) : Secures P (x >>= f) R :=
  secures_bind first fun a _ => next a

theorem secures_pure {a : α} (yields : Q a) : Secures P (pure a : EStateM ε S α) Q := by
  intro s holds
  refine ⟨holds, fun b t ended => ?_⟩
  obtain ⟨rfl, -⟩ := pure_eq_ok.mp ended
  exact yields

theorem secures_throw (e : ε) : Secures P (throw e : EStateM ε S α) Q :=
  fun _ holds => ⟨holds, fun _ _ ended => by cases ended⟩

theorem secures_ofExcept {x : Except ε α} : Secures P (MonadExcept.ofExcept x : EStateM ε S α) fun a => x = .ok a := by
  cases x with
  | ok a => exact secures_pure rfl
  | error e => exact secures_throw e

/-- A first part may bring about more than it finds, and what follows keeps it. -/
theorem secures_enter {P' : S → Prop}
    (first : ∀ s, P s → P (final (x s)) ∧ ∀ a t, x s = .ok a t → P' t) (weaker : ∀ s, P' s → P s)
    (next : ∀ a, Secures P' (f a) R) : Secures P (x >>= f) R := by
  intro s holds
  obtain ⟨kept, brings⟩ := first s holds
  refine ends_bind (fun e t stopped => ?_) fun a t done => ?_
  · rwa [stopped] at kept
  · obtain ⟨after, yields⟩ := next a t (brings a t done)
    exact ⟨weaker _ after, yields⟩

theorem secures_get_bind {g : S → EStateM ε S β} (next : ∀ s, P s → Secures P (g s) R) : Secures P (get >>= g) R :=
  fun s holds => next s holds s holds

theorem secures_ite {p : Prop} [Decidable p] {y : EStateM ε S α} (met : Secures P x Q) (missed : Secures P y Q) :
    Secures P (if p then x else y) Q := by
  split
  · exact met
  · exact missed

theorem Secures.mono {Q' : α → Prop} (secures : Secures P x Q) (weaker : ∀ a, Q a → Q' a) : Secures P x Q' :=
  fun s holds => ⟨(secures s holds).1, fun a t ended => weaker a ((secures s holds).2 a t ended)⟩

/-- The first of several attempts: what it yields is taken, or else the next one is made. -/
theorem secures_first {x : EStateM ε S (Option α)} {f : Option α → EStateM ε S β}
    (first : Secures P x fun found => ∀ a ∈ found, Q a) (taken : ∀ a, Q a → Secures P (f (some a)) R)
    (otherwise : Secures P (f none) R) : Secures P (x >>= f) R := by
  refine secures_bind first fun found yields => ?_
  cases found with
  | some a => exact taken a (yields a rfl)
  | none => exact otherwise

end Action

open Walkthrough.Action

variable {σ η ν α β : Type}

def Request.IsBorder : Request η α → Prop
  | .setBorder .. => True
  | _ => False

namespace Session

/-- The property is kept by all that a session does but for drawing borders. -/
structure Calm (page : Page σ η ν) (P : Session σ ν → Prop) : Prop where
  note : ∀ {s} (n : Notice), P s → P (s.record n)
  ask : ∀ {α : Type} (r : Request η α), ¬ r.IsBorder → ∀ {s}, P s → P (final (ask page r s))
  pause : ∀ (seconds : Float) {s}, P s → P (final (pause page seconds s))
  dialogs : ∀ {s} (dialogs : Dialogs), P s → P { s with dialogs }

/-- What does not depend on the session is kept. -/
theorem Calm.constant (page : Page σ η ν) (p : Prop) : Calm page fun _ => p where
  note _ holds := holds
  ask _ _ _ holds := holds
  pause _ _ holds := holds
  dialogs _ holds := holds

namespace Calm

variable {page : Page σ η ν} {P : Session σ ν → Prop} (calm : Calm page P) {Q : α → Prop}
include calm

theorem noting (n : Notice) : Maintains P (Session.note n) :=
  fun _ holds => ⟨calm.note n holds, fun _ _ _ => trivial⟩

theorem pausing (seconds : Float) : Maintains P (Session.pause page seconds) :=
  fun _ holds => ⟨calm.pause seconds holds, fun _ _ _ => trivial⟩

theorem asking {r : Request η α} (plain : ¬ r.IsBorder) {Q : Except String α → Prop}
    (told : ∀ answer s, Q (page.perform r answer s).result) : Secures P (Session.ask page r) Q := by
  refine fun s holds => ⟨calm.ask r plain holds, fun a t ended => ?_⟩
  cases ended
  exact told s.dialogs.answer s.page

theorem demanding {deed : Deed} {r : Request η α} (plain : ¬ r.IsBorder)
    (told : ∀ answer s a, (page.perform r answer s).result = .ok a → Q a) :
    Secures P (Session.demand page deed r) Q := by
  refine secures_bind (calm.asking plain (Q := fun result => ∀ a, result = .ok a → Q a) told) fun result yields => ?_
  cases result with
  | ok a => exact secures_pure (yields a rfl)
  | error reason => exact secures_throw _

theorem demand (deed : Deed) (r : Request η α) (plain : ¬ r.IsBorder) :
    Maintains P (Session.demand page deed r) := calm.demanding plain fun _ _ _ _ => trivial

theorem scrollIntoView (element : η) : Maintains P (Session.scrollIntoView page element) := by
  refine maintains_bind (calm.asking id fun _ _ => trivial) fun result => ?_
  cases result with
  | ok => exact secures_pure trivial
  | error reason => exact calm.noting _

theorem sendKeys (element : η) (text : String) : Maintains P (Session.sendKeys page element text) :=
  maintains_bind (calm.demand _ _ id) fun _ => calm.demand _ _ id

theorem selectOption (element : η) (label : String) :
    Maintains P (Session.selectOption page element label) := by
  refine maintains_bind (calm.demand _ _ id) fun chosen => ?_
  cases chosen with
  | true => exact secures_pure trivial
  | false => exact secures_throw _

theorem navigate (url : String) : Maintains P (Session.navigate page url) := by
  have dropped : Maintains P (modify fun s => { s with dialogs := s.dialogs.dropAll } : SessionM σ ν Unit) :=
    fun _ holds => ⟨calm.dialogs _ holds, fun _ _ _ => trivial⟩
  exact maintains_bind dropped fun _ => calm.demand _ _ id

theorem takeDialog (wanted : Answer) : Maintains P (Session.takeDialog wanted) := by
  refine fun s holds => ⟨?_, fun _ _ _ => trivial⟩
  rw [final_takeDialog]
  exact calm.dialogs _ holds

end Calm
end Session
end Walkthrough
