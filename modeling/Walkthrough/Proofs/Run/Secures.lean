import Walkthrough.Proofs.Session.Secures
import Walkthrough.Run.Perform

/-!
What actions of a run keep and what they yield. A property of the memory and the session is kept by an action of
the session if that keeps it for each memory, and by writing into the memory if the memory as it is then has it
too. Every command keeps a property (`Setup.Tends.act`) that is calm, does not look at more of the memory than
the scope and the located element, and is kept where these change: where the located element is found again,
exchanged for what it means, or located.
-/
namespace Walkthrough

open Walkthrough.Action Session

variable {σ η ν α β : Type}

namespace RunM

variable {L : Memory η → Session σ ν → Prop} {Q : α → Prop} {R : β → Prop}

/-- The memory and the session of a state have the property together. -/
abbrev On (L : Memory η → Session σ ν → Prop) (s : RunState σ η ν) : Prop := L s.memory s.session

theorem secures_onSession {y : SessionM σ ν α} (each : ∀ m, Secures (L m) y Q) :
    Secures (On L) (onSession y : RunM σ η ν α) Q := by
  intro s holds
  obtain ⟨kept, yields⟩ := each s.memory s.session holds
  unfold onSession
  cases result : y s.session with
  | ok a t =>
    rw [result] at kept
    refine ⟨kept, fun b u ended => ?_⟩
    cases ended
    exact yields a t result
  | error failure t =>
    rw [result] at kept
    exact ⟨kept, fun _ _ ended => by cases ended⟩

theorem secures_memory_bind {g : Memory η → RunM σ η ν β} (next : ∀ m s, L m s → Secures (On L) (g m) R) :
    Secures (On L) (memory >>= g) R := fun s holds => next s.memory s.session holds s holds

theorem maintains_setMemory {change : Memory η → Memory η} (keeps : ∀ m s, L m s → L (change m) s) :
    Maintains (On L) (setMemory change : RunM σ η ν Unit) :=
  fun s holds => ⟨keeps s.memory s.session holds, fun _ _ _ => trivial⟩

theorem maintains_attempt {P : RunState σ η ν → Prop} {x : RunM σ η ν α} (tried : Maintains P x) :
    Maintains P (attempt x) := by
  intro s holds
  have kept := (tried s holds).1
  refine ⟨?_, fun _ _ _ => trivial⟩
  unfold attempt
  cases result : x s with
  | ok a t =>
    rw [result] at kept
    exact kept
  | error stop t =>
    rw [result] at kept
    cases stop <;> exact kept

theorem final_andFinally (x : RunM σ η ν α) (change : RunState σ η ν → RunState σ η ν) (s : RunState σ η ν) :
    final (andFinally x change s) = change (final (x s)) := by
  unfold andFinally
  cases x s <;> rfl

end RunM

namespace Setup

open RunM

variable {setup : Setup σ η ν} {L : Memory η → Session σ ν → Prop} {Q : α → Prop}

theorem onSession_secures (calm : ∀ m, Calm setup.page (L m)) {y : SessionM σ ν α}
    (each : ∀ P : Session σ ν → Prop, Calm setup.page P → Secures P y Q) : Secures (On L) (onSession y) Q :=
  secures_onSession fun m => each _ (calm m)

theorem demand_maintains (calm : ∀ m, Calm setup.page (L m)) (deed : Deed) (r : Request η α) (plain : ¬ r.IsBorder) :
    Maintains (On L) (onSession (Session.demand setup.page deed r)) :=
  onSession_secures calm fun _ calm => calm.demand deed r plain

theorem argument_maintains (c : Command) : Maintains (On L) (argument c : RunM σ η ν String) := by
  unfold argument
  cases c.param with
  | none => exact secures_throw _
  | some param =>
    refine secures_memory_bind fun m _ _ => ?_
    cases m.valueOf param with
    | ok value => exact secures_pure trivial
    | error failure => exact secures_throw _

/-- The property is kept by what tends to the session, and where the located element is found again or exchanged
for what it means. -/
structure Handles (setup : Setup σ η ν) (L : Memory η → Session σ ν → Prop) : Prop where
  calm : ∀ m, Calm setup.page (L m)
  locatedElement : Maintains (On L) (Setup.locatedElement setup)
  target : ∀ choosing, Maintains (On L) (Setup.target setup choosing)

namespace Handles

variable (handles : setup.Handles L)
include handles

theorem demand (deed : Deed) (r : Request η α) (plain : ¬ r.IsBorder) :
    Maintains (On L) (onSession (Session.demand setup.page deed r)) := demand_maintains handles.calm deed r plain

theorem clickCenter (element : η) : Maintains (On L) (Setup.clickCenter setup element) := by
  refine maintains_bind (handles.demand _ _ id) fun box => ?_
  cases box with
  | none => exact secures_throw _
  | some box => exact secures_ite (secures_throw _) (handles.demand _ _ id)

/-- Typing also gives the focus to an element, which the memory has as the one last used. -/
theorem typeText (uses : ∀ m s element, L m s → L { m with active := some element } s) (text : String) :
    Maintains (On L) (Setup.typeText setup text) := by
  have typing (element : η) : Maintains (On L) (onSession (Session.sendKeys setup.page element text)) :=
    onSession_secures handles.calm fun _ calm => calm.sendKeys element text
  refine maintains_bind (handles.target false) fun element => maintains_bind (handles.clickCenter element) fun _ => ?_
  refine maintains_bind (handles.demand _ _ id) fun focused => ?_
  refine maintains_bind (maintains_setMemory fun m s => uses m s _) fun _ => ?_
  refine maintains_bind (maintains_attempt (handles.demand _ _ id)) fun result => ?_
  cases result with
  | ok => exact typing _
  | error failure =>
    exact maintains_bind (onSession_secures handles.calm fun _ calm => calm.noting _) fun _ => typing _

theorem select (label : String) : Maintains (On L) (Setup.select setup label) := by
  have choosing (element : η) : Maintains (On L) (onSession (Session.selectOption setup.page element label)) :=
    onSession_secures handles.calm fun _ calm => calm.selectOption element label
  refine maintains_bind (handles.target true) fun element => maintains_bind (handles.demand _ _ id) fun name => ?_
  exact secures_ite (maintains_bind (secures_throw _) fun _ => choosing element) (choosing element)

theorem upload (raw : String) : Maintains (On L) (Setup.upload setup raw) := by
  unfold Setup.upload
  refine maintains_bind handles.locatedElement fun slot => maintains_bind (handles.demand _ _ id) fun kind => ?_
  refine maintains_bind (handles.demand _ _ id) fun name => ?_
  cases setup.uploadPath raw with
  | error fault => exact secures_ite (maintains_bind (secures_throw _) fun _ => secures_throw _) (secures_throw _)
  | ok file =>
    obtain ⟨path, there⟩ := file
    cases there with
    | false => exact secures_ite (maintains_bind (secures_throw _) fun _ => secures_throw _) (secures_throw _)
    | true =>
      have setting : Maintains (On L) (onSession (Session.setFile setup.page slot.element path)) :=
        handles.demand _ _ id
      exact secures_ite (maintains_bind (secures_throw _) fun _ => setting) setting

theorem keyTarget : Maintains (On L) (Setup.keyTarget setup) := by
  refine maintains_bind (handles.demand _ _ id) fun focused => ?_
  cases focused with
  | some element => exact secures_pure trivial
  | none =>
    refine secures_memory_bind fun m _ _ => ?_
    cases m.active with
    | some element => exact secures_pure trivial
    | none =>
      exact secures_ite (maintains_bind handles.locatedElement fun slot => secures_pure trivial) (secures_throw _)

theorem press (raw : String) : Maintains (On L) (Setup.press setup raw) := by
  unfold Setup.press
  cases Key.named? raw with
  | none => exact secures_throw _
  | some key => exact maintains_bind handles.keyTarget fun element => handles.demand _ _ id

end Handles

section Statements

variable {phase : Phase} (performs : ∀ c, Maintains (On L) (Setup.perform setup phase c))
include performs

/-- What each command keeps, a body keeps. -/
theorem performAll_maintains (body : List Command) : Maintains (On L) (Setup.performAll setup phase body) := by
  induction body with
  | nil => exact secures_pure trivial
  | cons c later ih => exact maintains_bind (performs c) fun _ => ih

/-- So does a statement, with its notes and what it saves. Where it confines the search to an element, another
property may hold in its place. -/
theorem carryOut_maintains {confined : η → Memory η → Session σ ν → Prop} {R : η → Prop}
    (noting : ∀ n, Maintains (On L) (note n : RunM σ η ν Unit))
    (saving : ∀ name value,
      Maintains (On L) (setMemory fun m => m.setVariable name (m.fillIn value) : RunM σ η ν Unit))
    (anchored : ∀ anchor, Secures (On L) (anchorElement setup anchor) R)
    (within : ∀ element, R element → ∀ c, Maintains (On (confined element)) (Setup.perform setup phase c))
    (enter : ∀ {element m s}, R element → L m s → confined element { m with scope := some element } s)
    (leave : ∀ {element m s}, confined element m s → L { m with scope := none } s) (form : Form) :
    Maintains (On L) (Setup.carryOut setup phase form) := by
  cases form with
  | comment text => exact secures_pure trivial
  | save value name => exact saving name value
  | run body => exact performAll_maintains performs body
  | handler body => exact performAll_maintains performs body
  | conditional predicate body =>
    refine maintains_bind (maintains_attempt (performs predicate)) fun result => ?_
    cases result with
    | error failure => exact noting _
    | ok => exact performAll_maintains performs body
  | under anchor body =>
    refine secures_bind (anchored anchor) fun element found s holds => ?_
    -- Inside, the search stays confined to the anchor; it is set free again wherever the body stops.
    have inside := (performAll_maintains (within element found) body (setScope (some element) s) (enter found holds)).1
    refine ⟨?_, fun _ _ _ => trivial⟩
    change On L (final (RunM.andFinally (Setup.performAll setup phase body) (setScope none)
      (setScope (some element) s)))
    rw [final_andFinally]
    exact leave inside

end Statements

/-- Besides, the property is kept by what is written elsewhere in the memory, and where an element is located. -/
structure Tends (setup : Setup σ η ν) (L : Memory η → Session σ ν → Prop) : Prop extends Handles setup L where
  remember : ∀ {m m' : Memory η} {s}, m'.scope = m.scope → m'.located = m.located → L m s → L m' s
  locate : ∀ query scroll, Maintains (On L) (Setup.locate setup query scroll)
  dragTo : ∀ c, Maintains (On L) (Setup.dragTo setup c)

namespace Tends

variable (tends : setup.Tends L)
include tends

theorem remembering {change : Memory η → Memory η} (scope : ∀ m, (change m).scope = m.scope)
    (located : ∀ m, (change m).located = m.located) : Maintains (On L) (setMemory change : RunM σ η ν Unit) :=
  maintains_setMemory fun m _ => tends.remember (scope m) (located m)

/-- Every command keeps the property, wherever it stops. -/
theorem act (phase : Phase) (c : Command) : Maintains (On L) (Setup.act setup phase c) := by
  have given : Maintains (On L) (argument c : RunM σ η ν String) := argument_maintains c
  unfold Setup.act
  cases c.verb with
  | url =>
    have going (address : String) : Maintains (On L) (onSession (Session.navigate setup.page address)) :=
      onSession_secures tends.calm fun _ calm => calm.navigate address
    exact maintains_bind given fun raw =>
      secures_ite (maintains_bind (secures_throw _) fun _ => going _) (going _)
  | locate => exact maintains_bind given fun query => tends.locate query true
  | locateNoScroll => exact maintains_bind given fun query => tends.locate query false
  | click =>
    refine maintains_bind (tends.target false) fun element => maintains_bind (tends.clickCenter element) fun _ => ?_
    exact tends.remembering (fun _ => rfl) fun _ => rfl
  | type => exact maintains_bind given fun text => tends.typeText (fun _ _ _ => tends.remember rfl rfl) text
  | select => exact maintains_bind given fun label => tends.select label
  | upload => exact maintains_bind given fun raw => tends.upload raw
  | readTo =>
    refine maintains_bind tends.locatedElement fun slot => maintains_bind (tends.demand _ _ id) fun text => ?_
    exact tends.remembering (fun _ => rfl) fun _ => rfl
  | press => exact maintains_bind given fun key => tends.press key
  | refresh => exact tends.demand _ _ id
  | screenshot =>
    exact maintains_bind (tends.demand _ _ id) fun png => tends.remembering (fun _ => rfl) fun _ => rfl
  | chill =>
    refine maintains_bind given fun raw => ?_
    cases pauseSeconds? raw with
    | none => exact secures_throw _
    | some seconds => exact onSession_secures tends.calm fun _ calm => calm.pausing seconds
  | dragTo => exact tends.dragTo c
  | acceptAlert => exact onSession_secures tends.calm fun _ calm => calm.takeDialog .accept
  | dismissAlert => exact onSession_secures tends.calm fun _ calm => calm.takeDialog .dismiss
  | tryAgain => exact secures_ite (tends.remembering (fun _ => rfl) fun _ => rfl) (secures_pure trivial)

theorem perform (phase : Phase) (c : Command) : Maintains (On L) (Setup.perform setup phase c) := by
  have acts := tends.act phase c
  exact secures_ite (maintains_bind (onSession_secures tends.calm fun _ calm => calm.pausing _) fun _ => acts) acts

/-- So does every statement that keeps it where it confines the search to an element: there another property holds
in its place. -/
theorem carryOut {confined : η → Memory η → Session σ ν → Prop} {R : η → Prop}
    (anchored : ∀ anchor, Secures (On L) (anchorElement setup anchor) R)
    (inner : ∀ element, R element → setup.Tends (confined element))
    (enter : ∀ {element m s}, R element → L m s → confined element { m with scope := some element } s)
    (leave : ∀ {element m s}, confined element m s → L { m with scope := none } s) (phase : Phase) (form : Form) :
    Maintains (On L) (Setup.carryOut setup phase form) :=
  carryOut_maintains (tends.perform phase) (fun _ => onSession_secures tends.calm fun _ calm => calm.noting _)
    (fun _ _ => tends.remembering (fun _ => rfl) fun _ => rfl) anchored
    (fun element found => (inner element found).perform phase) enter leave form

end Tends
end Setup
end Walkthrough
