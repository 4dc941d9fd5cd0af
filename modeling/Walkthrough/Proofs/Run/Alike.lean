import Walkthrough.Proofs.Session.Alike
import Walkthrough.Run.Loop

/-!
Runs that go alike. Commands that are carried out on two pages go alike, and so do the runs of a script,
if a tie between the sessions lasts through what the commands do (`Links`). What a command does beyond
single requests is named there by its verb, and must last only for the verbs that may occur. A tie of
sessions on one page that says that they are the same is a property of the sessions, which then lasts.
-/
namespace Walkthrough

open Walkthrough.Action Session

variable {σ τ η ν α : Type}

/-- The set-up with another page. -/
def Setup.over (setup : Setup σ η ν) (page : Page τ η ν) : Setup τ η ν where
  locator := { page, delays := setup.locator.delays }
  runName := setup.runName
  commandDelay := setup.commandDelay
  demo := setup.demo
  uploadPath := setup.uploadPath

/-- The same memory, with sessions that are tied. -/
def RunState.Joint (tie : Memory η → Session σ ν → Session τ ν → Prop) (s : RunState σ η ν)
    (t : RunState τ η ν) : Prop :=
  s.memory = t.memory ∧ tie s.memory s.session t.session

namespace RunM

variable {tie : Memory η → Session σ ν → Session τ ν → Prop}

abbrev Together (tie : Memory η → Session σ ν → Session τ ν → Prop) (x : RunM σ η ν α) (y : RunM τ η ν α) : Prop :=
  Alike (RunState.Joint tie) x y

theorem alike_onSession {x : SessionM σ ν α} {y : SessionM τ ν α} (each : ∀ m, Session.Together (tie m) x y) :
    Together tie (onSession x) (onSession y) := by
  intro s t joint
  have ends := each s.memory s.session t.session joint.2
  unfold onSession
  generalize x s.session = r, y t.session = r' at ends
  cases ends with
  | ok a tied => exact .ok a ⟨joint.1, tied⟩
  | error e tied => exact .error e ⟨joint.1, tied⟩

theorem alike_memory_bind {β : Type} {f : Memory η → RunM σ η ν β} {g : Memory η → RunM τ η ν β}
    (next : ∀ m, Together tie (f m) (g m)) : Together tie (memory >>= f) (memory >>= g) := by
  intro s t joint
  have same := joint.1
  change Ends _ (f s.memory s) (g t.memory t)
  rw [same]
  exact next t.memory s t joint

theorem alike_setMemory {change : Memory η → Memory η} (lasts : ∀ {m a b}, tie m a b → tie (change m) a b) :
    Together tie (setMemory change : RunM σ η ν Unit) (setMemory change) :=
  alike_modify fun joint => ⟨congrArg change joint.1, lasts joint.2⟩

theorem alike_fail (failure : Failure) : Together tie (fail failure : RunM σ η ν α) (fail failure) :=
  alike_throw _

theorem alike_attempt {x : RunM σ η ν α} {y : RunM τ η ν α} (tried : Together tie x y) :
    Together tie (attempt x) (attempt y) := by
  intro s t joint
  have ends := tried s t joint
  unfold attempt
  generalize x s = r, y t = r' at ends
  cases ends with
  | ok a joint => exact .ok _ joint
  | error stop joint =>
    cases stop with
    | failure f => exact .ok _ joint
    | fault f => exact .error _ joint

theorem alike_andFinally {x : RunM σ η ν α} {y : RunM τ η ν α} {change : RunState σ η ν → RunState σ η ν}
    {change' : RunState τ η ν → RunState τ η ν} (tried : Together tie x y)
    (lasts : ∀ {s t}, RunState.Joint tie s t → RunState.Joint tie (change s) (change' t)) :
    Together tie (andFinally x change) (andFinally y change') := by
  intro s t joint
  have ends := tried s t joint
  unfold andFinally
  generalize x s = r, y t = r' at ends
  cases ends with
  | ok a joint => exact .ok a (lasts joint)
  | error stop joint => exact .error stop (lasts joint)

end RunM

namespace Setup

open RunM

variable {setup : Setup σ η ν} {page' : Page τ η ν} {may : Verb → Prop}
  {tie : Memory η → Session σ ν → Session τ ν → Prop}

/-- The tie lasts through everything that the commands with these verbs do. -/
structure Links (setup : Setup σ η ν) (page' : Page τ η ν) (may : Verb → Prop)
    (tie : Memory η → Session σ ν → Session τ ν → Prop) : Prop where
  tied : ∀ m, Tied setup.page page' (tie m)
  elements : ∀ {m : Memory η} {a b} (located : Option (Located η)) (active : Option η), tie m a b →
    tie { m with located, active } a b
  reading : may .readTo → ∀ {m : Memory η} {a b} (name value : String), tie m a b →
    tie (m.setVariable name value) a b
  screenshot : may .screenshot → ∀ phase c, c.verb = .screenshot →
    RunM.Together tie (act setup phase c) (act (setup.over page') phase c)
  leave : may .url → ∀ {m a b}, tie m a b →
    tie m { a with dialogs := a.dialogs.dropAll } { b with dialogs := b.dialogs.dropAll }
  accept : may .acceptAlert → ∀ m, Session.Together (tie m) (takeDialog .accept) (takeDialog .accept)
  dismiss : may .dismissAlert → ∀ m, Session.Together (tie m) (takeDialog .dismiss) (takeDialog .dismiss)
  again : may .tryAgain → ∀ {m : Memory η} {a b}, tie m a b → tie { m with retryRequested := true } a b

namespace Links

variable (links : Links setup page' may tie)
include links

theorem noting (n : Notice) : RunM.Together tie (RunM.note n : RunM σ η ν Unit) (RunM.note n) :=
  alike_onSession fun m => (links.tied m).noting n

theorem demand (deed : Deed) (r : Request η α) (plain : ¬ r.IsScreenshot) :
    RunM.Together tie (onSession (Session.demand setup.page deed r))
      (onSession (Session.demand page' deed r)) :=
  alike_onSession fun m => (links.tied m).demand deed r plain

theorem resolve (query : String) (scope : Option η) :
    RunM.Together tie (onSession (setup.locator.resolve query scope))
      (onSession ((setup.over page').locator.resolve query scope)) :=
  alike_onSession fun m => Locator.resolve_alike (links.tied m) query scope

theorem highlight (element : η) (border : String) :
    RunM.Together tie (Setup.highlight setup element border)
      (Setup.highlight (setup.over page') element border) := by
  refine alike_bind (alike_attempt (links.demand _ _ id)) fun result => ?_
  cases result with
  | ok => exact alike_pure ()
  | error failure => exact links.noting _

theorem setLocated (element : η) (query : String) :
    RunM.Together tie (Setup.setLocated setup element query)
      (Setup.setLocated (setup.over page') element query) := by
  have last : RunM.Together tie
      (setMemory fun m => { m with located := some ⟨element, query⟩ } : RunM σ η ν Unit)
      (setMemory fun m => { m with located := some ⟨element, query⟩ }) :=
    alike_setMemory fun {m} _ _ => links.elements _ m.active
  have bordered := alike_bind (links.highlight element highlightBorder) fun _ => last
  refine alike_ite (alike_memory_bind fun m => ?_) last
  cases m.located with
  | none => exact bordered
  | some previous =>
    refine alike_bind (alike_onSession fun m => (links.tied m).isAttached _) fun attached => ?_
    cases attached with
    | false => exact bordered
    | true => exact alike_bind (links.highlight _ _) fun _ => bordered

theorem locatedElement :
    RunM.Together tie (Setup.locatedElement setup) (Setup.locatedElement (setup.over page')) := by
  refine alike_memory_bind fun m => ?_
  cases m.located with
  | none => exact alike_fail _
  | some slot =>
    refine alike_bind (alike_onSession fun m => (links.tied m).isAttached _) fun attached => ?_
    refine alike_ite (alike_pure slot) ?_
    refine alike_bind (links.noting _) fun _ => alike_memory_bind fun m => ?_
    refine alike_bind (links.resolve _ _) fun element => ?_
    exact alike_bind (links.setLocated _ _) fun _ => alike_pure _

theorem target (choosing : Bool) :
    RunM.Together tie (Setup.target setup choosing) (Setup.target (setup.over page') choosing) := by
  refine alike_bind links.locatedElement fun slot => ?_
  refine alike_bind (alike_onSession fun m => (links.tied m).interactionTarget _ _) fun element => ?_
  exact alike_bind (alike_setMemory fun {m} _ _ => links.elements _ m.active) fun _ => alike_pure element

theorem clickCenter (element : η) :
    RunM.Together tie (Setup.clickCenter setup element)
      (Setup.clickCenter (setup.over page') element) := by
  refine alike_bind (links.demand _ _ id) fun box => ?_
  cases box with
  | none => exact alike_fail _
  | some box => exact alike_ite (alike_fail _) (links.demand _ _ id)

omit links in
theorem argument (c : Command) :
    RunM.Together tie (Setup.argument c : RunM σ η ν String) (Setup.argument c) := by
  unfold Setup.argument
  cases c.param with
  | none => exact alike_fail _
  | some param =>
    refine alike_memory_bind fun m => ?_
    cases m.valueOf param with
    | ok value => exact alike_pure value
    | error failure => exact alike_fail _

theorem setActive (element : η) :
    RunM.Together tie (Setup.setActive element : RunM σ η ν Unit) (Setup.setActive element) :=
  alike_setMemory fun {m} _ _ => links.elements m.located _

theorem locate (query : String) (scroll : Bool) :
    RunM.Together tie (Setup.locate setup query scroll)
      (Setup.locate (setup.over page') query scroll) := by
  refine alike_memory_bind fun m => alike_bind (links.resolve _ _) fun element => ?_
  cases scroll with
  | true =>
    refine alike_bind (alike_onSession fun m => (links.tied m).scrollIntoView _) fun _ => ?_
    exact links.setLocated _ _
  | false => exact links.setLocated _ _

theorem typeText (text : String) :
    RunM.Together tie (Setup.typeText setup text) (Setup.typeText (setup.over page') text) := by
  refine alike_bind (links.target false) fun element => alike_bind (links.clickCenter element) fun _ => ?_
  refine alike_bind (links.demand _ _ id) fun focused => alike_bind (links.setActive _) fun _ => ?_
  refine alike_bind (alike_attempt (links.demand _ _ id)) fun result => ?_
  have typing (element : η) : RunM.Together tie (onSession (Session.sendKeys setup.page element text))
      (onSession (Session.sendKeys page' element text)) :=
    alike_onSession fun m => (links.tied m).sendKeys element text
  cases result with
  | ok => exact typing _
  | error failure => exact alike_bind (links.noting _) fun _ => typing _

theorem select (label : String) :
    RunM.Together tie (Setup.select setup label) (Setup.select (setup.over page') label) := by
  have choosing (element : η) : RunM.Together tie
      (onSession (Session.selectOption setup.page element label))
      (onSession (Session.selectOption page' element label)) :=
    alike_onSession fun m => (links.tied m).selectOption element label
  refine alike_bind (links.target true) fun element => alike_bind (links.demand _ _ id) fun tag => ?_
  exact alike_ite (alike_bind (alike_fail _) fun _ => choosing element) (choosing element)

theorem upload (raw : String) :
    RunM.Together tie (Setup.upload setup raw) (Setup.upload (setup.over page') raw) := by
  have same : (setup.over page').uploadPath raw = setup.uploadPath raw := rfl
  unfold Setup.upload
  rw [same]
  refine alike_bind links.locatedElement fun slot => alike_bind (links.demand _ _ id) fun kind => ?_
  refine alike_bind (links.demand _ _ id) fun tag => ?_
  cases setup.uploadPath raw with
  | error fault => exact alike_ite (alike_bind (alike_fail _) fun _ => alike_throw _) (alike_throw _)
  | ok file =>
    obtain ⟨path, there⟩ := file
    cases there with
    | false => exact alike_ite (alike_bind (alike_fail _) fun _ => alike_fail _) (alike_fail _)
    | true =>
      exact alike_ite (alike_bind (alike_fail _) fun _ => links.demand _ _ id) (links.demand _ _ id)

theorem keyTarget :
    RunM.Together tie (Setup.keyTarget setup) (Setup.keyTarget (setup.over page')) := by
  refine alike_first (links.demand _ _ id) (fun element => alike_pure element) ?_
  refine alike_memory_bind fun m => ?_
  cases m.active with
  | some element => exact alike_pure element
  | none =>
    exact alike_ite (alike_bind links.locatedElement fun slot => alike_pure slot.element) (alike_fail _)

theorem press (raw : String) :
    RunM.Together tie (Setup.press setup raw) (Setup.press (setup.over page') raw) := by
  unfold Setup.press
  cases Key.named? raw with
  | none => exact alike_fail _
  | some key => exact alike_bind links.keyTarget fun element => links.demand _ _ id

theorem dragTo (c : Command) :
    RunM.Together tie (Setup.dragTo setup c) (Setup.dragTo (setup.over page') c) := by
  refine alike_bind links.locatedElement fun source => alike_bind (argument c) fun query => ?_
  refine alike_memory_bind fun m => alike_bind (links.resolve _ _) fun element => ?_
  exact alike_bind (links.demand _ _ id) fun _ => links.setLocated _ _

theorem navigate (allowed : may .url) (address : String) :
    RunM.Together tie (onSession (Session.navigate setup.page address))
      (onSession (Session.navigate page' address)) :=
  alike_onSession fun m => alike_bind (alike_modify (links.leave allowed)) fun _ =>
    (links.tied m).demand _ _ id

/-- A command with an allowed verb goes alike on both pages. -/
theorem act (phase : Phase) (c : Command) (allowed : may c.verb) :
    RunM.Together tie (Setup.act setup phase c) (Setup.act (setup.over page') phase c) := by
  by_cases seeing : c.verb = .screenshot
  · exact links.screenshot (seeing ▸ allowed) phase c seeing
  unfold Setup.act
  cases verb : c.verb with
  | screenshot => exact absurd verb seeing
  | url =>
    have going (address : String) := links.navigate (verb ▸ allowed) address
    refine alike_bind (argument c) fun raw => ?_
    exact alike_ite (alike_bind (alike_fail _) fun _ => going _) (going _)
  | locate => exact alike_bind (argument c) fun query => links.locate query true
  | locateNoScroll => exact alike_bind (argument c) fun query => links.locate query false
  | click =>
    refine alike_bind (links.target false) fun element => alike_bind (links.clickCenter element) fun _ => ?_
    exact links.setActive element
  | type => exact alike_bind (argument c) fun text => links.typeText text
  | select => exact alike_bind (argument c) fun label => links.select label
  | upload => exact alike_bind (argument c) fun raw => links.upload raw
  | readTo =>
    refine alike_bind links.locatedElement fun slot => alike_bind (links.demand _ _ id) fun text => ?_
    exact alike_setMemory (links.reading (verb ▸ allowed) _ _)
  | press => exact alike_bind (argument c) fun key => links.press key
  | refresh => exact links.demand _ _ id
  | chill =>
    refine alike_bind (argument c) fun raw => ?_
    cases pauseSeconds? raw with
    | none => exact alike_fail _
    | some seconds => exact alike_onSession fun m => (links.tied m).pause seconds
  | dragTo => exact links.dragTo c
  | acceptAlert => exact alike_onSession (links.accept (verb ▸ allowed))
  | dismissAlert => exact alike_onSession (links.dismiss (verb ▸ allowed))
  | tryAgain =>
    exact alike_ite (alike_setMemory (links.again (verb ▸ allowed))) (alike_pure ())

theorem perform (phase : Phase) (c : Command) (allowed : may c.verb) :
    RunM.Together tie (Setup.perform setup phase c) (Setup.perform (setup.over page') phase c) := by
  refine alike_ite ?_ (links.act phase c allowed)
  refine alike_bind (alike_onSession fun m => (links.tied m).pause _) fun _ => links.act phase c allowed

theorem performAll (phase : Phase) (body : List Command) (allowed : ∀ c ∈ body, may c.verb) :
    RunM.Together tie (Setup.performAll setup phase body)
      (Setup.performAll (setup.over page') phase body) := by
  induction body with
  | nil => exact alike_pure ()
  | cons c later ih =>
    obtain ⟨first, others⟩ := List.forall_mem_cons.mp allowed
    exact alike_bind (links.perform phase c first) fun _ => ih others

theorem anchorElement (anchor : Option Param) :
    RunM.Together tie (Setup.anchorElement setup anchor)
      (Setup.anchorElement (setup.over page') anchor) := by
  cases anchor with
  | none => exact alike_first (links.demand _ _ id) (fun element => alike_pure element) (alike_fail _)
  | some param =>
    refine alike_memory_bind fun m => ?_
    cases m.valueOf param with
    | error failure => exact alike_fail _
    | ok query =>
      refine alike_bind (links.resolve _ _) fun element => ?_
      exact alike_bind (alike_onSession fun m => (links.tied m).scrollIntoView _) fun _ => alike_pure _

end Links

/-- What a statement does besides its commands leaves the tie as well. -/
structure Lasts (tie : Memory η → Session σ ν → Session τ ν → Prop) : Prop where
  save : ∀ {m : Memory η} {a b} (name value : String), tie m a b → tie (m.setVariable name value) a b
  confine : ∀ {m : Memory η} {a b} (scope : Option η), tie m a b → tie { m with scope } a b
  arm : ∀ {m a b} (armed : Option Answer), tie m a b →
    tie m { a with dialogs := a.dialogs.prepare armed } { b with dialogs := b.dialogs.prepare armed }

namespace Links

variable (links : Links setup page' may tie)
include links

/-- Carrying out a statement without regard to dialogs arms nothing. -/
theorem carryOut_of
    (save : ∀ {m : Memory η} {a b} (name value : String), tie m a b → tie (m.setVariable name value) a b)
    (confine : ∀ {m : Memory η} {a b} (scope : Option η), tie m a b → tie { m with scope } a b) (phase : Phase)
    (form : Form) (allowed : ∀ c ∈ form.commands, may c.verb) :
    RunM.Together tie (Setup.carryOut setup phase form)
      (Setup.carryOut (setup.over page') phase form) := by
  cases form with
  | comment text => exact alike_pure ()
  | save value name =>
    have saved : RunM.Together tie
        (setMemory fun m => m.setVariable name (m.fillIn value) : RunM σ η ν Unit)
        (setMemory fun m => m.setVariable name (m.fillIn value)) :=
      alike_setMemory fun tied => save name _ tied
    exact saved
  | run body => exact links.performAll phase body allowed
  | handler body => exact links.performAll phase body allowed
  | conditional predicate body =>
    obtain ⟨first, others⟩ := List.forall_mem_cons.mp allowed
    refine alike_bind (alike_attempt (links.perform phase predicate first)) fun result => ?_
    cases result with
    | error failure => exact links.noting _
    | ok => exact links.performAll phase body others
  | under anchor body =>
    have confined (scope : Option η) {s : RunState σ η ν} {t : RunState τ η ν}
        (joint : RunState.Joint tie s t) : RunState.Joint tie (setScope scope s) (setScope scope t) :=
      ⟨congrArg (fun m : Memory η => { m with scope }) joint.1, confine scope joint.2⟩
    refine alike_bind (links.anchorElement anchor) fun element => ?_
    refine alike_bind (alike_modify (confined (some element))) fun _ => ?_
    exact alike_andFinally (links.performAll phase body allowed) (confined none)

variable (lasts : Lasts tie)
include lasts

theorem carryOut (phase : Phase) (form : Form) (allowed : ∀ c ∈ form.commands, may c.verb) :
    RunM.Together tie (Setup.carryOut setup phase form)
      (Setup.carryOut (setup.over page') phase form) :=
  links.carryOut_of lasts.save lasts.confine phase form allowed

/-- A statement whose commands are allowed goes alike on both pages. -/
theorem execute (phase : Phase) (s : Statement) (upcoming : Option Answer)
    (allowed : ∀ c ∈ s.form.commands, may c.verb) :
    RunM.Together tie (Setup.execute setup phase s upcoming)
      (Setup.execute (setup.over page') phase s upcoming) := by
  have armed (answer : Option Answer) {s : RunState σ η ν} {t : RunState τ η ν}
      (joint : RunState.Joint tie s t) : RunState.Joint tie (setArmed answer s) (setArmed answer t) :=
    ⟨joint.1, lasts.arm answer joint.2⟩
  unfold Setup.execute
  cases (Answer.first? s.form.commands).or upcoming with
  | none => exact links.carryOut lasts phase s.form allowed
  | some answer =>
    refine alike_bind (alike_modify (armed (some answer))) fun _ => ?_
    exact alike_andFinally (links.carryOut lasts phase s.form allowed) (armed none)

end Links
end Setup

/-- The tie lasts through everything that the two conducts do to the statements of the script, and through
what a run does between them. -/
structure Conduct.Links (conduct : Conduct σ η ν) (conduct' : Conduct τ η ν) (script : Script)
    (tie : Memory η → Session σ ν → Session τ ν → Prop) : Prop where
  execute : ∀ place phase upcoming, ∀ s ∈ script.statements,
    RunM.Together tie (conduct.execute place phase s upcoming) (conduct'.execute place phase s upcoming)
  finish : ∀ {m a b}, tie m a b → tie m (conduct.finish a) (conduct'.finish b)
  note : ∀ {m a b} (n : Notice), tie m a b → tie m (a.record n) (b.record n)
  drain : ∀ {m : Memory η} {a b}, tie m a b → tie { m with screenshots := [] } a b
  forget : ∀ {m : Memory η} {a b}, tie m a b → tie { m with retryRequested := false } a b

namespace Run

variable {conduct : Conduct σ η ν} {conduct' : Conduct τ η ν} {script : Script}
  {tie : Memory η → Session σ ν → Session τ ν → Prop}

abbrev Together (tie : Memory η → Session σ ν → Session τ ν → Prop) (x : LoopM σ η ν α) (y : LoopM τ η ν α) :
    Prop :=
  Alike (RunState.Joint tie) x y

theorem alike_failureOf {x : RunM σ η ν Unit} {y : RunM τ η ν Unit} (tried : RunM.Together tie x y) :
    Together tie (failureOf x) (failureOf y) := by
  intro s t joint
  have ends := tried s t joint
  unfold failureOf
  generalize x s = r, y t = r' at ends
  cases ends with
  | ok a joint => exact .ok none joint
  | error stop joint =>
    cases stop with
    | failure f => exact .ok _ joint
    | fault f => exact .error f joint

variable (links : conduct.Links conduct' script tie)
include links

theorem note_alike (n : Notice) : Together tie (note n : LoopM σ η ν Unit) (note n) :=
  alike_modify fun joint => ⟨joint.1, links.note n joint.2⟩

theorem finish_alike : Together tie (finish conduct : LoopM σ η ν Unit) (finish conduct') :=
  alike_modify fun joint => ⟨joint.1, links.finish joint.2⟩

theorem record_alike (t : Turn) (statement : Statement) (failure : Option Failure) :
    Together tie (record t statement failure : LoopM σ η ν Turn) (record t statement failure) := by
  intro s s' joint
  obtain ⟨session, memory⟩ := s
  obtain ⟨session', memory'⟩ := s'
  obtain ⟨rfl, tied⟩ := joint
  exact .ok _ ⟨rfl, links.drain tied⟩

theorem takeRetryRequest_alike :
    Together tie (takeRetryRequest : LoopM σ η ν Bool) takeRetryRequest := by
  intro s s' joint
  obtain ⟨session, memory⟩ := s
  obtain ⟨session', memory'⟩ := s'
  obtain ⟨rfl, tied⟩ := joint
  exact .ok _ ⟨rfl, links.forget tied⟩

theorem handle_alike (t : Turn) (h : Nat) {handler : Statement} (listed : handler ∈ script.statements) :
    Together tie (handle conduct script t h handler) (handle conduct' script t h handler) := by
  refine alike_bind (takeRetryRequest_alike links) fun _ => alike_bind (note_alike links _) fun _ => ?_
  refine alike_bind (alike_failureOf (links.execute _ _ _ _ listed)) fun failed => ?_
  cases failed with
  | some failure =>
    refine alike_bind (note_alike links _) fun _ => alike_bind (record_alike links _ _ _) fun _ => ?_
    exact alike_bind (finish_alike links) fun _ => alike_pure _
  | none =>
    refine alike_bind (finish_alike links) fun _ => alike_bind (record_alike links _ _ _) fun _ => ?_
    refine alike_bind (takeRetryRequest_alike links) fun again => ?_
    exact alike_ite (alike_bind (note_alike links _) fun _ => alike_pure _) (alike_pure _)

theorem recover_alike (t : Turn) :
    Together tie (recover conduct script t) (recover conduct' script t) := by
  unfold recover
  cases script.handler? t.index with
  | none => exact alike_pure _
  | some h =>
    refine alike_ite (alike_bind (note_alike links _) fun _ => alike_pure _) ?_
    cases found : script.statements[h]? with
    | none => exact alike_pure _
    | some handler => exact handle_alike links t h (List.mem_of_getElem? found)

theorem step_alike (t : Turn) :
    Together tie (step conduct script t) (step conduct' script t) := by
  unfold step
  cases found : script.statements[t.index]? with
  | none => exact alike_pure _
  | some statement =>
    refine alike_ite (alike_pure _) (alike_ite (alike_pure _) ?_)
    refine alike_bind (note_alike links _) fun _ => ?_
    refine alike_bind (alike_failureOf (links.execute _ _ _ _ (List.mem_of_getElem? found))) fun failed => ?_
    cases failed with
    | none =>
      refine alike_bind (record_alike links _ _ _) fun _ => ?_
      exact alike_bind (finish_alike links) fun _ => alike_pure _
    | some failure =>
      refine alike_bind (note_alike links _) fun _ => alike_bind (record_alike links _ _ _) fun _ => ?_
      exact alike_bind (finish_alike links) fun _ => recover_alike links _

theorem loop_alike (t : Turn) :
    Together tie (loop conduct script t) (loop conduct' script t) := by
  intro s s' joint
  cases ended : t.isOver script with
  | true =>
    rw [loop_of_over ended, loop_of_over ended]
    exact .ok t joint
  | false =>
    have ends := step_alike links t s s' joint
    rw [loop_of_not_over ended, loop_of_not_over ended]
    simp only [bind, EStateM.bind]
    cases result : step conduct script t s with
    | ok u r =>
      have := (step_advances result).remaining_less ended
      rw [result] at ends
      generalize step conduct' script t s' = r' at ends
      cases ends with
      | ok _ joint => exact loop_alike u r _ joint
    | error fault r =>
      rw [result] at ends
      generalize step conduct' script t s' = r' at ends
      cases ends with
      | error _ joint => exact .error fault joint
termination_by Turn.remaining script t
decreasing_by exact this

theorem run_alike (name : String) (startedAt : Moment) :
    Together tie (run conduct script name startedAt) (run conduct' script name startedAt) := by
  refine alike_bind (note_alike links _) fun _ => alike_bind (loop_alike links _) fun t => ?_
  exact alike_ite (alike_bind (note_alike links _) fun _ => alike_pure _)
    (alike_bind (note_alike links _) fun _ => alike_pure _)

end Run
end Walkthrough
