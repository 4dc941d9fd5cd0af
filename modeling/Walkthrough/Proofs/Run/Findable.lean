import Walkthrough.Proofs.Run.Flags

/-!
The located element stays located and can be found again. Whatever statements are carried out, and wherever they
stop (`Leads`), the located element has a description that is not blank, and once there is one there always is
(`located_findable`). So it may be read from the memory without asking whether there is one, once it has been found
again (`rereadElement_eq`, `rereadTarget_eq`).
-/
namespace Walkthrough

open Walkthrough.Action

variable {σ η ν : Type}

/-- The located element has a description that is not blank. -/
def Memory.Findable (m : Memory η) : Prop := ∀ slot ∈ m.located, Text.allBlank slot.query.toList = false

theorem Memory.Refinds.findable :
    Refinds (Memory.Findable (η := η)) fun query => Text.allBlank query.toList = false where
  described _ findable := findable
  again _ _ _ filled _ := by simpa [Memory.Findable] using filled

theorem Memory.Refinds.isSome : Refinds (fun m : Memory η => m.located.isSome = true) fun _ => True where
  described _ _ _ _ := trivial
  again _ _ _ _ _ := rfl

theorem RunM.memory_bind {α : Type} (f : Memory η → RunM σ η ν α) (s : RunState σ η ν) :
    (memory >>= f) s = f s.memory s := rfl

namespace Locator

variable (locator : Locator σ η ν)

theorem filled_of_resolve {locator : Locator σ η ν} {query : String} {scope : Option η} {element : η}
    {s t : Session σ ν} (located : locator.resolve query scope s = .ok element t) :
    Text.allBlank query.toList = false := by
  cases blank : Text.allBlank query.toList with
  | false => rfl
  | true =>
    rw [locator.resolve_of_blank blank] at located
    cases located

/-- The search for what a description means, around the scope and then in the whole page. -/
def lookAround (query : String) (scope : Option η) : SessionM σ ν η := do
  let levels := locator.page.levels (← get).page
  if let some element ← searchUp locator query scope levels then return element
  if let some element ← searchPage locator query locator.attempts then return element
  throw (.failure (.notLocated query))

/-- Only blank descriptions are refused without a search. -/
theorem resolve_eq_lookAround {query : String} (filled : Text.allBlank query.toList = false) (scope : Option η) :
    locator.resolve query scope = locator.lookAround query scope := by
  have nonempty : (Text.compact query.toList).isEmpty = false := by
    rw [List.isEmpty_eq_false_iff, Ne, Text.compact_eq_nil, filled]
    exact Bool.false_ne_true
  unfold resolve
  rw [nonempty]
  rfl

end Locator

namespace Setup

open RunM

variable (setup : Setup σ η ν)

/-- What can come of a state, whatever fails on the way: statements are carried out to where they end or stop, or up
to one of their commands, and in between anything may happen to the rest of the state but the located element. -/
inductive Leads (s : RunState σ η ν) : RunState σ η ν → Prop where
  | refl : Leads s s
  | between {t u : RunState σ η ν} (led : Leads s t) (same : u.memory.located = t.memory.located) : Leads s u
  | executed {t : RunState σ η ν} (led : Leads s t) (phase : Phase) (st : Statement) (upcoming : Option Answer) :
      Leads s (final (setup.execute phase st upcoming t))
  | reached {t begun reached : RunState σ η ν} (led : Leads s t) {phase : Phase} {form : Form}
      {earlier : List Command} (reaches : setup.Reaches phase form earlier t begun reached) : Leads s reached

section Refinds

variable {P : Memory η → Prop} {Q : String → Prop} (refinds : Memory.Refinds P Q)
  (found : ∀ {query within element} {s t : Session σ ν},
    setup.locator.resolve query within s = .ok element t → Q query)
  (only : ∀ {m m' : Memory η}, m'.located = m.located → P m → P m')

include refinds found only

/-- What is kept where the located element is found again, and depends on it only, is kept by all that can come of a
state. -/
theorem leads_keeps {s t : RunState σ η ν} (led : setup.Leads s t) (holds : P s.memory) : P t.memory := by
  have tends := setup.tends_of_refinds refinds found fun _ => only
  induction led with
  | refl => exact holds
  | between _ same ih => exact only same ih
  | @executed t _ phase st upcoming ih =>
    have carried : Keeps P (carryOut setup phase st.form) :=
      tends.carryOut setup.anchorElement_keeps (fun _ _ => tends) (fun _ => only rfl) (only rfl) phase st.form
    exact (setup.execute_keeps carried upcoming t ih).1
  | @reached t begun reached _ phase form earlier reaches ih =>
    have confining (element : η) : Keeps P (modify (setScope (some element)) : RunM σ η ν Unit) :=
      fun s holds => ⟨only (m := s.memory) rfl holds, fun _ _ _ => trivial⟩
    have entering : Keeps P (setup.enter form) := by
      cases form with
      | under anchor body => exact keeps_bind (setup.anchorElement_keeps anchor) confining
      | _ => exact guards_pure trivial
    have entered := (entering t ih).1
    rw [reaches.entered] at entered
    have performed := (performAll_maintains (tends.perform phase) earlier begun entered).1
    rwa [reaches.performed] at performed

end Refinds

/-- The located element is read from the memory; something is missing if there is none. -/
def readLocated (missing : RunM σ η ν (Located η)) : RunM σ η ν (Located η) := do
  match (← memory).located with
  | some slot => return slot
  | none => missing

/-- The located element, read from the memory after it has been found again if it has left the page. -/
def rereadElement (missing : RunM σ η ν (Located η)) : RunM σ η ν η := do
  match (← memory).located with
  | none => fail .nothingLocated
  | some slot =>
    let attached ← Session.isAttached setup.page slot.element
    if !attached && !slot.query.isEmpty then
      note (.stale slot.query)
      let element ← setup.locator.resolve slot.query (← memory).scope
      setLocated setup element slot.query
    return (← readLocated missing).element

/-- What interactions with the located element mean becomes the located element in place of the one that is read
from the memory then, with the description read before. -/
def rereadTarget (missing : RunM σ η ν (Located η)) (choosing : Bool) : RunM σ η ν η := do
  let query := (← memory).located.map (·.query)
  let element ← Session.interactionTarget setup.page (← rereadElement setup missing) choosing
  let _ ← readLocated missing
  setMemory fun m => { m with located := some ⟨element, query.getD ""⟩ }
  return element

variable {setup}

theorem readLocated_of_some {missing : RunM σ η ν (Located η)} {s : RunState σ η ν} {slot : Located η}
    (located : s.memory.located = some slot) : readLocated missing s = .ok slot s := by
  refine (memory_bind _ s).trans ?_
  rw [located]
  rfl

theorem setLocated_eq_ok {element : η} {query : String} {s t : RunState σ η ν}
    (done : setLocated setup element query s = .ok () t) : t.memory.located = some ⟨element, query⟩ := by
  rw [setLocated_eq] at done
  obtain ⟨_, _, -, written⟩ := bind_eq_ok.mp done
  cases written
  rfl

theorem rereadElement_eq (missing : RunM σ η ν (Located η)) :
    rereadElement setup missing = locatedElement setup >>= fun slot => pure slot.element := by
  funext s
  unfold rereadElement locatedElement
  rw [bind_assoc]
  refine bind_congr_at fun m u read => ?_
  cases read
  cases located : s.memory.located with
  | none => rfl
  | some slot =>
    dsimp only
    rw [bind_assoc]
    refine bind_congr_at fun attached t asked => ?_
    obtain ⟨session, -, rfl⟩ := onSession_eq_ok asked
    have there : ({ s with session } : RunState σ η ν).memory.located = some slot := located
    have kept : (readLocated missing >>= fun slot => pure slot.element) { s with session } =
        .ok slot.element { s with session } := bind_of_ok (readLocated_of_some there)
    cases attached with
    | true => exact kept
    | false =>
      cases slot.query.isEmpty with
      | true => exact kept
      | false =>
        -- Found again, the element is written down before it is read.
        simp only [Bool.not_false, Bool.and_self, Bool.or_self, Bool.false_eq_true, if_true, if_false, bind_assoc]
        refine bind_congr_at fun _ u noted => bind_congr_at fun m v read => ?_
        refine bind_congr_at fun element w found => bind_congr_at fun _ t written => ?_
        have again : readLocated missing t = .ok ⟨element, slot.query⟩ t :=
          readLocated_of_some (setLocated_eq_ok written)
        exact bind_of_ok again

theorem query_of_handed {s t : RunState σ η ν} {slot : Located η} (handed : locatedElement setup s = .ok slot t) :
    s.memory.located.map (·.query) = some slot.query := by
  have refinds : Memory.Refinds (fun m : Memory η => m.located.map (·.query) = s.memory.located.map (·.query))
      fun query => s.memory.located.map (·.query) = some query :=
    { described := fun m same slot located => by rw [← same, Option.mem_def.mp located]; rfl
      again := fun m element query same _ => same.symm }
  exact (setup.locatedElement_guards refinds s rfl).2 slot t handed

theorem rereadTarget_eq (missing : RunM σ η ν (Located η)) (choosing : Bool) :
    rereadTarget setup missing choosing = target setup choosing := by
  funext s
  unfold rereadTarget target
  simp only [rereadElement_eq, bind_assoc, pure_bind]
  refine (memory_bind _ s).trans (bind_congr_at fun slot t handed => bind_congr_at fun element u meant => ?_)
  obtain ⟨session, -, rfl⟩ := onSession_eq_ok meant
  have there : t.memory.located = some slot := located_of_handed handed
  refine (bind_of_ok (readLocated_of_some (s := { t with session }) there)).trans ?_
  rw [query_of_handed handed]
  rfl

/-- A located element that has left the page is searched for, if its description is not blank. -/
theorem locatedElement_of_stale {s t : RunState σ η ν} {slot : Located η} (located : s.memory.located = some slot)
    (filled : Text.allBlank slot.query.toList = false)
    (stale : onSession (Session.isAttached setup.page slot.element) s = .ok false t) :
    locatedElement setup s = (do
      note (.stale slot.query)
      let element ← onSession (setup.locator.lookAround slot.query t.memory.scope)
      setLocated setup element slot.query
      return ⟨element, slot.query⟩ : RunM σ η ν (Located η)) t := by
  have nonempty : slot.query.isEmpty = false := by
    cases empty : slot.query.isEmpty with
    | false => rfl
    | true =>
      obtain nothing : slot.query = "" := by simpa using empty
      rw [nothing] at filled
      cases filled
  refine (memory_bind _ s).trans ?_
  rw [located]
  refine (bind_of_ok stale).trans ?_
  rw [nonempty, ← Locator.resolve_eq_lookAround setup.locator filled]
  refine bind_congr_at fun _ u noted => ?_
  cases noted
  rfl

theorem Leads.attempt {start s s' : RunState σ η ν} (led : setup.Leads start s) {place : Nat} {phase : Phase}
    {st : Statement} {upcoming : Option Answer} {failure : Option Failure} {entry : RecordEntry}
    (attempt : Run.Attempt setup.conduct place phase st upcoming failure s entry s') : setup.Leads start s' := by
  cases attempt with
  | mk noted ended =>
    have carried := led.executed phase st upcoming
    have ended' : final (setup.execute phase st upcoming s) = _ := Run.final_of_failureOf ended
    rw [ended'] at carried
    exact carried.between rfl

theorem Leads.recovers {script : Script} {start s s' : RunState σ η ν} (led : setup.Leads start s) {t u : Turn}
    (recovers : Run.Recovers setup.conduct script t s u s') : setup.Leads start s' := by
  have jumping (handler : Statement) : setup.Leads start (s.forgetful.noted (.jumping handler)) := led.between rfl
  cases recovers with
  | unhandled unnamed => exact led
  | exhausted h named exhausted => exact led.between rfl
  | refused h named fresh here attempt => exact (jumping _).attempt attempt
  | left h named fresh here attempt content => exact ((jumping _).attempt attempt).between rfl
  | again h named fresh here attempt asked => exact ((jumping _).attempt attempt).between rfl

/-- All turns of a run come of the state in which it begins. -/
theorem Leads.turns {script : Script} {n : Nat} {t u : Turn} {start s s' : RunState σ η ν}
    (led : setup.Leads start s) (turned : Run.turns setup.conduct script n t s = .ok u s') :
    setup.Leads start s' := by
  refine Run.turns_invariant (I := fun _ s => setup.Leads start s) ?_ led turned
  intro t s u s' led _ moves
  have executing (st : Statement) : setup.Leads start (s.noted (.executing st)) := led.between rfl
  cases moves with
  | skipped here handling => exact led
  | comment here plain silent => exact led
  | passed here plain spoken attempt => exact (executing _).attempt attempt
  | failed here plain spoken attempt recovers => exact ((executing _).attempt attempt).recovers recovers

/-- From a fresh state, whatever fails on the way: the description of the located element is never blank, and once
there is a located element there always is one. It can be read from the memory after it has been found again, and
after it has been taken for the element that interactions mean, and never is missing. When it has left the page, it is
always searched for again. -/
theorem located_findable (setup : Setup σ η ν) (session : Session σ ν) (row : Bindings) :
    let start : RunState σ η ν := { session, memory := { row } }
    (∀ s, setup.Leads start s → ∀ slot ∈ s.memory.located, Text.allBlank slot.query.toList = false) ∧
    (∀ s t, setup.Leads start s → setup.Leads s t → s.memory.located.isSome → t.memory.located.isSome) ∧
    (∀ missing, rereadElement setup missing = (locatedElement setup >>= fun slot => pure slot.element) ∧
      ∀ choosing, rereadTarget setup missing choosing = target setup choosing) ∧
    (∀ s slot t, setup.Leads start s → s.memory.located = some slot →
      onSession (Session.isAttached setup.page slot.element) s = .ok false t →
      locatedElement setup s = (do
        note (.stale slot.query)
        let element ← onSession (setup.locator.lookAround slot.query t.memory.scope)
        setLocated setup element slot.query
        return ⟨element, slot.query⟩ : RunM σ η ν (Located η)) t) ∧
    ∀ script n u s, Run.turns setup.conduct script n {} (start.noted (.runStarted setup.runName script.length)) =
      .ok u s → setup.Leads start s := by
  intro start
  have findable (s : RunState σ η ν) (led : setup.Leads start s) : s.memory.Findable := by
    refine setup.leads_keeps .findable Locator.filled_of_resolve ?_ led fun _ located => nomatch located
    intro m m' same findable slot located
    exact findable slot (same ▸ located)
  refine ⟨findable, ?_, ?_, ?_, ?_⟩
  · intro s t _ led there
    exact setup.leads_keeps .isSome (fun _ => trivial) (fun same there => same ▸ there) led there
  · exact fun missing => ⟨rereadElement_eq missing, rereadTarget_eq missing⟩
  · intro s slot t led located stale
    exact locatedElement_of_stale located (findable s led slot located) stale
  · intro script n u s turned
    have began : setup.Leads start (start.noted (.runStarted setup.runName script.length)) := Leads.refl.between rfl
    exact began.turns turned

def beginning : RunState Nat (Nat × Bool) Unit := { session := { page := 0 }, memory := { row := [] } }

/-- The button has been found, and then the page has been loaded again. -/
def foundAndLeft : RunState Nat (Nat × Bool) Unit :=
  final (formSetup.execute .running ⟨.run findAndReload, 1⟩ none beginning)

def isLeftButton (s : RunState Nat (Nat × Bool) Unit) : Bool :=
  match s.memory.located with
  | none => false
  | some slot => slot.element == (0, false) && slot.query == "Save" && s.session.page == 1

theorem foundAndLeft_isLeftButton : isLeftButton foundAndLeft = true := by
  unfold foundAndLeft
  decide +kernel

theorem located_findable_foundAndLeft :
    ∃ slot t, foundAndLeft.memory.located = some slot ∧ slot.query = "Save" ∧
      Text.allBlank slot.query.toList = false ∧
      onSession (Session.isAttached formSetup.page slot.element) foundAndLeft = .ok false t ∧
      locatedElement formSetup foundAndLeft = (do
        note (.stale slot.query)
        let element ← onSession (formSetup.locator.lookAround slot.query t.memory.scope)
        setLocated formSetup element slot.query
        return ⟨element, slot.query⟩ : RunM Nat (Nat × Bool) Unit (Located (Nat × Bool))) t ∧
      (final (formSetup.execute .running ⟨.run [readShown], 2⟩ none foundAndLeft)).memory.located.isSome = true ∧
      ∃ u s, Run.turns formSetup.conduct readAgain 2 {} beforeReadAgain = .ok u s ∧ formSetup.Leads beginning s := by
  obtain ⟨findable, lasting, -, searched, turns⟩ := located_findable formSetup { page := 0 } []
  have left := foundAndLeft_isLeftButton
  unfold isLeftButton at left
  split at left
  · cases left
  · next slot located =>
    simp only [Bool.and_eq_true, beq_iff_eq] at left
    obtain ⟨⟨element, query⟩, page⟩ := left
    have led : formSetup.Leads beginning foundAndLeft := Leads.refl.executed _ _ _
    obtain ⟨session, told, -⟩ := formAttachment.isAttached_tells slot.element foundAndLeft.session
    have gone : formAttachment.attached (formDisplay.view foundAndLeft.session.page) slot.element = false := by
      rw [element, page]
      rfl
    rw [gone] at told
    have stale : onSession (Session.isAttached formSetup.page slot.element) foundAndLeft =
        .ok false { foundAndLeft with session } := by
      have told' : Session.isAttached formSetup.page slot.element foundAndLeft.session = .ok false session := told
      unfold onSession
      rw [told']
    obtain ⟨u, s, -, -, turned, -⟩ := turns_readAgain
    refine ⟨slot, _, located, query, findable _ led slot located, stale, searched _ _ _ led located stale, ?_, u, s,
      turned, turns readAgain 2 u s turned⟩
    exact lasting _ _ led (Leads.refl.executed _ _ _) (by rw [located]; rfl)

end Setup
end Walkthrough
