import Walkthrough.Proofs.Locate.Stops
import Walkthrough.Proofs.Run.Reached

/-!
What ends a statement with a fault. A command that is reached does so where a pause cannot be made, before it, for it
or between the attempts of a search, and where the path of its upload has no meaning (`Setup.Hinders`). Besides, a
statement does so while its anchor is searched for, and there is no other way (`Setup.execute_eq_fault`).
-/
namespace Walkthrough

open Walkthrough.Action

variable {σ η ν α : Type}

namespace RunM

variable {P : Stop → Prop}

theorem stopsOnly_onSession {x : SessionM σ ν α} (only : StopsOnly P x) :
    StopsOnly P (onSession x : RunM σ η ν α) := by
  intro s e t stopped
  unfold onSession at stopped
  cases result : x s.session with
  | ok a u =>
    rw [result] at stopped
    cases stopped
  | error stop u =>
    rw [result] at stopped
    cases stopped
    exact only _ _ _ result

theorem stopsOnly_note (n : Notice) : StopsOnly P (note n : RunM σ η ν Unit) :=
  stopsOnly_onSession (Session.stopsOnly_note n)

theorem stopsOnly_setMemory (change : Memory η → Memory η) : StopsOnly P (setMemory change : RunM σ η ν Unit) :=
  stopsOnly_modify _

theorem stopsOnly_memory : StopsOnly P (memory : RunM σ η ν (Memory η)) := fun _ _ _ stopped => by cases stopped

theorem stopsOnly_attempt {x : RunM σ η ν α} (only : StopsOnly P x) : StopsOnly P (attempt x) := by
  intro s e t stopped
  unfold attempt at stopped
  cases result : x s with
  | ok a u =>
    rw [result] at stopped
    cases stopped
  | error stop u =>
    rw [result] at stopped
    cases stop with
    | failure failure => cases stopped
    | fault fault =>
      cases stopped
      exact only _ _ _ result

end RunM

/-- Commands with these verbs can search for an element. -/
def Verb.Searches : Verb → Prop
  | .locate | .locateNoScroll | .click | .type | .select | .upload | .readTo | .press | .dragTo => True
  | .url | .refresh | .screenshot | .chill | .acceptAlert | .dismissAlert | .tryAgain => False

namespace Setup

open RunM

variable {setup : Setup σ η ν}

/-- What keeps a search from making all its attempts. -/
def searchRefusal? (setup : Setup σ η ν) : Option PauseFault := setup.locator.refused setup.locator.attempts

section Commands

variable {P : Stop → Prop} (failing : ∀ failure, P (.failure failure))
include failing

theorem stopsOnly_demand (deed : Deed) (r : Request η α) :
    StopsOnly P (onSession (Session.demand setup.page deed r) : RunM σ η ν α) :=
  stopsOnly_onSession (Session.stopsOnly_demand failing deed r)

theorem stopsOnly_setLocated (element : η) (query : String) : StopsOnly P (setLocated setup element query) := by
  have highlighting (element : η) (border : String) : StopsOnly P (highlight setup element border) := by
    refine stopsOnly_bind (stopsOnly_attempt (stopsOnly_demand failing _ _)) fun result => ?_
    cases result with
    | ok => exact stopsOnly_pure _
    | error failure => exact stopsOnly_note _
  have locating : StopsOnly P (setMemory fun m => { m with located := some ⟨element, query⟩ } : RunM σ η ν Unit) :=
    stopsOnly_setMemory _
  have framing : StopsOnly P (do
      highlight setup element highlightBorder
      setMemory fun m => { m with located := some ⟨element, query⟩ }) :=
    stopsOnly_bind (highlighting _ _) fun _ => locating
  refine stopsOnly_ite (stopsOnly_bind stopsOnly_memory fun m => ?_) locating
  cases m.located with
  | none => exact framing
  | some previous =>
    refine stopsOnly_bind (stopsOnly_onSession (Session.stopsOnly_isAttached _)) fun attached => ?_
    exact stopsOnly_ite (stopsOnly_bind (highlighting _ _) fun _ => framing) framing

theorem stopsOnly_clickCenter (element : η) : StopsOnly P (clickCenter setup element) := by
  refine stopsOnly_bind (stopsOnly_demand failing _ _) fun box => ?_
  cases box with
  | none => exact stopsOnly_throw (failing _)
  | some box =>
    exact stopsOnly_ite (stopsOnly_throw (failing _)) (stopsOnly_demand failing _ _)

theorem stopsOnly_argument (c : Command) : StopsOnly P (argument c : RunM σ η ν String) := by
  unfold argument
  cases c.param with
  | none => exact stopsOnly_throw (failing _)
  | some param =>
    refine stopsOnly_bind stopsOnly_memory fun m => ?_
    cases m.valueOf param with
    | ok value => exact stopsOnly_pure _
    | error failure => exact stopsOnly_throw (failing _)

variable (searching : ∀ r, setup.searchRefusal? = some r → P (.fault r.fault))
include searching

theorem stopsOnly_locatedElement : StopsOnly P (locatedElement setup) := by
  refine stopsOnly_bind stopsOnly_memory fun m => ?_
  cases m.located with
  | none => exact stopsOnly_throw (failing _)
  | some slot =>
    refine stopsOnly_bind (stopsOnly_onSession (Session.stopsOnly_isAttached _)) fun attached => ?_
    refine stopsOnly_ite (stopsOnly_pure _) (stopsOnly_bind (stopsOnly_note _) fun _ => ?_)
    refine stopsOnly_bind stopsOnly_memory fun m => ?_
    refine stopsOnly_bind (stopsOnly_onSession (Locator.stopsOnly_resolve failing _ _ searching)) fun element => ?_
    exact stopsOnly_bind (stopsOnly_setLocated failing _ _) fun _ => stopsOnly_pure _

theorem stopsOnly_target (choosing : Bool) : StopsOnly P (target setup choosing) := by
  refine stopsOnly_bind (stopsOnly_locatedElement failing searching) fun slot => ?_
  refine stopsOnly_bind (stopsOnly_onSession (Session.stopsOnly_interactionTarget failing _ _)) fun element => ?_
  exact stopsOnly_bind (stopsOnly_setMemory _) fun _ => stopsOnly_pure _

theorem stopsOnly_locate (query : String) (scroll : Bool) : StopsOnly P (locate setup query scroll) := by
  refine stopsOnly_bind stopsOnly_memory fun m => ?_
  refine stopsOnly_bind (stopsOnly_onSession (Locator.stopsOnly_resolve failing _ _ searching)) fun element => ?_
  have locating : StopsOnly P (setLocated setup element query) := stopsOnly_setLocated failing _ _
  refine stopsOnly_ite (stopsOnly_bind ?_ fun _ => locating) locating
  exact stopsOnly_onSession (Session.stopsOnly_scrollIntoView _)

theorem stopsOnly_typeText (text : String) : StopsOnly P (typeText setup text) := by
  have typing (element : η) : StopsOnly P (onSession (Session.sendKeys setup.page element text) : RunM σ η ν Unit) :=
    stopsOnly_onSession (Session.stopsOnly_sendKeys failing _ _)
  refine stopsOnly_bind (stopsOnly_target failing searching false) fun element => ?_
  refine stopsOnly_bind (stopsOnly_clickCenter failing _) fun _ => ?_
  refine stopsOnly_bind (stopsOnly_demand failing _ _) fun focused => ?_
  refine stopsOnly_bind (stopsOnly_setMemory _) fun _ => ?_
  refine stopsOnly_bind (stopsOnly_attempt (stopsOnly_demand failing _ _)) fun result => ?_
  cases result with
  | ok => exact typing _
  | error failure => exact stopsOnly_bind (stopsOnly_note _) fun _ => typing _

theorem stopsOnly_select (label : String) : StopsOnly P (select setup label) := by
  have choosing (element : η) :
      StopsOnly P (onSession (Session.selectOption setup.page element label) : RunM σ η ν Unit) :=
    stopsOnly_onSession (Session.stopsOnly_selectOption failing _ _)
  refine stopsOnly_bind (stopsOnly_target failing searching true) fun element => ?_
  refine stopsOnly_bind (stopsOnly_demand failing _ _) fun name => ?_
  exact stopsOnly_ite (stopsOnly_bind (stopsOnly_throw (failing _)) fun _ => choosing element) (choosing element)

theorem stopsOnly_upload {raw : String} (path : ∀ f, setup.uploadPath raw = .error f → P (.fault f)) :
    StopsOnly P (upload setup raw) := by
  refine stopsOnly_bind (stopsOnly_locatedElement failing searching) fun slot => ?_
  refine stopsOnly_bind (stopsOnly_demand failing _ _) fun kind => ?_
  refine stopsOnly_bind (stopsOnly_demand failing _ _) fun name => ?_
  refine stopsOnly_barred (stopsOnly_throw (failing _)) ?_
  split
  · next fault found => exact stopsOnly_throw (path fault found)
  · exact stopsOnly_throw (failing _)
  · exact stopsOnly_demand failing _ _

theorem stopsOnly_press (raw : String) : StopsOnly P (press setup raw) := by
  have pressing (element : η) (key : String) :
      StopsOnly P (onSession (Session.press setup.page element key) : RunM σ η ν Unit) :=
    stopsOnly_demand failing _ _
  unfold press
  cases Key.named? raw with
  | none => exact stopsOnly_throw (failing _)
  | some key =>
    refine stopsOnly_bind ?_ fun element => pressing element key
    refine stopsOnly_first (stopsOnly_demand failing _ _) (fun _ => stopsOnly_pure _) ?_
    refine stopsOnly_bind stopsOnly_memory fun m => ?_
    cases m.active with
    | some element => exact stopsOnly_pure _
    | none =>
      refine stopsOnly_ite (stopsOnly_bind (stopsOnly_locatedElement failing searching) fun slot => ?_) ?_
      · exact stopsOnly_pure _
      · exact stopsOnly_throw (failing _)

theorem stopsOnly_dragTo (c : Command) : StopsOnly P (dragTo setup c) := by
  refine stopsOnly_bind (stopsOnly_locatedElement failing searching) fun source => ?_
  refine stopsOnly_bind (stopsOnly_argument failing c) fun query => stopsOnly_bind stopsOnly_memory fun m => ?_
  refine stopsOnly_bind (stopsOnly_onSession (Locator.stopsOnly_resolve failing _ _ searching)) fun element => ?_
  refine stopsOnly_bind (stopsOnly_demand failing _ _) fun _ => ?_
  exact stopsOnly_setLocated failing _ _

end Commands

/-- What ends a command with a fault where the run has this memory: a pause that cannot be made, or the path that its
upload is given. -/
inductive Hinders (setup : Setup σ η ν) (c : Command) (m : Memory η) : Fault → Prop where
  | delay {refusal : PauseFault} (refused : setup.delayRefusal? = some refusal) : Hinders setup c m refusal.fault
  | chill {param : Param} {raw : String} {seconds : Float} {refusal : PauseFault} (verb : c.verb = .chill)
      (given : c.param = some param) (value : m.valueOf param = .ok raw) (read : pauseSeconds? raw = some seconds)
      (refused : setup.page.refuses seconds = some refusal) : Hinders setup c m refusal.fault
  | upload {param : Param} {raw : String} {fault : Fault} (verb : c.verb = .upload) (given : c.param = some param)
      (value : m.valueOf param = .ok raw) (path : setup.uploadPath raw = .error fault) : Hinders setup c m fault
  | search {refusal : PauseFault} (verb : c.verb.Searches) (refused : setup.searchRefusal? = some refusal) :
      Hinders setup c m refusal.fault

/-- A command that takes a text stops as what it does with its text does. -/
theorem stopped_of_argument {c : Command} {next : String → RunM σ η ν Unit} {f : Fault} {s t : RunState σ η ν}
    (stopped : (argument c >>= next) s = .error (.fault f) t) :
    ∃ param raw, c.param = some param ∧ s.memory.valueOf param = .ok raw ∧ next raw s = .error (.fault f) t := by
  rcases bind_eq_error.mp stopped with untold | ⟨raw, u, given, ended⟩
  · have failure := stopsOnly_argument (P := fun stop => stop ≠ .fault f) (fun _ => by simp) c s _ t untold
    exact absurd rfl failure
  · obtain ⟨rfl, param, told, value⟩ := argument_eq_ok given
    exact ⟨param, raw, told, value, ended⟩

theorem hinders_of_act {phase : Phase} {c : Command} {f : Fault} {s t : RunState σ η ν}
    (stopped : setup.act phase c s = .error (.fault f) t) : setup.Hinders c s.memory f := by
  -- A fault has to be one of those that the command can come to where it is carried out.
  let P (stop : Stop) : Prop := ∀ f, stop = .fault f → setup.Hinders c s.memory f
  have failing (failure : Failure) : P (.failure failure) := fun _ same => by cases same
  have only {x : RunM σ η ν Unit} (stops : StopsOnly P x) (ended : x s = .error (.fault f) t) :
      setup.Hinders c s.memory f := stops s _ t ended f rfl
  have given : StopsOnly P (argument c : RunM σ η ν String) := stopsOnly_argument failing c
  have searches (verb : c.verb.Searches) (r : PauseFault) (refused : setup.searchRefusal? = some r) :
      P (.fault r.fault) := fun _ same => by
    cases same
    exact .search verb refused
  unfold act at stopped
  cases verb : c.verb <;> rw [verb] at searches <;> simp only [verb] at stopped
  case url =>
    have going (address : String) : StopsOnly P (onSession (Session.navigate setup.page address) : RunM σ η ν Unit) :=
      stopsOnly_onSession (Session.stopsOnly_navigate failing address)
    refine only (stopsOnly_bind given fun raw => ?_) stopped
    exact stopsOnly_ite (stopsOnly_bind (stopsOnly_throw (failing _)) fun _ => going _) (going _)
  case locate | locateNoScroll =>
    exact only (stopsOnly_bind given fun query => stopsOnly_locate failing (searches trivial) query _) stopped
  case click =>
    refine only (stopsOnly_bind (stopsOnly_target failing (searches trivial) false) fun element => ?_) stopped
    exact stopsOnly_bind (stopsOnly_clickCenter failing element) fun _ => stopsOnly_setMemory _
  case type => exact only (stopsOnly_bind given (stopsOnly_typeText failing (searches trivial))) stopped
  case select => exact only (stopsOnly_bind given (stopsOnly_select failing (searches trivial))) stopped
  case upload =>
    obtain ⟨param, raw, told, value, stopped⟩ := stopped_of_argument stopped
    refine only (stopsOnly_upload failing (searches trivial) fun f path => ?_) stopped
    intro _ same
    cases same
    exact .upload verb told value path
  case readTo =>
    refine only (stopsOnly_bind (stopsOnly_locatedElement failing (searches trivial)) fun slot => ?_) stopped
    exact stopsOnly_bind (stopsOnly_demand failing _ _) fun text => stopsOnly_setMemory _
  case press => exact only (stopsOnly_bind given (stopsOnly_press failing (searches trivial))) stopped
  case refresh => exact only (stopsOnly_demand failing _ _) stopped
  case screenshot => exact only (stopsOnly_bind (stopsOnly_demand failing _ _) fun png => stopsOnly_setMemory _) stopped
  case chill =>
    obtain ⟨param, raw, told, value, stopped⟩ := stopped_of_argument stopped
    cases read : pauseSeconds? raw with
    | none =>
      rw [read] at stopped
      cases stopped
    | some seconds =>
      rw [read] at stopped
      refine only (stopsOnly_onSession (Session.stopsOnly_pause fun r refused => ?_)) stopped
      intro _ same
      cases same
      exact .chill verb told value read refused
  case dragTo => exact only (stopsOnly_dragTo failing (searches trivial) c) stopped
  case acceptAlert | dismissAlert =>
    exact only (stopsOnly_onSession (Session.stopsOnly_takeDialog failing _)) stopped
  case tryAgain => exact only (stopsOnly_ite (stopsOnly_setMemory _) (stopsOnly_pure _)) stopped

theorem hinders_of_perform {phase : Phase} {c : Command} {f : Fault} {s t : RunState σ η ν}
    (stopped : setup.perform phase c s = .error (.fault f) t) : setup.Hinders c s.memory f := by
  cases refused : setup.delayRefusal? with
  | some refusal =>
    rw [perform_of_refused refused] at stopped
    cases stopped
    exact .delay refused
  | none =>
    rw [perform_of_made refused] at stopped
    exact memory_paused setup s ▸ hinders_of_act stopped

/-- How a statement ends with a fault: at a command that is reached, or where its anchor is searched for. -/
inductive Breaks (setup : Setup σ η ν) (phase : Phase) (form : Form) (start : RunState σ η ν) (f : Fault) : Prop where
  | command {earlier later : List Command} {c : Command} {begun reached t : RunState σ η ν}
      (shape : form.commands = earlier ++ c :: later)
      (reaches : setup.Reaches phase form earlier start begun reached)
      (stopped : setup.perform phase c reached = .error (.fault f) t) (hinders : setup.Hinders c reached.memory f)
  | anchor {param : Param} {body : List Command} {t : RunState σ η ν} (under : form = .under (some param) body)
      (stopped : setup.anchorElement (some param) start = .error (.fault f) t)
      (searching : ∃ refusal, setup.searchRefusal? = some refusal ∧ f = refusal.fault)

theorem stopped_of_performAll {phase : Phase} {body : List Command} {stop : Stop} {s t : RunState σ η ν}
    (stopped : setup.performAll phase body s = .error stop t) :
    ∃ earlier c later reached, body = earlier ++ c :: later ∧ setup.performAll phase earlier s = .ok () reached ∧
      setup.perform phase c reached = .error stop t := by
  induction body generalizing s with
  | nil => cases stopped
  | cons c later ih =>
    rcases bind_eq_error.mp stopped with stopped | ⟨_, u, done, stopped⟩
    · exact ⟨[], c, later, s, rfl, rfl, stopped⟩
    · obtain ⟨earlier, c', later', reached, rfl, performed, stopped⟩ := ih stopped
      exact ⟨c :: earlier, c', later', reached, rfl, (bind_of_ok done).trans performed, stopped⟩

theorem searching_of_anchorElement {anchor : Option Param} {f : Fault} {s t : RunState σ η ν}
    (stopped : setup.anchorElement anchor s = .error (.fault f) t) :
    ∃ param, anchor = some param ∧ ∃ refusal, setup.searchRefusal? = some refusal ∧ f = refusal.fault := by
  let P (stop : Stop) : Prop :=
    ∀ f, stop = .fault f → ∃ param, anchor = some param ∧ ∃ refusal, setup.searchRefusal? = some refusal ∧
      f = refusal.fault
  have failing (failure : Failure) : P (.failure failure) := fun _ same => by cases same
  have only : StopsOnly P (setup.anchorElement anchor) := by
    cases anchor with
    | none =>
      refine stopsOnly_first (stopsOnly_demand failing _ _) (fun _ => stopsOnly_pure _) ?_
      exact stopsOnly_throw (failing _)
    | some param =>
      refine stopsOnly_bind stopsOnly_memory fun m => ?_
      cases m.valueOf param with
      | error failure => exact stopsOnly_throw (failing _)
      | ok query =>
        refine stopsOnly_bind (stopsOnly_onSession (Locator.stopsOnly_resolve failing _ _ fun r refused => ?_))
          fun element => ?_
        · intro _ same
          cases same
          exact ⟨param, rfl, r, refused, rfl⟩
        · exact stopsOnly_bind (stopsOnly_onSession (Session.stopsOnly_scrollIntoView _)) fun _ => stopsOnly_pure _
  exact only s _ t stopped f rfl

theorem breaks_of_performAll {phase : Phase} {form : Form} {body : List Command} {f : Fault}
    {start begun mid t : RunState σ η ν} (earlier : List Command) (shape : form.commands = earlier ++ body)
    (reaches : setup.Reaches phase form earlier start begun mid)
    (stopped : setup.performAll phase body mid = .error (.fault f) t) : setup.Breaks phase form start f := by
  obtain ⟨before, c, later, reached, rfl, performed, stopped⟩ := stopped_of_performAll stopped
  refine .command (shape.trans (List.append_assoc _ _ _).symm) ⟨reaches.entered, ?_⟩ stopped (hinders_of_perform stopped)
  rw [performAll_append, bind_of_ok reaches.performed]
  exact performed

theorem breaks_of_carryOut {phase : Phase} {form : Form} {f : Fault} {s t : RunState σ η ν}
    (stopped : setup.carryOut phase form s = .error (.fault f) t) : setup.Breaks phase form s f := by
  cases form with
  | comment text => cases stopped
  | save value name => cases stopped
  | run body => exact breaks_of_performAll [] rfl ⟨rfl, rfl⟩ stopped
  | handler body => exact breaks_of_performAll [] rfl ⟨rfl, rfl⟩ stopped
  | conditional predicate body =>
    rcases bind_eq_error.mp stopped with stopped | ⟨result, u, tried, stopped⟩
    · unfold RunM.attempt at stopped
      split at stopped
      · cases stopped
      · cases stopped
      · next fault v faulted =>
        cases stopped
        have shape : (Form.conditional predicate body).commands = [] ++ predicate :: body := rfl
        exact .command shape ⟨rfl, rfl⟩ faulted (hinders_of_perform faulted)
    · cases result with
      | error failure => cases stopped
      | ok =>
        -- The predicate held, so it is one of the commands that come earlier.
        have held : setup.perform phase predicate s = .ok () u := by
          unfold RunM.attempt at tried
          split at tried
          · next held =>
            cases tried
            exact held
          · cases tried
          · cases tried
        exact breaks_of_performAll [predicate] rfl ⟨rfl, bind_of_ok held⟩ stopped
  | under anchor body =>
    rcases bind_eq_error.mp stopped with stopped | ⟨element, u, anchored, stopped⟩
    · obtain ⟨param, rfl, searching⟩ := searching_of_anchorElement stopped
      exact .anchor rfl stopped searching
    · change RunM.andFinally (setup.performAll phase body) (setScope none) (setScope (some element) u) = _ at stopped
      unfold RunM.andFinally at stopped
      split at stopped
      · cases stopped
      · next faulted =>
        cases stopped
        exact breaks_of_performAll [] rfl ⟨bind_of_ok anchored, rfl⟩ faulted

/-- A statement ends with a fault just where something breaks it. -/
theorem carryOut_eq_fault {phase : Phase} {form : Form} {f : Fault} {s : RunState σ η ν} :
    (∃ t, setup.carryOut phase form s = .error (.fault f) t) ↔ setup.Breaks phase form s f := by
  constructor
  · rintro ⟨t, stopped⟩
    exact breaks_of_carryOut stopped
  · intro breaks
    cases breaks with
    | command shape reaches stopped hinders => exact reaches.stopped shape (fun _ same => by cases same) stopped
    | anchor under stopped searching =>
      subst under
      exact ⟨_, bind_eq_error.mpr (Or.inl stopped)⟩

/-- Arming the dialogs before a statement and disarming them afterwards has no part in its faults. -/
theorem execute_eq_fault {phase : Phase} {st : Statement} {upcoming : Option Answer} {f : Fault}
    {s : RunState σ η ν} :
    (∃ t, setup.execute phase st upcoming s = .error (.fault f) t) ↔
      setup.Breaks phase st.form (readied st upcoming s) f := by
  rw [← carryOut_eq_fault]
  simp only [execute_eq, RunM.andFinally]
  cases setup.carryOut phase st.form (readied st upcoming s) with
  | ok _ t => simp
  | error stop t => simp

end Setup
end Walkthrough
