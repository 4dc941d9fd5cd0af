import Walkthrough.Proofs.Run.Attached

/-!
What a command that fails leaves alone. Whatever a command is to write down, it writes when nothing can fail any
more. Before that it may only have found the located element again, or taken its control for it; typing has also
given the focus to an element (`Memory.Spared`, `failures_spare`). A condition that does not hold has the same
effect as a command that fails, and nothing else comes of its statement.
-/
namespace Walkthrough

open Walkthrough.Action

variable {σ η ν α β : Type}

def Verb.Locates (v : Verb) : Prop := v = .locate ∨ v = .locateNoScroll

/-- What a command with this verb has spared of the memory: all but the located element, which still has its
description, and the element last used if it is typed into. -/
structure Memory.Spared (verb : Verb) (before after : Memory η) : Prop where
  rest : after = { before with located := after.located, active := after.active }
  active : verb ≠ .type → after.active = before.active
  described : after.located.map (·.query) = before.located.map (·.query)
  located : verb.Locates → after.located = before.located

namespace Memory.Spared

variable {verb : Verb} {before m : Memory η}

theorem refl (verb : Verb) (before : Memory η) : Spared verb before before :=
  ⟨rfl, fun _ => rfl, rfl, fun _ => rfl⟩

theorem used (spared : Spared verb before m) (typing : verb = .type) (element : η) :
    Spared verb before { m with active := some element } where
  rest := by rw [spared.rest]
  active other := absurd typing other
  described := spared.described
  located := spared.located

end Memory.Spared

/-- Unless it locates one, a command spares the memory that finds the located element again. -/
theorem Memory.Refinds.spared {verb : Verb} (moving : ¬ verb.Locates) (before : Memory η) :
    Refinds (Spared verb before) fun query => before.located.map (·.query) = some query where
  described m spared slot located := by
    rw [← spared.described, Option.mem_def.mp located]
    rfl
  again _ _ _ same spared :=
    { rest := by rw [spared.rest]
      active := spared.active
      described := same.symm
      located := fun locates => absurd locates moving }

namespace RunM

/-- Where the action stops, the memory still has the property. -/
def Spares (P : Memory η → Prop) (x : RunM σ η ν α) : Prop :=
  ∀ s stop t, P s.memory → x s = .error stop t → P t.memory

variable {P : Memory η → Prop} {Q : α → Prop} {x : RunM σ η ν α} {f : α → RunM σ η ν β}

theorem spares_of_keeps (keeps : Keeps P x) : Spares P x := by
  intro s stop t holds stopped
  have kept := (keeps s holds).1
  rwa [stopped] at kept

theorem spares_bind (first : Guards P x Q) (next : ∀ a, Q a → Spares P (f a)) : Spares P (x >>= f) := by
  intro s stop t holds stopped
  obtain ⟨kept, yields⟩ := first s holds
  rcases bind_eq_error.mp stopped with stopped | ⟨a, u, done, stopped⟩
  · rwa [stopped] at kept
  · rw [done] at kept
    exact next a (yields a u done) u stop t kept stopped

theorem spares_keeps_bind (first : Keeps P x) (next : ∀ a, Spares P (f a)) : Spares P (x >>= f) :=
  spares_bind first fun a _ => next a

theorem spares_memory_bind {g : Memory η → RunM σ η ν β} (next : ∀ m, P m → Spares P (g m)) :
    Spares P (memory >>= g) := fun s stop t holds => next s.memory holds s stop t holds

/-- Writing into the memory does not fail. -/
theorem spares_setMemory (change : Memory η → Memory η) : Spares P (setMemory change : RunM σ η ν Unit) :=
  fun _ _ _ _ stopped => by cases stopped

theorem spares_pure (a : α) : Spares P (pure a : RunM σ η ν α) := fun _ _ _ _ stopped => by cases stopped

theorem spares_ite {p : Prop} [Decidable p] {y : RunM σ η ν α} (met : Spares P x) (missed : Spares P y) :
    Spares P (if p then x else y) := by
  split
  · exact met
  · exact missed

end RunM

namespace Setup

open RunM Memory

variable (setup : Setup σ η ν) {P : Memory η → Prop} {verb : Verb} {before : Memory η}

theorem setLocated_spares (element : η) (query : String) : Spares P (setLocated setup element query) := by
  rw [setLocated_eq]
  exact spares_keeps_bind (setup.drawBorder_keeps element) fun _ => spares_setMemory _

theorem locate_spares (query : String) (scroll : Bool) : Spares P (locate setup query scroll) := by
  refine spares_memory_bind fun m _ => spares_keeps_bind (keeps_onSession _) fun element => ?_
  have last := setup.setLocated_spares (P := P) element query
  cases scroll with
  | true => exact spares_keeps_bind (keeps_onSession _) fun _ => last
  | false => exact last

theorem dragTo_spares (c : Command) : Spares (Spared .dragTo before) (dragTo setup c) := by
  refine spares_bind (setup.locatedElement_guards (.spared (by simp [Verb.Locates]) before)) fun source _ => ?_
  refine spares_keeps_bind (argument_keeps c) fun query => spares_memory_bind fun m _ => ?_
  refine spares_keeps_bind (keeps_onSession _) fun element => spares_keeps_bind (keeps_onSession _) fun _ => ?_
  exact setup.setLocated_spares element query

/-- Up to where a command can stop, it spares what its verb spares. -/
theorem act_spares (phase : Phase) (c : Command) : Spares (Spared c.verb before) (act setup phase c) := by
  have given (v : Verb) : Keeps (Spared v before) (argument c : RunM σ η ν String) := argument_keeps c
  have refinds (v : Verb) (moving : ¬ v.Locates) := Refinds.spared moving before
  unfold act
  cases c.verb with
  | url =>
    refine spares_of_keeps (keeps_bind (given _) fun raw => ?_)
    exact guards_ite (keeps_bind (guards_throw _) fun _ => keeps_onSession _) (keeps_onSession _)
  | locate => exact spares_keeps_bind (given _) fun query => setup.locate_spares query true
  | locateNoScroll => exact spares_keeps_bind (given _) fun query => setup.locate_spares query false
  | click =>
    have handles := setup.handles (refinds .click (by simp [Verb.Locates]))
    refine spares_keeps_bind (handles.target false) fun element => ?_
    exact spares_keeps_bind (handles.clickCenter element) fun _ => spares_setMemory _
  | type =>
    have handles := setup.handles (refinds .type (by simp [Verb.Locates]))
    refine spares_of_keeps (keeps_bind (given _) fun text => ?_)
    exact handles.typeText (fun _ _ element spared => spared.used rfl element) text
  | select =>
    have handles := setup.handles (refinds .select (by simp [Verb.Locates]))
    exact spares_of_keeps (keeps_bind (given _) fun label => handles.select label)
  | upload =>
    have handles := setup.handles (refinds .upload (by simp [Verb.Locates]))
    exact spares_of_keeps (keeps_bind (given _) fun raw => handles.upload raw)
  | readTo =>
    refine spares_bind (setup.locatedElement_guards (refinds .readTo (by simp [Verb.Locates]))) fun slot _ => ?_
    exact spares_keeps_bind (keeps_onSession _) fun text => spares_setMemory _
  | press =>
    have handles := setup.handles (refinds .press (by simp [Verb.Locates]))
    exact spares_of_keeps (keeps_bind (given _) fun key => handles.press key)
  | refresh => exact spares_of_keeps (keeps_onSession _)
  | screenshot => exact spares_keeps_bind (keeps_onSession _) fun png => spares_setMemory _
  | chill =>
    refine spares_keeps_bind (given _) fun raw => ?_
    cases pauseSeconds? raw with
    | none => exact spares_of_keeps (guards_throw _)
    | some seconds => exact spares_of_keeps (keeps_onSession _)
  | dragTo => exact setup.dragTo_spares c
  | acceptAlert => exact spares_of_keeps (keeps_onSession _)
  | dismissAlert => exact spares_of_keeps (keeps_onSession _)
  | tryAgain => exact spares_ite (spares_setMemory _) (spares_pure ())

theorem perform_spares (phase : Phase) (c : Command) : Spares (Spared c.verb before) (perform setup phase c) :=
  spares_ite (spares_keeps_bind (keeps_onSession _) fun _ => setup.act_spares phase c) (setup.act_spares phase c)

/-- A statement whose condition does not hold does what the condition did, and notes it. -/
theorem execute_of_unmet {phase : Phase} {st : Statement} {predicate : Command} {body : List Command}
    {upcoming : Option Answer} {s t : RunState σ η ν} {failure : Failure}
    (shape : st.form = .conditional predicate body)
    (unmet : setup.perform phase predicate (readied st upcoming s) = .error (.failure failure) t) :
    setup.execute phase st upcoming s =
      .ok () (relieved st upcoming (t.noted (.conditionFailed predicate failure))) := by
  have tried : attempt (setup.perform phase predicate) (readied st upcoming s) = .ok (.error failure) t := by
    unfold attempt
    rw [unmet]
  have carried : setup.carryOut phase st.form (readied st upcoming s) =
      .ok () (t.noted (.conditionFailed predicate failure)) := by
    rw [shape]
    exact bind_of_ok tried
  rw [execute_eq]
  unfold andFinally
  rw [carried]

/-- A run that comes upon a failure recovers in the turn it was in, with one more entry. -/
theorem step_of_failure {script : Script} {turn : Turn} {st : Statement} {s t : RunState σ η ν} {failure : Failure}
    (here : script.statements[turn.index]? = some st) (plain : st.isHandler = false) (spoken : st.isComment = false)
    (failed : setup.execute turn.phase st (Answer.upcoming? (script.statements.drop (turn.index + 1)))
      (s.noted (.executing st)) = .error (.failure failure) t) :
    Run.step setup.conduct script turn s =
      Run.recover setup.conduct script (turn.record ⟨st.display, some failure.message, t.memory.screenshots⟩)
        (Run.settled setup.conduct (some (.failed st failure)) t) := by
  have ended : Run.failureOf (setup.execute turn.phase st
      (Answer.upcoming? (script.statements.drop (turn.index + 1)))) (s.noted (.executing st)) =
        .ok (some failure) t := by
    unfold Run.failureOf
    rw [failed]
  unfold Run.step
  simp only [here, plain, spoken, Bool.false_eq_true, if_false]
  exact (bind_of_ok rfl).trans (bind_of_ok ended)

/-- When a command fails, the memory is what it was but for what its verb does not spare. When that command is the
predicate of a condition, the statement comes to its end, whatever the body is, and the memory is spared just so.
The turn that a run is in, with its phase, the handler it went to last and whether its second try is used up, is
nothing that a command has to do with: recovery begins in the turn of the statement that failed. -/
theorem failures_spare (setup : Setup σ η ν) :
    (∀ phase c s failure t, setup.perform phase c s = .error (.failure failure) t →
      Spared c.verb s.memory t.memory) ∧
    (∀ phase st predicate body upcoming s failure t, st.form = .conditional predicate body →
      setup.perform phase predicate (readied st upcoming s) = .error (.failure failure) t →
      ∃ u, setup.execute phase st upcoming s = .ok () u ∧
        u = relieved st upcoming (t.noted (.conditionFailed predicate failure)) ∧
        Spared predicate.verb s.memory u.memory) ∧
    ∀ (script : Script) (turn : Turn) st s failure t, script.statements[turn.index]? = some st →
      st.isHandler = false → st.isComment = false →
      setup.execute turn.phase st (Answer.upcoming? (script.statements.drop (turn.index + 1)))
        (s.noted (.executing st)) = .error (.failure failure) t →
      ∃ later r, Run.step setup.conduct script turn s = Run.recover setup.conduct script later r ∧
        later.phase = turn.phase ∧ later.handler = turn.handler ∧ later.retryUsed = turn.retryUsed := by
  refine ⟨?_, ?_, ?_⟩
  · intro phase c s failure t failed
    exact setup.perform_spares phase c s _ t (.refl c.verb s.memory) failed
  · intro phase st predicate body upcoming s failure t shape unmet
    refine ⟨_, setup.execute_of_unmet shape unmet, rfl, ?_⟩
    have spared := setup.perform_spares phase predicate _ _ t (.refl predicate.verb _) unmet
    rw [memory_readied] at spared
    rwa [memory_relieved]
  · intro script turn st s failure t here plain spoken failed
    exact ⟨_, _, setup.step_of_failure here plain spoken failed, rfl, rfl, rfl⟩

/-- The button has been found, and then the page has been loaded again. -/
def staleButton : RunState Nat (Nat × Bool) Unit where
  session := { page := 1 }
  memory := { located := some ⟨(0, false), "Save"⟩ }

def clickIt : Command := { verb := .click }

/-- Does it end with a failure, before the page is loaded once more, and is the located element the button of the
page as it is now? -/
def failsOnNewButton : EStateM.Result Stop (RunState Nat (Nat × Bool) Unit) Unit → Bool
  | .error (.failure _) t => (t.memory.located.map (·.element)) == some (1, false) && t.session.page == 1
  | _ => false

theorem failed_of_failsOnNewButton {result : EStateM.Result Stop (RunState Nat (Nat × Bool) Unit) Unit}
    (fails : failsOnNewButton result = true) : ∃ failure t, result = .error (.failure failure) t ∧
      t.memory.located.map (·.element) = some (1, false) ∧ t.session.page = 1 := by
  unfold failsOnNewButton at fails
  split at fails
  · obtain ⟨again, page⟩ := Bool.and_eq_true_iff.mp fails
    exact ⟨_, _, rfl, eq_of_beq again, eq_of_beq page⟩
  · cases fails

def refreshIfClicked : Statement := ⟨.conditional clickIt [{ verb := .refresh }], 1⟩

def onlyClick : Script := .ofStatements [⟨.run [clickIt], 1⟩]

/-- A click finds the button again and then fails, as the page does not tell where it is. -/
theorem failures_spare_staleButton :
    (∃ failure t, formSetup.perform .running clickIt staleButton = .error (.failure failure) t ∧
      t.memory.located.map (·.element) = some (1, false) ∧ Spared .click staleButton.memory t.memory) ∧
    (∃ u, formSetup.execute .running refreshIfClicked none staleButton = .ok () u ∧ u.session.page = 1 ∧
      Spared .click staleButton.memory u.memory) ∧
    ∃ later r, Run.step formSetup.conduct onlyClick {} staleButton = Run.recover formSetup.conduct onlyClick later r ∧
      later.retryUsed = false := by
  obtain ⟨spares, conditions, turns⟩ := failures_spare formSetup
  have fails : failsOnNewButton (formSetup.perform .running clickIt staleButton) = true := by
    rw [perform_formSetup]
    decide +kernel
  obtain ⟨failure, t, failed, again, page⟩ := failed_of_failsOnNewButton fails
  refine ⟨⟨failure, t, failed, again, spares _ _ _ _ _ failed⟩, ?_, ?_⟩
  · obtain ⟨u, ended, rfl, spared⟩ :=
      conditions .running refreshIfClicked clickIt _ none staleButton failure t rfl failed
    exact ⟨_, ended, page, spared⟩
  · have fails : failsOnNewButton (formSetup.execute .running ⟨.run [clickIt], 1⟩ none
        (staleButton.noted (.executing ⟨.run [clickIt], 1⟩))) = true := by
      simp only [execute, carryOut, performAll, perform_formSetup]
      decide +kernel
    obtain ⟨failure, t, failed, -, -⟩ := failed_of_failsOnNewButton fails
    obtain ⟨later, r, stepped, -, -, same⟩ :=
      turns onlyClick {} ⟨.run [clickIt], 1⟩ staleButton failure t rfl rfl rfl failed
    exact ⟨later, r, stepped, same⟩

end Setup
end Walkthrough
