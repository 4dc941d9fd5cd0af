import Walkthrough.Proofs.Run.Alerts
import Walkthrough.Proofs.Run.Placed

/-!
What a statement leaves for the next one. A page can keep the dialogs that open, each with the answer that was
given or attempted (`Page.attentive`). While a statement is carried out, that is always the answer armed for it.
However it ends, no answer is armed afterwards and the search is not confined, and so every statement of a run
begins (`execute_clears`).
-/
namespace Walkthrough

open Walkthrough.Action Session

variable {σ η ν : Type}

/-- A dialog that opened, with the answer that it was given, or refused for the reason told. -/
structure Encounter where
  message : String
  answer : Answer
  refusal : Option String
  deriving DecidableEq, Repr

def Happening.encounter? (answer : Answer) : Happening ν → Option Encounter
  | .note _ => none
  | .dialog message refusal => some ⟨message, answer, refusal⟩

theorem Happening.answer_of_encounter {happenings : List (Happening ν)} {answer : Answer} {x : Encounter}
    (among : x ∈ happenings.filterMap (Happening.encounter? answer)) : x.answer = answer := by
  obtain ⟨happening, -, met⟩ := List.mem_filterMap.mp among
  cases happening with
  | note n => cases met
  | dialog message refusal =>
    cases met
    rfl

/-- The page, which keeps the dialogs that open while it is at work. -/
def Page.attentive (page : Page σ η ν) : Page (σ × List Encounter) η ν where
  perform r answer s :=
    let reply := page.perform r answer s.1
    ⟨reply.result, reply.happenings, (reply.state, s.2 ++ reply.happenings.filterMap (Happening.encounter? answer))⟩
  sleep seconds answer s :=
    let (happenings, state) := page.sleep seconds answer s.1
    (happenings, (state, s.2 ++ happenings.filterMap (Happening.encounter? answer)))
  refuses := page.refuses
  levels s := page.levels s.1

theorem Page.attentive_extends (page : Page σ η ν) : page.attentive.Extends page where
  perform _ _ _ := ⟨_, rfl⟩
  sleep _ _ _ := ⟨_, rfl⟩
  refuses _ := rfl
  levels _ := rfl

/-- What is armed, what stands, and the one answer to all dialogs that were met. -/
structure Session.Answering (armed : Option Answer) (standing : Answer) (s : Session (σ × List Encounter) ν) : Prop where
  arms : s.dialogs.armed = armed
  stands : s.dialogs.standing = standing
  answers : ∀ x ∈ s.page.2, x.answer = armed.getD standing

namespace Session.Answering

variable {armed : Option Answer} {standing : Answer} {s : Session (σ × List Encounter) ν}

theorem of_dialogs {d : Dialogs} (answering : Answering armed standing s) (same : d.armed = s.dialogs.armed)
    (stands : d.standing = s.dialogs.standing) : Answering armed standing { s with dialogs := d } :=
  ⟨same.trans answering.arms, stands.trans answering.stands, answering.answers⟩

theorem absorb (happening : Happening ν) (answering : Answering armed standing s) :
    Answering armed standing (s.absorb happening) := by
  cases happening with
  | note n => exact ⟨answering.arms, answering.stands, answering.answers⟩
  | dialog message refusal => cases refusal <;> exact ⟨answering.arms, answering.stands, answering.answers⟩

/-- The page has been at work, and keeps the dialogs that opened. -/
theorem worked (answering : Answering armed standing s) (page : σ) (happenings : List (Happening ν)) :
    Answering armed standing (Session.absorbAll
      { s with page := (page, s.page.2 ++ happenings.filterMap (Happening.encounter? s.dialogs.answer)) }
      happenings) := by
  refine absorbAll_lasts absorb happenings ⟨answering.arms, answering.stands, ?_⟩
  refine List.forall_mem_append.mpr ⟨answering.answers, fun x among => ?_⟩
  rw [Happening.answer_of_encounter among, Dialogs.answer, answering.arms, answering.stands]

end Session.Answering

namespace Setup

variable (setup : Setup σ η ν) {armed : Option Answer} {standing : Answer}

theorem answering_lasting (armed : Option Answer) (standing : Answer) :
    (setup.over setup.page.attentive).Lasting (fun _ => True)
      fun (_ : Memory η) s => Answering armed standing s := by
  have asked {α : Type} (r : Request η α) {s : Session (σ × List Encounter) ν}
      (answering : Answering armed standing s) :
      Answering armed standing (final (Session.ask setup.page.attentive r s)) := answering.worked _ _
  have taken (wanted : Answer) {s : Session (σ × List Encounter) ν} (answering : Answering armed standing s) :
      Answering armed standing (final (takeDialog wanted s)) := by
    rw [final_takeDialog, Dialogs.take_dialogs]
    exact answering.of_dialogs rfl rfl
  exact
    { note := fun n answering => ⟨answering.arms, answering.stands, answering.answers⟩
      ask := fun r _ _ _ answering => asked r answering
      pause := fun seconds _ s answering => by
        cases refused : setup.page.attentive.refuses seconds with
        | some refusal => exact (congrArg final (pause_of_refused refused s)).symm ▸ answering
        | none => exact (congrArg final (pause_of_made refused s)).symm ▸ answering.worked _ _
      elements := fun _ _ answering => answering
      reading := fun _ _ _ _ _ answering => answering
      screenshot := fun _ m s s' answering => by
        have seen : Answering armed standing (final (Session.screenshot setup.page.attentive s)) := by
          rw [Session.screenshot, final_demand]
          exact asked .screenshot answering
        have same {result} (ended : Session.screenshot setup.page.attentive s = result) :
            Answering armed standing (final result) := ended ▸ seen
        exact ⟨fun png done => same done, fun failure refused => same refused⟩
      leave := fun _ _ _ answering => answering.of_dialogs rfl rfl
      accept := fun _ _ _ answering => taken .accept answering
      dismiss := fun _ _ _ answering => taken .dismiss answering
      again := fun _ _ _ answering => answering }

theorem scope_lasting (scope : Option η) :
    setup.Lasting (fun _ => True) fun (m : Memory η) _ => m.scope = scope :=
  .of_memory setup (fun _ _ same => same) (fun _ _ _ _ same => same) (fun _ _ _ same => same) fun _ _ same => same

open RunM in
/-- The search is confined for the commands of a statement only. -/
theorem carryOut_unconfined (phase : Phase) (form : Form) :
    Keeps (fun m => m.scope = none) (setup.carryOut phase form) := by
  have each (c : Command) : Keeps (fun m => m.scope = none) (setup.perform phase c) :=
    fun _ same => ⟨(setup.scope_lasting none).perform phase c trivial same, fun _ _ _ => trivial⟩
  have all (body : List Command) : Keeps (fun m => m.scope = none) (setup.performAll phase body) :=
    fun _ same => ⟨(setup.scope_lasting none).performAll phase body (fun _ _ => trivial) same, fun _ _ _ => trivial⟩
  cases form with
  | comment text => exact guards_pure trivial
  | save value name => exact fun s same => ⟨same, fun _ _ _ => trivial⟩
  | run body => exact all body
  | handler body => exact all body
  | conditional predicate body =>
    refine keeps_bind (keeps_attempt (each predicate)) fun result => ?_
    cases result with
    | error failure => exact keeps_onSession _
    | ok => exact all body
  | under anchor body =>
    have found : Keeps (fun m => m.scope = none) (setup.anchorElement anchor) :=
      fun _ same => ⟨(setup.scope_lasting none).anchorElement anchor same, fun _ _ _ => trivial⟩
    refine keeps_bind found fun element s same => ⟨?_, fun _ _ _ => trivial⟩
    -- Whether the body comes to its end or stops, the search is set free then.
    change (final (andFinally (performAll setup phase body) (setScope none)
      (setScope (some element) s))).memory.scope = none
    rw [final_andFinally]
    rfl

end Setup

/-- Between two statements: the search is not confined, and no answer is armed. -/
structure RunState.Clear (s : RunState σ η ν) : Prop where
  unconfined : s.memory.scope = none
  unarmed : s.session.dialogs.armed = none

namespace Setup

variable {setup : Setup σ η ν} {phase : Phase} {st : Statement} {upcoming : Option Answer}

theorem armed_readied {s : RunState σ η ν} (clear : s.Clear) :
    (readied st upcoming s).session.dialogs.armed = armedFor st upcoming := by
  unfold readied
  cases armedFor st upcoming with
  | none => exact clear.unarmed
  | some answer => rfl

theorem final_execute (s : RunState σ η ν) :
    final (setup.execute phase st upcoming s) =
      relieved st upcoming (final (setup.carryOut phase st.form (readied st upcoming s))) := by
  rw [execute_eq, RunM.final_andFinally]

theorem answering_execute {s : RunState σ η ν} (clear : s.Clear) :
    Answering (armedFor st upcoming) s.session.dialogs.standing
      (final ((setup.over setup.page.attentive).carryOut phase st.form
        (readied st upcoming (s.keeping [])))).session := by
  have begun : Answering (armedFor st upcoming) s.session.dialogs.standing
      (readied st upcoming (s.keeping [])).session := by
    refine ⟨armed_readied ⟨clear.unconfined, clear.unarmed⟩, ?_, ?_⟩
    all_goals
      unfold readied
      cases armedFor st upcoming
    · rfl
    · rfl
    · exact List.forall_mem_nil _
    · exact List.forall_mem_nil _
  exact (setup.answering_lasting _ _).carryOut (fun _ _ same => same) (fun _ same => same) phase st.form
    (fun _ _ => trivial) begun

theorem answering_relieved {s : RunState (σ × List Encounter) η ν} {standing : Answer}
    (answering : Answering (armedFor st upcoming) standing s.session) :
    (relieved st upcoming s).session.dialogs.armed = none ∧
      ∀ x ∈ (relieved st upcoming s).kept, x.answer = (armedFor st upcoming).getD standing := by
  unfold relieved
  cases armed : armedFor st upcoming with
  | none =>
    rw [armed] at answering
    exact ⟨answering.arms, answering.answers⟩
  | some answer =>
    rw [armed] at answering
    exact ⟨rfl, answering.answers⟩

/-- The state as a watched statement leaves it. -/
theorem watched_execute {s : RunState σ η ν} (clear : s.Clear) :
    (final ((setup.over setup.page.attentive).execute phase st upcoming (s.keeping []))).session.dialogs.armed = none ∧
      ∀ x ∈ (final ((setup.over setup.page.attentive).execute phase st upcoming (s.keeping []))).kept,
        x.answer = (armedFor st upcoming).getD s.session.dialogs.standing := by
  rw [final_execute]
  exact answering_relieved (answering_execute clear)

theorem execute_attentive (setup : Setup σ η ν) (phase : Phase) (st : Statement) (upcoming : Option Answer)
    (s : RunState σ η ν) :
    mapState RunState.inner ((setup.over setup.page.attentive).execute phase st upcoming (s.keeping [])) =
      setup.execute phase st upcoming s :=
  (setup.conduct_extends setup.page.attentive_extends).execute 0 phase st upcoming (s.keeping [])

theorem clear_execute (setup : Setup σ η ν) (phase : Phase) (st : Statement) (upcoming : Option Answer)
    {s : RunState σ η ν} (clear : s.Clear) : (final (setup.execute phase st upcoming s)).Clear := by
  constructor
  · have kept := (setup.carryOut_unconfined phase st.form (readied st upcoming s)
      ((congrArg Memory.scope (memory_readied st upcoming s)).trans clear.unconfined)).1
    rw [final_execute, memory_relieved]
    exact kept
  · rw [← setup.execute_attentive, final_mapState]
    exact (watched_execute clear).1

end Setup

/-- Every statement of a run begins and ends with the search not confined and no answer armed. -/
theorem Setup.clear_lasting (setup : Setup σ η ν) (script : Script) :
    setup.conduct.observed.Lasting script fun (m : Memory η) (s : Session (σ × List (Sighting σ η ν)) ν) =>
      (RunState.mk s m).inner.Clear ∧ ∀ v, .visited v ∈ s.page.2 → v.before.Clear ∧ v.after.Clear where
  finish := fun {m s} ⟨clear, visits⟩ => by
    refine ⟨⟨clear.unconfined, clear.unarmed⟩, fun v among => ?_⟩
    rcases List.mem_append.mp among with earlier | last
    · exact visits v earlier
    · cases List.mem_singleton.mp last
  note _ holds := ⟨⟨holds.1.unconfined, holds.1.unarmed⟩, holds.2⟩
  drain holds := ⟨⟨holds.1.unconfined, holds.1.unarmed⟩, holds.2⟩
  forget holds := ⟨⟨holds.1.unconfined, holds.1.unarmed⟩, holds.2⟩
  execute place phase upcoming st _ s holds := by
    obtain ⟨clear, visits⟩ := holds
    have after : (final (setup.conduct.execute place phase st upcoming s.inner)).Clear :=
      setup.clear_execute phase st upcoming clear
    have seen {failure : Option Failure} {t : RunState σ η ν} (left : t.Clear) :
        ∀ v, .visited v ∈ s.kept ++ [Sighting.visited ⟨place, phase, st, upcoming, s.inner, failure, t⟩] →
          v.before.Clear ∧ v.after.Clear := by
      intro v among
      rcases List.mem_append.mp among with earlier | last
      · exact visits v earlier
      · obtain rfl := Sighting.visited.inj (List.mem_singleton.mp last)
        exact ⟨clear, left⟩
    unfold Conduct.observed
    dsimp only
    cases result : setup.conduct.execute place phase st upcoming s.inner with
    | ok _ t =>
      rw [result] at after
      exact ⟨after, seen after⟩
    | error stop t =>
      rw [result] at after
      cases stop with
      | failure failure => exact ⟨after, seen after⟩
      | fault fault => exact ⟨after, visits⟩

/-- A statement that begins with the search not confined and no answer armed ends so, however it ends, and the answer
that is given or attempted to every dialog that opens meanwhile is that of its first alert command, or else the
upcoming one, or else the standing one. In a run, whether it returns or not, every statement begins and ends so. -/
theorem execute_clears (setup : Setup σ η ν) :
    (∀ phase st upcoming (s : RunState σ η ν), s.Clear →
      let watched := (setup.over setup.page.attentive).execute phase st upcoming (s.keeping [])
      mapState RunState.inner watched = setup.execute phase st upcoming s ∧
        (final (setup.execute phase st upcoming s)).Clear ∧
        ∀ x ∈ (final watched).kept,
          x.answer = ((Answer.first? st.form.commands).or upcoming).getD s.session.dialogs.standing) ∧
    ∀ script row startedAt (session : Session σ ν), session.dialogs.armed = none →
      let observed := setup.observedRun script row startedAt session
      mapState RunState.inner observed = setup.run script row startedAt session ∧
        (final (setup.run script row startedAt session)).Clear ∧
        ∀ v, .visited v ∈ (final observed).kept → v.before.Clear ∧ v.after.Clear := by
  refine ⟨fun phase st upcoming s clear => ?_, fun script row startedAt session unarmed => ?_⟩
  · exact ⟨setup.execute_attentive phase st upcoming s, setup.clear_execute phase st upcoming clear,
      (Setup.watched_execute clear).2⟩
  · have begun : ({ session, memory := { row } } : RunState σ η ν).Clear := ⟨rfl, unarmed⟩
    obtain ⟨clear, visits⟩ := (setup.clear_lasting script).run setup.runName startedAt
      (s := { session := session.keeping [], memory := { row } })
      ⟨begun, fun v among => absurd among List.not_mem_nil⟩
    refine ⟨setup.observedRun_mirrors script row startedAt session, ?_, visits⟩
    rw [← setup.observedRun_mirrors, final_mapState]
    exact clear

def pictureUnlessAsked : Statement where
  form := .conditional { verb := .screenshot } [{ verb := .dismissAlert }]
  line := 1

/-- The answer to the dialog that the predicate opens is that of the body. -/
theorem execute_clears_askingBack :
    let begun : RunState Unit Unit Unit := { session := { page := () } }
    let watched := (askingBack.over askingBack.page.attentive).execute .running pictureUnlessAsked (some .accept)
      (begun.keeping [])
    begun.Clear ∧ (final watched).kept = [⟨"Really?", .dismiss, none⟩] ∧
      (∀ x ∈ (final watched).kept, x.answer = .dismiss) ∧
      (final (askingBack.execute .running pictureUnlessAsked (some .accept) begun)).Clear ∧
      (final (askingBack.run (.ofStatements [pictureUnlessAsked]) [] ⟨2024, 1, 2, 3, 4, 5, 0⟩ { page := () })).Clear := by
  obtain ⟨statements, runs⟩ := execute_clears askingBack
  have clear : ({ session := { page := () } } : RunState Unit Unit Unit).Clear := ⟨rfl, rfl⟩
  obtain ⟨-, cleared, answers⟩ := statements .running pictureUnlessAsked (some .accept) _ clear
  obtain ⟨-, ended, -⟩ := runs (.ofStatements [pictureUnlessAsked]) [] ⟨2024, 1, 2, 3, 4, 5, 0⟩ { page := () } rfl
  exact ⟨clear, rfl, answers, cleared, ended⟩

end Walkthrough
