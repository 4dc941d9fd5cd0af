import Mathlib.Data.List.Chain
import Walkthrough.Proofs.Run.Lasting
import Walkthrough.Proofs.Run.Visits
import Walkthrough.Proofs.Session.DialogHistory

/-!
When the dialogs of a run can be taken. During a visit, the dialogs that open join those that wait, and what
goes, goes from the front (`Continues`). Each visit is finished once, so that a dialog that still waits
when a visit begins was answered during the visit before, or before the run (`HandsOver`).
-/
namespace Walkthrough

open Walkthrough.Action Session

variable {σ η ν : Type}

/-- The dialog that an entry of the journal tells of, if it is made during this statement. -/
def Entry.dialog? (statement : Nat) : Entry ν → Option AnsweredDialog
  | .answered message answer => some ⟨message, answer, statement⟩
  | _ => none

/-- The dialogs that were answered during a visit, by the journal. -/
def Visit.answered (v : Visit σ η ν) : List AnsweredDialog :=
  (v.after.session.journal.toList.drop v.before.session.journal.size).filterMap
    (Entry.dialog? v.before.session.dialogs.statement)

/-- From one session to a later one in the same statement: dialogs that opened meanwhile wait behind those
that waited, and some at the front may be gone. -/
structure Continues (s t : Session σ ν) : Prop where
  statement : t.dialogs.statement = s.dialogs.statement
  waits : ∃ later, t.journal.toList = s.journal.toList ++ later ∧
    t.dialogs.pending <:+ s.dialogs.pending ++ later.filterMap (Entry.dialog? s.dialogs.statement)

namespace Continues

variable {s t : Session σ ν}

theorem refl (s : Session σ ν) : Continues s s :=
  ⟨rfl, [], (List.append_nil _).symm, by simp⟩

variable (continues : Continues s t)
include continues

theorem push {entry : Entry ν} (silent : Entry.dialog? s.dialogs.statement entry = none) :
    Continues s { t with journal := t.journal.push entry } := by
  obtain ⟨later, journal, waits⟩ := continues.waits
  refine ⟨continues.statement, later ++ [entry], ?_, ?_⟩
  · rw [Array.toList_push, journal, List.append_assoc]
  · rw [List.filterMap_append, List.filterMap_cons_none silent, List.filterMap_nil, List.append_nil]
    exact waits

theorem record (n : Notice) : Continues s (t.record n) := continues.push rfl

theorem opened (message : String) :
    Continues s { t with
      journal := t.journal.push (.answered message t.dialogs.answer), dialogs := t.dialogs.opened message } := by
  obtain ⟨later, journal, gone, waits⟩ := continues.waits
  refine ⟨continues.statement, later ++ [.answered message t.dialogs.answer], ?_, gone, ?_⟩
  · rw [Array.toList_push, journal, List.append_assoc]
  · rw [List.filterMap_append, ← List.append_assoc, ← waits, Dialogs.opened, continues.statement]
    exact (List.append_assoc _ _ _).symm

theorem absorb (happening : Happening ν) : Continues s (t.absorb happening) := by
  cases happening with
  | note n => exact continues.push rfl
  | dialog message refusal =>
    cases refusal with
    | some reason => exact (continues.record _).record _
    | none => exact (continues.record (.dialogOpened t.dialogs.answer message)).opened message

theorem fewer {d : Dialogs} (same : d.statement = t.dialogs.statement)
    (fewer : d.pending <:+ t.dialogs.pending) : Continues s { t with dialogs := d } := by
  obtain ⟨later, journal, waits⟩ := continues.waits
  exact ⟨same.trans continues.statement, later, journal, fewer.trans waits⟩

theorem taking (wanted : Answer) : Continues s (final (takeDialog wanted t)) := by
  rw [final_takeDialog, Dialogs.take_dialogs]
  exact continues.fewer rfl (List.tail_suffix _)

end Continues

namespace Setup

theorem continues_lasting (setup : Setup σ η ν) (start : Session σ ν) :
    setup.Lasting (fun _ => True) fun (_ : Memory η) s => Continues start s :=
  Lasting.of_absorb setup (fun n continues => continues.record n)
    (fun happening continues => continues.absorb happening)
    (fun _ continues => ⟨continues.statement, continues.waits⟩)
    (fun _ _ continues => continues.fewer rfl List.nil_suffix) (fun _ _ continues => continues.taking .accept)
    (fun _ _ continues => continues.taking .dismiss)

theorem continues_stays (start : Session σ ν) : Stays fun (_ : Memory η) s => Continues start s where
  save _ _ continues := continues
  confine _ continues := continues
  arm _ continues := continues.fewer rfl (List.suffix_refl _)

end Setup

/-- What waits of a visit when the next one begins. What does not come from the visit has waited since
before the run. -/
structure HandsOver (initial : List AnsweredDialog) (v : Visit σ η ν) (d : Dialogs) : Prop where
  finished : d = v.after.session.dialogs.finishStatement
  own : ∀ x ∈ d.pending, x ∈ v.answered ∨ x ∈ initial

/-- Between two visits. -/
structure InTime (initial : Dialogs) (visits : List (Visit σ η ν)) (s : RunState σ η ν) : Prop where
  idle : visits = [] → s.session.dialogs = initial
  first : ∀ v ∈ visits.head?, v.before.session.dialogs = initial
  older : ∀ x ∈ s.session.dialogs.pending, x ∈ initial.pending ∨ x.statement < s.session.dialogs.statement
  queued : ∀ v ∈ visits, v.after.session.dialogs.pending <:+ v.before.session.dialogs.pending ++ v.answered
  linked : visits.IsChain fun v w => HandsOver initial.pending v w.before.session.dialogs
  last : ∀ v ∈ visits.getLast?, HandsOver initial.pending v s.session.dialogs

theorem Continues.answered {v : Visit σ η ν} (continues : Continues v.before.session v.after.session) :
    v.after.session.dialogs.pending <:+ v.before.session.dialogs.pending ++ v.answered := by
  obtain ⟨later, journal, waits⟩ := continues.waits
  unfold Visit.answered
  rw [journal, List.drop_append_of_le_length (by simp), ← Array.length_toList, List.drop_length, List.nil_append]
  exact waits

theorem Visit.statement_of_answered {v : Visit σ η ν} {x : AnsweredDialog} (among : x ∈ v.answered) :
    x.statement = v.before.session.dialogs.statement := by
  obtain ⟨entry, -, told⟩ := List.mem_filterMap.mp among
  cases entry with
  | answered message answer =>
    cases told
    rfl
  | _ => cases told

theorem Visit.Done.continues {setup : Setup σ η ν} {v : Visit σ η ν} (done : v.Done setup.conduct) :
    Continues v.before.session v.after.session := by
  have lasting := setup.continues_lasting v.before.session
  have after := lasting.execute (Setup.continues_stays _) v.phase v.statement v.upcoming (fun _ _ => trivial)
    (s := v.before) (.refl _)
  rwa [done.final_eq] at after

/-- What still waits when a visit is finished waited before it or was answered during it, in this statement. -/
theorem Continues.left {v : Visit σ η ν} (continues : Continues v.before.session v.after.session)
    {x : AnsweredDialog} (waits : x ∈ v.after.session.dialogs.finishStatement.pending) :
    (x ∈ v.before.session.dialogs.pending ∨ x ∈ v.answered) ∧
      v.before.session.dialogs.statement ≤ x.statement := by
  obtain ⟨waits, recent⟩ := List.mem_filter.mp waits
  rw [continues.statement] at recent
  exact ⟨List.mem_append.mp (continues.answered.subset waits), of_decide_eq_true recent⟩

theorem Setup.settled_dialogs (setup : Setup σ η ν) (noted : Option Notice) (s : RunState σ η ν) :
    (Run.settled setup.conduct noted s).session.dialogs = s.session.dialogs.finishStatement := by
  cases noted <;> rfl

theorem InTime.visited {setup : Setup σ η ν} {initial : Dialogs} {visits : List (Visit σ η ν)}
    {v : Visit σ η ν} (inTime : InTime initial visits v.before) (done : v.Done setup.conduct)
    (noted : Option Notice) :
    InTime initial (visits ++ [v]) (Run.settled setup.conduct noted v.after) := by
  have continues := done.continues
  have finished := setup.settled_dialogs noted v.after
  constructor
  · intro none
    exact absurd none (by simp)
  · intro u first
    cases visits with
    | nil =>
      obtain rfl := Option.mem_some_iff.mp first
      exact inTime.idle rfl
    | cons other later => exact inTime.first u first
  · intro x waits
    rw [finished] at waits ⊢
    have numbered : v.after.session.dialogs.finishStatement.statement = v.before.session.dialogs.statement + 1 :=
      congrArg (· + 1) continues.statement
    rw [numbered]
    rcases (continues.left waits).1 with before | now
    · exact (inTime.older x before).imp_right Nat.lt_succ_of_lt
    · exact Or.inr (Nat.lt_succ_of_le (Nat.le_of_eq (Visit.statement_of_answered now)))
  · intro u among
    rcases List.mem_append.mp among with earlier | last
    · exact inTime.queued u earlier
    · obtain rfl := List.mem_singleton.mp last
      exact continues.answered
  · refine List.isChain_append.mpr ⟨inTime.linked, List.isChain_singleton v, fun u last w first => ?_⟩
    obtain rfl : v = w := Option.mem_some_iff.mp first
    exact inTime.last u last
  · intro u last
    rw [List.getLast?_append, List.getLast?_singleton] at last
    obtain rfl : v = u := by simpa using last
    refine ⟨finished, fun x waits => ?_⟩
    rw [finished] at waits
    -- What is left is from this statement at least, so if it waited before, it waited before the run.
    obtain ⟨before | now, recent⟩ := continues.left waits
    · exact Or.inr ((inTime.older x before).resolve_right (Nat.not_lt_of_le recent))
    · exact Or.inl now

theorem Setup.upholds_inTime (setup : Setup σ η ν) (script : Script) (initial : Dialogs) :
    Run.Upholds setup.conduct script (InTime initial) where
  note _ inTime := ⟨inTime.idle, inTime.first, inTime.older, inTime.queued, inTime.linked, inTime.last⟩
  forget inTime := ⟨inTime.idle, inTime.first, inTime.older, inTime.queued, inTime.linked, inTime.last⟩
  visit noted inTime before _ done := by
    subst before
    exact inTime.visited done noted

/-- The dialogs that a session holds are those that wait by the history of what was done with it, whatever that
was; an alert command takes the oldest of them, and succeeds if that got the wanted answer. In a run that
returns, each visit is finished once and nothing else is. So what goes during a visit was answered during it, or
during the visit before, or before the run. -/
theorem dialogs_wait_for_alerts (page : Page σ η ν) (operations : List (Operation η ν)) (state : σ)
    (standing : Answer) (journal : Array (Entry ν)) (setup : Setup σ η ν) (script : Script) (row : Bindings)
    (startedAt : Moment) (session : Session σ ν) :
    (let (s, history) := Operation.run page operations { page := state, dialogs := { standing }, journal };
      s.dialogs.pending = (Dialogs.waiting standing history).map Dialogs.Opening.dialog ∧
      ∀ wanted, (succeeded (takeDialog wanted s) ↔
          ∃ oldest later, Dialogs.waiting standing history = oldest :: later ∧ oldest.answer = wanted) ∧
        (final (takeDialog wanted s)).dialogs.pending =
          (Dialogs.waiting standing history).tail.map Dialogs.Opening.dialog) ∧
    mapState RunState.inner (setup.observedRun script row startedAt session) =
      setup.run script row startedAt session ∧
    ∀ record t, setup.observedRun script row startedAt session = .ok record t →
      ∃ visits, t.kept = visits.flatMap Visit.sightings ∧
        Run.Filed setup.conduct script visits record.entries ∧
        (∀ v ∈ visits.head?, v.before.session.dialogs = session.dialogs) ∧
        (∀ v ∈ visits,
          v.after.session.dialogs.pending <:+ v.before.session.dialogs.pending ++ v.answered) ∧
        visits.IsChain fun v w => HandsOver session.dialogs.pending v w.before.session.dialogs := by
  refine ⟨?_, setup.observedRun_mirrors script row startedAt session, ?_⟩
  · have reflects := Operation.reflects_run page standing operations state journal
    generalize Operation.run page operations _ = past at reflects
    obtain ⟨s, history⟩ := past
    refine ⟨reflects.pending, fun wanted => ⟨?_, ?_⟩⟩
    · rw [succeeded_takeDialog, reflects.take_eq_ok]
    · rw [final_takeDialog, Dialogs.take_dialogs, List.map_tail, ← reflects.pending]
  · intro record t returned
    have start : InTime session.dialogs [] ({ session, memory := { row } } : RunState σ η ν) :=
      ⟨fun _ => rfl, by simp, fun _ waits => Or.inl waits, List.forall_mem_nil _, List.isChain_nil, by simp⟩
    have upholds := setup.upholds_inTime script session.dialogs
    obtain ⟨visits, seen, filed, inTime⟩ :=
      upholds.run (s := { session := session.keeping [], memory := { row } }) rfl start returned
    exact ⟨visits, seen, filed, inTime.first, inTime.queued, inTime.linked⟩

/-- A page that asks back whenever a picture of it is taken. -/
def askingBack : Setup Unit Unit Unit where
  locator :=
    { page :=
        { perform := fun r _ s =>
            match r with
            | .screenshot => ⟨.ok ByteArray.empty, [.dialog "Really?" none], s⟩
            | _ => ⟨.error "not here", [], s⟩
          sleep := fun _ _ s => ([], s)
          levels := fun _ => 0 } }
  uploadPath := fun path => .ok (path, false)

theorem perform_askingBack : askingBack.perform = askingBack.act := by
  funext phase c
  unfold Setup.perform
  split
  · rfl
  · rfl

def picture : Statement where
  form := .run [{ verb := .screenshot }, { verb := .acceptAlert }]
  line := 1

theorem execute_askingBack (journal : Array (Entry Unit)) (memory : Memory Unit) :
    ∃ t, askingBack.execute .running picture none ⟨{ page := (), journal }, memory⟩ = .ok () t := by
  simp only [Setup.execute, picture, Setup.carryOut, Setup.performAll, perform_askingBack]
  exact ⟨_, rfl⟩

theorem dialogs_wait_for_alerts_askingBack :
    (Operation.run askingBack.page [.ask .screenshot] { page := () }).1.dialogs.pending =
      [⟨"Really?", .accept, 0⟩] ∧
    ∃ record t, askingBack.observedRun (.ofStatements [picture]) [] ⟨2024, 1, 2, 3, 4, 5, 0⟩ { page := () } =
        .ok record t ∧
      ∃ visits : List (Visit Unit Unit Unit), t.kept = visits.flatMap Visit.sightings ∧
        ∀ v ∈ visits, v.after.session.dialogs.pending <:+ v.before.session.dialogs.pending ++ v.answered := by
  have wait := dialogs_wait_for_alerts askingBack.page [.ask .screenshot] () .accept #[] askingBack
    (.ofStatements [picture]) [] ⟨2024, 1, 2, 3, 4, 5, 0⟩ { page := () }
  have ran : ∃ record t, askingBack.run (.ofStatements [picture]) [] ⟨2024, 1, 2, 3, 4, 5, 0⟩ { page := () } =
      .ok record t := by
    let begun : RunState Unit Unit Unit := { session := { page := () } }
    have one : (Script.ofStatements [picture]).statements = [picture] := rfl
    have done : ∃ u, askingBack.execute .running picture none
        ((begun.noted (.runStarted "run" 1)).noted (.executing picture)) = .ok () u := execute_askingBack _ _
    obtain ⟨u, done⟩ := done
    exact ⟨_, Run.run_of_one one rfl rfl done⟩
  obtain ⟨record, s', ran⟩ := ran
  obtain ⟨t, observed, -⟩ := Setup.observedRun_returns ran
  obtain ⟨visits, seen, -, -, queued, -⟩ := wait.2.2 record t observed
  exact ⟨wait.1.1, record, t, observed, visits, seen, queued⟩

end Walkthrough
