import Walkthrough.Proofs.Run.Answers
import Walkthrough.Proofs.Run.Jumps
import Walkthrough.Proofs.Run.Stations

/-!
Answers ahead of time. A dialog is answered when it opens, so the answer that an alert command of the next
statement wants has to be foreseen. It is foreseen from the text of the script, while the run may go on
elsewhere: what is foreseen is what comes next, or nothing (`Run.Logged.foreseen`), and then dialogs get the
standing answer. So they get what the alert command wants if that is the standing answer, or if no handler
stands in between (`dialogs_answered_ahead`), but not past a handler (`not_answered_past_handlers`).
-/
namespace Walkthrough

open Walkthrough.Action Session

variable {σ η ν : Type}

/-- What the statements to come ask for passes by the comments, and comes to nothing at a handler. -/
theorem Answer.upcoming?_drop {statements : List Statement} {i k : Nat} (low : i ≤ k)
    (idle : ∀ j, i ≤ j → j < k → ∃ st, statements[j]? = some st ∧ (st.isHandler = true ∨ st.isComment = true)) :
    Answer.upcoming? (statements.drop i) = Answer.upcoming? (statements.drop k) ∨
      Answer.upcoming? (statements.drop i) = none ∧ ∃ j, i ≤ j ∧ j < k ∧ HandlerAt statements j := by
  obtain ⟨d, rfl⟩ := Nat.exists_eq_add_of_le low
  induction d generalizing i with
  | zero => exact Or.inl rfl
  | succ d ih =>
    obtain ⟨⟨form, line⟩, here, passed⟩ := idle i (Nat.le_refl i) (by omega)
    obtain ⟨inside, at_i⟩ := List.getElem?_eq_some_iff.mp here
    have shape : statements.drop i = ⟨form, line⟩ :: statements.drop (i + 1) := by
      rw [List.drop_eq_getElem_cons inside, at_i]
    rcases passed with handling | comment
    · refine Or.inr ⟨?_, i, Nat.le_refl i, by omega, _, here, handling⟩
      rw [shape]
      cases form with
      | handler body => rfl
      | _ => cases handling
    · have onward : Answer.upcoming? (statements.drop i) = Answer.upcoming? (statements.drop (i + 1)) := by
        rw [shape]
        cases form with
        | comment text => rfl
        | _ => cases comment
      have same : i + 1 + d = i + (d + 1) := by omega
      rw [onward, ← same]
      refine (ih (Nat.le_add_right _ _) fun j low high => idle j (by omega) (by omega)).imp_right ?_
      rintro ⟨none, j, low, high, handling⟩
      exact ⟨none, j, by omega, high, handling⟩

namespace Station

variable {script : Script} {a b : Station σ η ν} {log between : List (Station σ η ν)}

theorem eq_visited {v : Visit σ η ν} (visit : a.visit? = some v) : a = .visited v := by
  cases a with
  | passed place statement => cases visit
  | visited u =>
    cases visit
    rfl

theorem Fits.of_visited {conduct : Conduct σ η ν} {v : Visit σ η ν} (fits : Fits conduct script (.visited v)) :
    script.statements[v.place]? = some v.statement ∧ v.statement.isHandler = (v.phase == .awaitingRetry) ∧
      v.upcoming = script.foreseen v.place v.statement := by
  cases fits with
  | visited here spoken called told done => exact ⟨here, called, told⟩

theorem calm_of_passed (passed : a.visit? = none) : a.recovering = false := by
  cases a with
  | passed place statement => rfl
  | visited u => cases passed

theorem Follows.onward_of_calm (follows : Follows script a b) (first : a.recovering = false)
    (calm : b.recovering = false) : a.failure = none ∧ b.place = a.place + 1 := by
  cases follows with
  | onward content _ next => exact ⟨content, next⟩
  | again _ recovering => simp [first] at recovering
  | recover _ _ recovering => simp [calm] at recovering

/-- Where a run passes from one station to another one, it goes through all the places in between. -/
theorem places_between (linked : (a :: (between ++ [b])).IsChain (Follows script)) (first : a.recovering = false)
    (passed : ∀ q ∈ between, q.visit? = none) (calm : b.recovering = false) :
    a.place < b.place ∧ ∀ j, a.place < j → j < b.place → ∃ q ∈ between, q.place = j := by
  induction between generalizing a with
  | nil =>
    have next := ((List.isChain_cons_cons.mp linked).1.onward_of_calm first calm).2
    exact ⟨by omega, fun j low high => by omega⟩
  | cons q between ih =>
    obtain ⟨silent, others⟩ := List.forall_mem_cons.mp passed
    obtain ⟨follows, linked⟩ := List.isChain_cons_cons.mp linked
    have next := (follows.onward_of_calm first (calm_of_passed silent)).2
    obtain ⟨ahead, through⟩ := ih linked (calm_of_passed silent) others
    refine ⟨by omega, fun j low high => ?_⟩
    by_cases here : q.place = j
    · exact ⟨q, List.mem_cons_self, here⟩
    · obtain ⟨r, among, there⟩ := through j (by omega) high
      exact ⟨r, List.mem_cons_of_mem q among, there⟩

theorem between_visits {v w : Visit σ η ν} {earlier later : List (Visit σ η ν)}
    (shape : log.filterMap visit? = earlier ++ v :: w :: later) :
    ∃ front between back, log = front ++ .visited v :: (between ++ .visited w :: back) ∧
      ∀ q ∈ between, q.visit? = none := by
  obtain ⟨before, after, rfl, -, shape⟩ := List.filterMap_eq_append_iff.mp shape
  obtain ⟨skipped, a, after, rfl, -, first, shape⟩ := List.filterMap_eq_cons_iff.mp shape
  obtain ⟨between, b, back, rfl, passed, second, -⟩ := List.filterMap_eq_cons_iff.mp shape
  obtain rfl := eq_visited first
  obtain rfl := eq_visited second
  exact ⟨before ++ skipped, between, back, by simp, passed⟩

end Station

/-- The first visit leaves its dialogs to a command of the second one: its statement has no alert command, no other
dialogs wait, when the first visit begins or when the second one does, and the command is an alert command
that a plain statement begins with. -/
structure Visit.LeavesTo (v w : Visit σ η ν) (c : Command) (wanted : Answer) : Prop where
  silent : Answer.first? v.statement.form.commands = none
  alone : v.before.session.dialogs.pending = [] ∨ ∀ x ∈ w.before.session.dialogs.pending, x ∈ v.answered
  asking : ∃ later, w.statement.form = .run (c :: later)
  alert : Answer.ofCommand? c = some wanted

namespace Run

/-- What a statement is told to expect is the alert command that comes next, or nothing: that is all a handler is
told, and a statement with a handler right behind it. -/
theorem Logged.foreseen {conduct : Conduct σ η ν} {script : Script} {log : List (Station σ η ν)}
    {entries : Array RecordEntry} {s : RunState (σ × List (Sighting σ η ν)) η ν}
    (logged : Logged conduct script log entries s) {v w : Visit σ η ν} {earlier later : List (Visit σ η ν)}
    (shape : log.filterMap Station.visit? = earlier ++ v :: w :: later) {c : Command} {wanted : Answer}
    (leaves : v.LeavesTo w c wanted) :
    v.upcoming = some wanted ∨ v.upcoming = none ∧
      (v.statement.isHandler = true ∨ ∃ j, v.place < j ∧ j < w.place ∧ HandlerAt script.statements j) := by
  obtain ⟨front, between, back, rfl, passed⟩ := Station.between_visits shape
  obtain ⟨asked, asking⟩ := leaves.asking
  have fits (a : Station σ η ν) (among : a ∈ Station.visited v :: (between ++ .visited w :: back)) :
      a.Fits conduct script := logged.fits a (List.mem_append_right front among)
  obtain ⟨-, called, told⟩ := (fits (.visited v) (by simp)).of_visited
  obtain ⟨there, called', -⟩ := (fits (.visited w) (by simp)).of_visited
  cases handling : v.statement.isHandler with
  | true => exact Or.inr ⟨told.trans (if_pos handling), Or.inl rfl⟩
  | false =>
    have linked : (Station.visited v :: (between ++ [.visited w])).IsChain (Station.Follows script) :=
      logged.linked.infix ⟨front, back, by simp⟩
    have calm : (v.phase == .awaitingRetry) = false := called.symm.trans handling
    have calm' : (w.phase == .awaitingRetry) = false := by
      rw [← called', Statement.isHandler, asking]
    obtain ⟨ahead, through⟩ := Station.places_between linked calm passed calm'
    -- Whatever stands in between was passed, so it is a handler or a comment.
    have idle : ∀ j, v.place + 1 ≤ j → j < w.place →
        ∃ st, script.statements[j]? = some st ∧ (st.isHandler = true ∨ st.isComment = true) := by
      intro j low high
      obtain ⟨q, among, rfl⟩ := through j low high
      cases fits q (by simp [among]) with
      | passed here idle => exact ⟨_, here, idle⟩
      | visited => cases passed _ among
    have told : v.upcoming = Answer.upcoming? (script.statements.drop (v.place + 1)) :=
      told.trans (if_neg (by simp [handling]))
    obtain ⟨inside, at_w⟩ := List.getElem?_eq_some_iff.mp there
    have asks : Answer.upcoming? (script.statements.drop w.place) = some wanted := by
      rw [List.drop_eq_getElem_cons inside, at_w, Answer.upcoming?, asking]
      simp [Answer.first?, leaves.alert]
    rcases Answer.upcoming?_drop ahead idle with same | ⟨none, j, low, high, handler⟩
    · exact Or.inl (told.trans (same.trans asks))
    · exact Or.inr ⟨told.trans none, Or.inr ⟨j, low, high, handler⟩⟩

end Run

namespace Setup

variable {setup : Setup σ η ν}

/-- What an answer given ahead is good for: the dialogs of the first visit got it, and the alert command of the
second one can fail only if there are none. -/
def AnsweredAhead (setup : Setup σ η ν) (v w : Visit σ η ν) (c : Command) (wanted : Answer) : Prop :=
  (∀ x ∈ v.answered, x.answer = wanted) ∧
    ((∃ t, setup.perform w.phase c w.begun = .ok () t) ∨
      w.before.session.dialogs.pending = [] ∧ w.failure = some (.noDialog wanted))

theorem answeredAhead_of_ready {initial : List AnsweredDialog} {v w : Visit σ η ν} {c : Command}
    {wanted : Answer} (leaves : v.LeavesTo w c wanted) (given : v.begun.session.dialogs.answer = wanted)
    (done : v.Done setup.conduct) (done' : w.Done setup.conduct)
    (handed : HandsOver initial v w.before.session.dialogs) : setup.AnsweredAhead v w c wanted := by
  obtain ⟨asked, asking⟩ := leaves.asking
  have answers : ∀ x ∈ v.answered, x.answer = wanted := fun x among => (done.answers among).trans given
  have armed : armedFor w.statement w.upcoming = some wanted := by
    rw [armedFor, asking]
    simp [Form.commands, Answer.first?, leaves.alert]
  have begun := Visit.begun_of_some armed
  -- What waits is from the first visit.
  have waiting : ∀ x ∈ w.begun.session.dialogs.pending, x.answer = wanted := by
    intro x waits
    rw [begun] at waits
    change x ∈ w.before.session.dialogs.pending at waits
    rcases leaves.alone with none | own
    · rw [handed.finished] at waits
      rcases (done.continues.left waits).1 with before | now
      · rw [none] at before
        cases before
      · exact answers x now
    · exact answers x (own x waits)
  have ready : w.begun.session.dialogs.answer = wanted := by
    rw [begun]
    rfl
  refine ⟨answers, ?_⟩
  have shape : w.statement.form.commands = [] ++ c :: asked := by
    rw [asking]
    rfl
  have reaches : setup.Reaches w.phase w.statement.form [] w.begun w.begun w.begun := by
    rw [asking]
    exact ⟨rfl, rfl⟩
  rcases perform_alert_of_wanted (done'.delay_made shape reaches) w.phase leaves.alert ready waiting with
    taken | ⟨none, t, refused⟩
  · exact Or.inl taken
  · refine Or.inr ⟨by rwa [begun] at none, ?_⟩
    refine done'.failure_of_refused shape reaches (fun _ predicate body conditional => ?_) refused
    rw [asking] at conditional
    cases conditional

/-- In a run that returns, let a statement leave its dialogs to the alert command that the next one begins with. If
this command wants what dialogs get anyhow, or if the statement is no handler and no handler stands between the
two in the script, then all dialogs that open during the statement get the answer that the command wants, so
that it can fail only if none of them is left. -/
theorem dialogs_answered_ahead (setup : Setup σ η ν) (script : Script) (row : Bindings) (startedAt : Moment)
    (session : Session σ ν) (record : RunRecord) (t : RunState σ η ν)
    (returned : setup.run script row startedAt session = .ok record t) :
    ∃ u visits, setup.observedRun script row startedAt session = .ok record u ∧ u.inner = t ∧
      u.kept = visits.flatMap Visit.sightings ∧ Run.Filed setup.conduct script visits record.entries ∧
      visits.IsChain fun v w => ∀ c wanted, v.LeavesTo w c wanted →
        (session.dialogs.armed = none ∧ session.dialogs.standing = wanted ∨ v.statement.isHandler = false ∧
          ∀ j, v.place < j → j < w.place → ¬ HandlerAt script.statements j) →
        setup.AnsweredAhead v w c wanted := by
  obtain ⟨u, observed, same⟩ := observedRun_returns returned
  have start : InTime session.dialogs [] ({ session, memory := { row } } : RunState σ η ν) :=
    ⟨fun _ => rfl, by simp, fun _ waits => Or.inl waits, List.forall_mem_nil _, List.isChain_nil, by simp⟩
  obtain ⟨visits, seen, filed⟩ := Run.run_filed rfl observed
  have inTime := (setup.upholds_inTime script session.dialogs).along rfl observed seen start
  obtain ⟨log, logged, -⟩ := Run.run_charted rfl observed
  have charted : log.filterMap Station.visit? = visits := Visit.sightings_injective (logged.seen.symm.trans seen)
  refine ⟨u, visits, observed, same, seen, filed, ?_⟩
  rw [List.isChain_iff_forall_rel_of_append_cons_cons]
  rintro v w earlier later rfl c wanted leaves suited
  refine answeredAhead_of_ready leaves ?_ (filed.done v (by simp)) (filed.done w (by simp))
    (List.isChain_append_cons_cons.mp inTime.linked).2.1
  rcases logged.foreseen charted leaves with told | ⟨untold, late⟩
  · have armed : armedFor v.statement v.upcoming = some wanted := by
      rw [armedFor, leaves.silent, told]
      rfl
    rw [Visit.begun_of_some armed]
    rfl
  · have unarmed : armedFor v.statement v.upcoming = none := by
      rw [armedFor, leaves.silent, untold]
      rfl
    rcases suited with ⟨disarmed, standing⟩ | ⟨plain, direct⟩
    · -- Nothing is armed, and what dialogs get then is what is wanted.
      have resting : session.dialogs.Rests wanted := by
        refine ⟨standing, ?_⟩
        rw [Dialogs.answer, disarmed]
        exact standing
      have rests := (setup.upholds_rests script wanted).along rfl observed seen ⟨resting, List.forall_mem_nil _⟩
      rw [Visit.begun_of_none unarmed]
      exact (rests.2 v (by simp)).given
    · rcases late with handling | ⟨j, low, high, handler⟩
      · simp [plain] at handling
      · exact absurd handler (direct j low high)

end Setup

/-- A picture, and the alert command for the question that it raises, with these statements in between. -/
def pictured (between : List Statement) : Script :=
  .ofStatements (⟨.run [{ verb := .screenshot }], 1⟩ :: between ++ [⟨.run [{ verb := .dismissAlert }], 9⟩])

theorem dialogs_answered_ahead_askingBack :
    ∃ record t, askingBack.run (pictured []) [] ⟨2024, 1, 2, 3, 4, 5, 0⟩ { page := () } = .ok record t ∧
      ∃ v w : Visit Unit Unit Unit, v.LeavesTo w { verb := .dismissAlert } .dismiss ∧
        v.statement.isHandler = false ∧
        (∀ j, v.place < j → j < w.place → ¬ HandlerAt (pictured []).statements j) ∧
        v.answered = [⟨"Really?", .dismiss, 0⟩] ∧
        askingBack.AnsweredAhead v w { verb := .dismissAlert } .dismiss := by
  have seen : ∃ record u v w, askingBack.observedRun (pictured []) [] ⟨2024, 1, 2, 3, 4, 5, 0⟩ { page := () } =
        .ok record u ∧
      u.kept = [v, w].flatMap Visit.sightings ∧ Answer.first? v.statement.form.commands = none ∧
      v.before.session.dialogs.pending = [] ∧ w.statement.form = .run [{ verb := .dismissAlert }] ∧
      v.statement.isHandler = false ∧ v.place = 0 ∧ w.place = 1 ∧ v.answered = [⟨"Really?", .dismiss, 0⟩] := by
    unfold Setup.observedRun
    rw [Setup.conduct_eq_of_prompt perform_askingBack, Run.run_eq_readRun]
    exact ⟨_, _, _, _, rfl, rfl, rfl, rfl, rfl, rfl, rfl, rfl, rfl⟩
  obtain ⟨record, u, v, w, observed, kept, silent, clear, asking, plain, first, second, answered⟩ := seen
  have returned := Setup.run_of_observed observed
  obtain ⟨u', visits, observed', -, kept', -, linked⟩ := Setup.dialogs_answered_ahead askingBack (pictured []) []
    ⟨2024, 1, 2, 3, 4, 5, 0⟩ { page := () } record u.inner returned
  rw [observed] at observed'
  cases observed'
  obtain rfl : visits = [v, w] := Visit.sightings_injective (kept'.symm.trans kept)
  have leaves : v.LeavesTo w { verb := .dismissAlert } .dismiss := ⟨silent, Or.inl clear, ⟨[], asking⟩, rfl⟩
  have direct : ∀ j, v.place < j → j < w.place → ¬ HandlerAt (pictured []).statements j := by
    intro j low high
    omega
  have ahead := (List.isChain_cons_cons.mp linked).1 _ _ leaves (Or.inr ⟨plain, direct⟩)
  exact ⟨record, u.inner, returned, v, w, leaves, plain, direct, answered, ahead⟩

/-- With a handler in between, which is skipped, the question is answered before it is known what is wanted. -/
theorem not_answered_past_handlers :
    ∃ record u v w, askingBack.observedRun (pictured [⟨.handler [{ verb := .refresh }], 2⟩]) []
        ⟨2024, 1, 2, 3, 4, 5, 0⟩ { page := () } = .ok record u ∧
      u.kept = [v, w].flatMap Visit.sightings ∧ v.LeavesTo w { verb := .dismissAlert } .dismiss ∧
      v.statement.isHandler = false ∧ v.answered = [⟨"Really?", .accept, 0⟩] ∧
      w.failure = some (.answeredOtherwise .dismiss "Really?") ∧
      ¬ askingBack.AnsweredAhead v w { verb := .dismissAlert } .dismiss := by
  have ran : ∃ record u v w, askingBack.observedRun (pictured [⟨.handler [{ verb := .refresh }], 2⟩]) []
        ⟨2024, 1, 2, 3, 4, 5, 0⟩ { page := () } = .ok record u ∧
      u.kept = [v, w].flatMap Visit.sightings ∧ Answer.first? v.statement.form.commands = none ∧
      v.before.session.dialogs.pending = [] ∧ w.statement.form = .run [{ verb := .dismissAlert }] ∧
      v.statement.isHandler = false ∧ v.answered = [⟨"Really?", .accept, 0⟩] ∧
      w.failure = some (.answeredOtherwise .dismiss "Really?") := by
    unfold Setup.observedRun
    rw [Setup.conduct_eq_of_prompt perform_askingBack, Run.run_eq_readRun]
    exact ⟨_, _, _, _, rfl, rfl, rfl, rfl, rfl, rfl, rfl, rfl⟩
  obtain ⟨record, u, v, w, observed, seen, silent, clear, asking, plain, answered, failed⟩ := ran
  refine ⟨record, u, v, w, observed, seen, ⟨silent, Or.inl clear, ⟨[], asking⟩, rfl⟩, plain, answered, failed, ?_⟩
  intro ahead
  have dismissed := ahead.1 ⟨"Really?", .accept, 0⟩ (answered ▸ List.mem_singleton_self _)
  cases dismissed

end Walkthrough
