import Walkthrough.Proofs.Run.Ahead

/-!
The queue of dialogs within a statement. Up to its first alert command, the dialogs of a statement gather behind
those that waited when it began, unless a command leaves the page and drops them all (`since_performAll`). So
the alert command takes a dialog of its own statement only if none from before is left, and an older one with
the other answer fails it (`alerts_take_the_oldest`).
-/
namespace Walkthrough

open Walkthrough.Action Session

variable {σ η ν : Type}

namespace Setup

variable {setup : Setup σ η ν} {phase : Phase}

/-- The session in which a command that leaves the page has dropped the dialogs. -/
def departed (setup : Setup σ η ν) (s : RunState σ η ν) : Session σ ν :=
  { (setup.paused s).session with dialogs := (setup.paused s).session.dialogs.dropAll }

/-- The last session in which the dialogs were dropped, as these commands are carried out now, or else the one
from before. -/
def sinceLeaving (setup : Setup σ η ν) (phase : Phase) :
    List Command → (start : Session σ ν) → (now : RunState σ η ν) → Session σ ν
  | [], start, _ => start
  | c :: later, start, now =>
    sinceLeaving setup phase later (if c.verb = .url then setup.departed now else start)
      (final (setup.perform phase c now))

theorem sinceLeaving_of_staying {commands : List Command} (staying : ∀ c ∈ commands, c.verb ≠ .url)
    (start : Session σ ν) (now : RunState σ η ν) : setup.sinceLeaving phase commands start now = start := by
  induction commands generalizing now with
  | nil => rfl
  | cons c later ih =>
    obtain ⟨first, others⟩ := List.forall_mem_cons.mp staying
    rw [sinceLeaving, if_neg first, ih others]

theorem pending_sinceLeaving {commands : List Command} {start : Session σ ν} {now : RunState σ η ν}
    (dropped : start.dialogs.pending = [] ∨ ∃ c ∈ commands, c.verb = .url) :
    (setup.sinceLeaving phase commands start now).dialogs.pending = [] := by
  induction commands generalizing start now with
  | nil => simpa [sinceLeaving] using dropped
  | cons c later ih =>
    rw [sinceLeaving]
    by_cases leaving : c.verb = .url
    · rw [if_pos leaving]
      exact ih (Or.inl rfl)
    · rw [if_neg leaving]
      refine ih (dropped.imp_right fun ⟨b, among, left⟩ => ?_)
      rcases List.mem_cons.mp among with rfl | later
      · exact absurd left leaving
      · exact ⟨b, later, left⟩

/-- A command that leaves the page drops the dialogs before it asks the page for anything. -/
theorem perform_url {c : Command} {s t : RunState σ η ν} (leaving : c.verb = .url)
    (done : setup.perform phase c s = .ok () t) :
    ∃ address, t.session = final (Session.ask setup.page (.goto address) (setup.departed s)) := by
  rw [perform_of_made (delay_made_of_performed done)] at done
  unfold act at done
  rw [leaving] at done
  obtain ⟨raw, u, given, done⟩ := bind_eq_ok.mp done
  -- Filling in the address asks the page for nothing.
  obtain rfl := (argument_eq_ok given).1
  refine ⟨Address.complete raw, ?_⟩
  split at done
  · cases done
  · have went := final_demand setup.page .navigate (.goto (Address.complete raw)) (setup.departed s)
    have onward : RunM.onSession (Session.demand setup.page .navigate (.goto (Address.complete raw)))
        { setup.paused s with session := setup.departed s } = .ok () t := done
    unfold RunM.onSession at onward
    rw [← went]
    split at onward
    · next result =>
      cases onward
      exact (congrArg final result).symm
    · cases onward

variable {wanted : Answer} {start : Session σ ν} {s t begun reached : RunState σ η ν}

theorem since_perform (since : Since wanted start s.session) {c : Command}
    (quiet : Answer.ofCommand? c = none) (done : setup.perform phase c s = .ok () t) :
    Since wanted (if c.verb = .url then setup.departed s else start) t.session := by
  by_cases leaving : c.verb = .url
  · obtain ⟨address, went⟩ := perform_url leaving done
    have armed : (setup.departed s).dialogs.answer = wanted := (since_paused since).armed_now
    rw [if_pos leaving, went]
    exact (setup.since_lasting wanted (setup.departed s)).ask (.goto address) id (m := s.memory) (.refl armed)
  · have gathering : Gathering c.verb := by
      unfold Answer.ofCommand? at quiet
      refine ⟨leaving, fun accepts => ?_, fun dismisses => ?_⟩
      · simp [accepts] at quiet
      · simp [dismisses] at quiet
    rw [if_neg leaving]
    have after := (setup.since_lasting wanted start).perform phase c gathering since
    rwa [done] at after

theorem since_performAll {commands : List Command} (since : Since wanted start begun.session)
    (quiet : ∀ c ∈ commands, Answer.ofCommand? c = none)
    (done : setup.performAll phase commands begun = .ok () reached) :
    Since wanted (setup.sinceLeaving phase commands start begun) reached.session := by
  induction commands generalizing start begun with
  | nil =>
    obtain ⟨-, rfl⟩ := pure_eq_ok.mp done
    exact since
  | cons c later ih =>
    obtain ⟨first, others⟩ := List.forall_mem_cons.mp quiet
    obtain ⟨_, mid, once, done⟩ := bind_eq_ok.mp done
    rw [sinceLeaving, once]
    exact ih (since_perform since first once) others done

theorem since_enter (since : Since wanted start s.session) {form : Form}
    (entered : setup.enter form s = .ok () begun) : Since wanted start begun.session := by
  cases form with
  | under anchor body =>
    obtain ⟨element, mid, anchored, confined⟩ := bind_eq_ok.mp entered
    have after := (setup.since_lasting wanted start).anchorElement anchor since
    rw [anchored] at after
    cases confined
    exact after
  | _ =>
    obtain ⟨-, rfl⟩ := pure_eq_ok.mp entered
    exact since

/-- An alert command takes the oldest dialog of those that waited before, and only if there is none, one that has
been answered since. -/
theorem perform_alert_since (made : setup.delayRefusal? = none) {c : Command}
    (alert : Answer.ofCommand? c = some wanted)
    (since : Since wanted start reached.session)
    (answered : answeredSince start (setup.paused reached).session ≠ []) :
    ((∀ oldest ∈ start.dialogs.pending.head?, oldest.answer = wanted) ∧
        ∃ t, setup.perform phase c reached = .ok () t) ∨
      ∃ oldest ∈ start.dialogs.pending.head?, oldest.answer ≠ wanted ∧
        ∃ t, setup.perform phase c reached = .error (.failure (.answeredOtherwise wanted oldest.message)) t := by
  have since : Since wanted start (setup.paused reached).session := since_paused since
  have gathered := since.gathers.pending
  rw [perform_alert made phase alert]
  cases waits : start.dialogs.pending with
  | nil =>
    obtain ⟨first, later, shape⟩ := List.exists_cons_of_ne_nil answered
    rw [waits, List.nil_append, shape] at gathered
    have suits : first.answer = wanted := since.answers first (shape ▸ List.mem_cons_self)
    exact Or.inl ⟨by simp, takeDialog_of_same gathered suits⟩
  | cons oldest later =>
    rw [waits, List.cons_append] at gathered
    by_cases same : oldest.answer = wanted
    · exact Or.inl ⟨by simpa using same, takeDialog_of_same gathered same⟩
    · exact Or.inr ⟨oldest, rfl, same, takeDialog_of_other gathered same⟩

end Setup

/-- In a visit, the first alert command of the statement is reached, with these states before the commands of the
statement and before the alert command. -/
structure Visit.ReachesAlert (setup : Setup σ η ν) (v : Visit σ η ν) (earlier : List Command) (c : Command)
    (wanted : Answer) (begun reached : RunState σ η ν) : Prop where
  shape : ∃ later, v.statement.form.commands = earlier ++ c :: later
  quiet : ∀ b ∈ earlier, Answer.ofCommand? b = none
  alert : Answer.ofCommand? c = some wanted
  reaches : setup.Reaches v.phase v.statement.form earlier v.begun begun reached

/-- The dialogs that have been answered in a visit before an alert command, since the page was last left. -/
def Visit.gathered (setup : Setup σ η ν) (v : Visit σ η ν) (earlier : List Command)
    (begun reached : RunState σ η ν) : List AnsweredDialog :=
  answeredSince (setup.sinceLeaving v.phase earlier v.begun.session begun) (setup.paused reached).session

theorem Visit.ReachesAlert.armed {setup : Setup σ η ν} {v : Visit σ η ν} {earlier : List Command} {c : Command}
    {wanted : Answer} {begun reached : RunState σ η ν}
    (reachesAlert : v.ReachesAlert setup earlier c wanted begun reached) :
    v.begun = Setup.setArmed (some wanted) v.before := by
  obtain ⟨⟨later, shape⟩, quiet, alert, -⟩ := reachesAlert
  refine Visit.begun_of_some ?_
  have silent : earlier.findSome? Answer.ofCommand? = none := List.findSome?_eq_none_iff.mpr quiet
  rw [Setup.armedFor, shape, Answer.first?, List.findSome?_append, silent]
  simp [alert]

namespace Setup

variable {setup : Setup σ η ν}

/-- What comes of an alert command for which dialogs have gathered: it takes an older dialog if one is left from
before, and fails if that has got the other answer. -/
structure TakesOldest (setup : Setup σ η ν) (v : Visit σ η ν) (earlier : List Command) (c : Command)
    (wanted : Answer) (reached : RunState σ η ν) : Prop where
  succeeds : succeeded (setup.perform v.phase c reached) = true ↔
    (∃ b ∈ earlier, b.verb = .url) ∨ ∀ oldest ∈ v.before.session.dialogs.pending.head?, oldest.answer = wanted
  fails : succeeded (setup.perform v.phase c reached) = false →
    ∃ oldest ∈ v.before.session.dialogs.pending.head?,
      (∃ t, setup.perform v.phase c reached = .error (.failure (.answeredOtherwise wanted oldest.message)) t) ∧
      ((earlier = [] → ∀ predicate body, v.statement.form ≠ .conditional predicate body) →
        v.failure = some (.answeredOtherwise wanted oldest.message))

theorem takesOldest_of_gathered {v : Visit σ η ν} (done : v.Done setup.conduct) {earlier : List Command}
    {c : Command} {wanted : Answer} {begun reached : RunState σ η ν}
    (reachesAlert : v.ReachesAlert setup earlier c wanted begun reached)
    (gathered : v.gathered setup earlier begun reached ≠ []) :
    (∀ x ∈ v.gathered setup earlier begun reached, x.answer = wanted) ∧
      setup.TakesOldest v earlier c wanted reached := by
  have begins := reachesAlert.armed
  obtain ⟨⟨later, shape⟩, quiet, alert, reaches⟩ := reachesAlert
  have ready : v.begun.session.dialogs.answer = wanted := by
    rw [begins]
    rfl
  have waited : v.begun.session.dialogs.pending = v.before.session.dialogs.pending := by
    rw [begins]
    rfl
  have since := since_performAll (since_enter (.refl ready) reaches.entered) quiet reaches.performed
  refine ⟨(since_paused since).answers, ?_⟩
  -- What waits from before the statement still waits unless the page was left.
  have left : (∃ b ∈ earlier, b.verb = .url) →
      (setup.sinceLeaving v.phase earlier v.begun.session begun).dialogs.pending = [] :=
    fun leaving => pending_sinceLeaving (Or.inr leaving)
  have stayed : (¬ ∃ b ∈ earlier, b.verb = .url) →
      (setup.sinceLeaving v.phase earlier v.begun.session begun).dialogs.pending =
        v.before.session.dialogs.pending := by
    intro staying
    rw [sinceLeaving_of_staying (by simpa using staying), waited]
  rcases perform_alert_since (done.delay_made shape reaches) alert since gathered with
    ⟨suits, t, taken⟩ | ⟨oldest, first, other, t, refused⟩
  · have succeeds : succeeded (setup.perform v.phase c reached) = true := by
      rw [taken]
      rfl
    refine ⟨⟨fun _ => ?_, fun _ => succeeds⟩, fun failed => by simp [succeeds] at failed⟩
    by_cases leaving : ∃ b ∈ earlier, b.verb = .url
    · exact Or.inl leaving
    · exact Or.inr (stayed leaving ▸ suits)
  · have fails : succeeded (setup.perform v.phase c reached) = false := by
      rw [refused]
      rfl
    have staying : ¬ ∃ b ∈ earlier, b.verb = .url := by
      intro leaving
      rw [left leaving] at first
      cases first
    rw [stayed staying] at first
    refine ⟨⟨fun succeeds => by simp [fails] at succeeds, fun suits => ?_⟩, fun _ => ?_⟩
    · exact absurd (suits.resolve_left staying oldest first) other
    · exact ⟨oldest, first, ⟨t, refused⟩, fun inside => done.failure_of_refused shape reaches inside refused⟩

/-- In a run that returns, let dialogs have been answered in a visit before its first alert command is reached,
with no command in between that leaves the page. They have got the answer that the alert command wants. But it
takes the oldest dialog that waits; if one is left from before the statement, and no command has left the page,
then the alert command succeeds just if that one has got the wanted answer, and fails over it if not. -/
theorem alerts_take_the_oldest (setup : Setup σ η ν) (script : Script) (row : Bindings) (startedAt : Moment)
    (session : Session σ ν) (record : RunRecord) (t : RunState σ η ν)
    (returned : setup.run script row startedAt session = .ok record t) :
    ∃ u visits, setup.observedRun script row startedAt session = .ok record u ∧ u.inner = t ∧
      u.kept = visits.flatMap Visit.sightings ∧ Run.Filed setup.conduct script visits record.entries ∧
      ∀ v ∈ visits, ∀ earlier c wanted begun reached, v.ReachesAlert setup earlier c wanted begun reached →
        v.gathered setup earlier begun reached ≠ [] →
        (∀ x ∈ v.gathered setup earlier begun reached, x.answer = wanted) ∧
          setup.TakesOldest v earlier c wanted reached := by
  obtain ⟨u, observed, same⟩ := observedRun_returns returned
  obtain ⟨visits, seen, filed⟩ := Run.run_filed rfl observed
  refine ⟨u, visits, observed, same, seen, filed, ?_⟩
  intro v among earlier c wanted begun reached reachesAlert gathered
  exact takesOldest_of_gathered (filed.done v among) reachesAlert gathered

end Setup

/-- A picture, and then another one with an alert command for the questions that they raise. -/
def twoPictures : Script :=
  .ofStatements
    [⟨.run [{ verb := .screenshot }], 1⟩, ⟨.run [{ verb := .screenshot }, { verb := .dismissAlert }], 2⟩]

theorem observed_twoPictures : ∃ record u v w,
    askingBack.observedRun twoPictures [] ⟨2024, 1, 2, 3, 4, 5, 0⟩ { page := () } = .ok record u ∧
      u.kept = [v, w].flatMap Visit.sightings ∧
      w.statement.form = .run [{ verb := .screenshot }, { verb := .dismissAlert }] ∧
      w.before.session.dialogs = { pending := [⟨"Really?", .accept, 0⟩], statement := 1 } ∧
      w.failure = some (.answeredOtherwise .dismiss "Really?") := by
  unfold Setup.observedRun
  rw [Setup.conduct_eq_of_prompt perform_askingBack, Run.run_eq_readRun]
  exact ⟨_, _, _, _, rfl, rfl, rfl, rfl, rfl⟩

theorem paused_askingBack (s : RunState Unit Unit Unit) : askingBack.paused s = s := by
  unfold Setup.paused
  split
  · rfl
  · rfl

theorem perform_picture (phase : Phase) (s : RunState Unit Unit Unit) : ∃ t,
    askingBack.perform phase { verb := .screenshot } s = .ok () t ∧
      t.session = s.session.absorb (.dialog "Really?" none) := by
  rw [perform_askingBack, Setup.act_screenshot rfl]
  exact ⟨_, rfl, rfl⟩

theorem gathered_twoPictures {w : Visit Unit Unit Unit}
    (form : w.statement.form = .run [{ verb := .screenshot }, { verb := .dismissAlert }]) :
    ∃ reached,
      w.ReachesAlert askingBack [{ verb := .screenshot }] { verb := .dismissAlert } .dismiss w.begun reached ∧
      w.gathered askingBack [{ verb := .screenshot }] w.begun reached =
        [⟨"Really?", .dismiss, w.before.session.dialogs.statement⟩] ∧
      reached.session.dialogs.pending =
        w.before.session.dialogs.pending ++ [⟨"Really?", .dismiss, w.before.session.dialogs.statement⟩] := by
  obtain ⟨reached, performed, after⟩ := perform_picture w.phase w.begun
  have entered : askingBack.enter w.statement.form w.begun = .ok () w.begun := by
    rw [form]
    rfl
  have reachesAlert : w.ReachesAlert askingBack [{ verb := .screenshot }] { verb := .dismissAlert } .dismiss
      w.begun reached :=
    { shape := ⟨[], by rw [form]; rfl⟩
      quiet := by decide
      alert := rfl
      reaches := ⟨entered, bind_of_ok performed⟩ }
  refine ⟨reached, reachesAlert, ?_, ?_⟩
  · rw [Visit.gathered, Setup.sinceLeaving_of_staying (by decide), paused_askingBack, after,
      (passes_absorb _ _).answeredSince_eq, reachesAlert.armed]
    rfl
  · rw [after, pending_absorb, reachesAlert.armed]
    rfl

theorem alerts_take_the_oldest_twoPictures :
    ∃ record t, askingBack.run twoPictures [] ⟨2024, 1, 2, 3, 4, 5, 0⟩ { page := () } = .ok record t ∧
      ∃ (w : Visit Unit Unit Unit) (reached : RunState Unit Unit Unit),
        w.ReachesAlert askingBack [{ verb := .screenshot }] { verb := .dismissAlert } .dismiss w.begun reached ∧
        w.gathered askingBack [{ verb := .screenshot }] w.begun reached ≠ [] ∧
        (∀ x ∈ w.gathered askingBack [{ verb := .screenshot }] w.begun reached, x.answer = .dismiss) ∧
        askingBack.TakesOldest w [{ verb := .screenshot }] { verb := .dismissAlert } .dismiss reached := by
  obtain ⟨record, u, v, w, observed, kept, form, -, -⟩ := observed_twoPictures
  have returned := Setup.run_of_observed observed
  obtain ⟨u', visits, observed', -, kept', -, takes⟩ := Setup.alerts_take_the_oldest askingBack twoPictures []
    ⟨2024, 1, 2, 3, 4, 5, 0⟩ { page := () } record u.inner returned
  rw [observed] at observed'
  cases observed'
  obtain rfl : visits = [v, w] := Visit.sightings_injective (kept'.symm.trans kept)
  obtain ⟨reached, reachesAlert, gathered, -⟩ := gathered_twoPictures form
  have some : w.gathered askingBack [{ verb := .screenshot }] w.begun reached ≠ [] := by simp [gathered]
  have oldest := takes w (by simp) _ _ _ _ _ reachesAlert some
  exact ⟨record, u.inner, returned, w, reached, reachesAlert, some, oldest.1, oldest.2⟩

/-- The second question gets the answer that the alert command wants, but the first one is still left and has got
the other answer. -/
theorem older_question_taken_first :
    ∃ record u v w reached,
      askingBack.observedRun twoPictures [] ⟨2024, 1, 2, 3, 4, 5, 0⟩ { page := () } = .ok record u ∧
      u.kept = [v, w].flatMap Visit.sightings ∧
      w.statement.form = .run [{ verb := .screenshot }, { verb := .dismissAlert }] ∧
      w.ReachesAlert askingBack [{ verb := .screenshot }] { verb := .dismissAlert } .dismiss w.begun reached ∧
      w.gathered askingBack [{ verb := .screenshot }] w.begun reached = [⟨"Really?", .dismiss, 1⟩] ∧
      succeeded (askingBack.perform w.phase { verb := .dismissAlert } reached) = false ∧
      w.failure = some (.answeredOtherwise .dismiss "Really?") := by
  obtain ⟨record, u, v, w, observed, kept, form, before, failed⟩ := observed_twoPictures
  obtain ⟨reached, reachesAlert, gathered, waits⟩ := gathered_twoPictures form
  rw [before] at gathered waits
  have refused : succeeded (askingBack.perform w.phase { verb := .dismissAlert } reached) = false := by
    obtain ⟨t, taken⟩ := Setup.takeDialog_of_other waits (by decide : Answer.accept ≠ .dismiss)
    rw [Setup.perform_alert rfl w.phase rfl, paused_askingBack, taken]
    rfl
  exact ⟨record, u, v, w, reached, observed, kept, form, reachesAlert, gathered, refused, failed⟩

end Walkthrough
