import Walkthrough.Proofs.Run.Alerts
import Walkthrough.Proofs.Run.Reached

/-!
The dialogs of one statement. While a statement is carried out, the answer to dialogs stays as it was armed, so
every dialog that is answered meanwhile gets it (`Visit.Done.answers`); between statements the standing answer
is given (`Setup.upholds_rests`). Unless a command takes dialogs or leaves the page, they gather behind those
that wait (`Setup.since_lasting`), and an alert command takes the oldest one.
-/
namespace Walkthrough

open Walkthrough.Action Session

variable {σ η ν : Type}

namespace Session

/-- The dialogs that were answered from one session to a later one, by the journal. -/
def answeredSince (s t : Session σ ν) : List AnsweredDialog :=
  (t.journal.toList.drop s.journal.size).filterMap (Entry.dialog? s.dialogs.statement)

/-- What a happening adds to the dialogs that were answered. -/
def newlyAnswered (s : Session σ ν) : Happening ν → List AnsweredDialog
  | .dialog message none => [⟨message, s.dialogs.answer, s.dialogs.statement⟩]
  | _ => []

/-- From one session to a later one in the same statement, these dialogs were answered. -/
structure Passes (s t : Session σ ν) (dialogs : List AnsweredDialog) : Prop where
  statement : t.dialogs.statement = s.dialogs.statement
  written : ∃ later, t.journal.toList = s.journal.toList ++ later ∧
    later.filterMap (Entry.dialog? s.dialogs.statement) = dialogs

variable {s t u : Session σ ν} {dialogs more : List AnsweredDialog}

theorem Passes.refl (s : Session σ ν) : Passes s s [] :=
  ⟨rfl, [], (List.append_nil _).symm, rfl⟩

theorem Passes.trans (first : Passes s t dialogs) (second : Passes t u more) : Passes s u (dialogs ++ more) := by
  obtain ⟨later, journal, rfl⟩ := first.written
  obtain ⟨later', journal', rfl⟩ := second.written
  refine ⟨second.statement.trans first.statement, later ++ later', ?_, ?_⟩
  · rw [journal', journal, List.append_assoc]
  · rw [List.filterMap_append, first.statement]

theorem Passes.answeredSince_eq (passes : Passes s t dialogs) : answeredSince s t = dialogs := by
  obtain ⟨later, journal, told⟩ := passes.written
  rw [answeredSince, journal, ← Array.length_toList, List.drop_left, told]

theorem Passes.of_journal (passes : Passes s t dialogs) (journal : u.journal = t.journal)
    (statement : u.dialogs.statement = t.dialogs.statement) : Passes s u dialogs := by
  obtain ⟨later, written, told⟩ := passes.written
  exact ⟨statement.trans passes.statement, later, journal ▸ written, told⟩

theorem passes_record (s : Session σ ν) (n : Notice) : Passes s (s.record n) [] :=
  ⟨rfl, [.notice n], Array.toList_push, rfl⟩

theorem passes_absorb (s : Session σ ν) (happening : Happening ν) :
    Passes s (s.absorb happening) (s.newlyAnswered happening) := by
  cases happening with
  | note n => exact ⟨rfl, [.note n], Array.toList_push, rfl⟩
  | dialog message refusal =>
    have told := passes_record s (.dialogOpened s.dialogs.answer message)
    cases refusal with
    | some reason => exact told.trans (passes_record _ (.dialogUnanswered reason))
    | none =>
      have answered : Passes (s.record (.dialogOpened s.dialogs.answer message))
          (s.absorb (.dialog message none)) [⟨message, s.dialogs.answer, s.dialogs.statement⟩] :=
        ⟨rfl, [.answered message s.dialogs.answer], Array.toList_push, rfl⟩
      exact told.trans answered

theorem answer_absorb (s : Session σ ν) (happening : Happening ν) :
    (s.absorb happening).dialogs.standing = s.dialogs.standing ∧
      (s.absorb happening).dialogs.answer = s.dialogs.answer := by
  cases happening with
  | note n => exact ⟨rfl, rfl⟩
  | dialog message refusal => cases refusal <;> exact ⟨rfl, rfl⟩

theorem pending_absorb (s : Session σ ν) (happening : Happening ν) :
    (s.absorb happening).dialogs.pending = s.dialogs.pending ++ s.newlyAnswered happening := by
  cases happening with
  | note n => exact (List.append_nil _).symm
  | dialog message refusal =>
    cases refusal with
    | some reason => exact (List.append_nil _).symm
    | none => rfl

/-- The answer to dialogs stayed the same, and all that were answered got it. -/
structure Steady (s t : Session σ ν) : Prop where
  standing : t.dialogs.standing = s.dialogs.standing
  answer : t.dialogs.answer = s.dialogs.answer
  passes : ∃ dialogs, Passes s t dialogs ∧ ∀ x ∈ dialogs, x.answer = s.dialogs.answer

/-- The dialogs that were answered wait behind those that waited before. -/
def Gathers (s t : Session σ ν) : Prop :=
  ∃ dialogs, Passes s t dialogs ∧ t.dialogs.pending = s.dialogs.pending ++ dialogs

namespace Steady

theorem refl (s : Session σ ν) : Steady s s :=
  ⟨rfl, rfl, [], .refl s, List.forall_mem_nil _⟩

variable (steady : Steady s t)
include steady

theorem answers {x : AnsweredDialog} (among : x ∈ answeredSince s t) : x.answer = s.dialogs.answer := by
  obtain ⟨dialogs, passes, same⟩ := steady.passes
  rw [passes.answeredSince_eq] at among
  exact same x among

theorem record (n : Notice) : Steady s (t.record n) := by
  obtain ⟨dialogs, passes, same⟩ := steady.passes
  exact ⟨steady.standing, steady.answer, dialogs, List.append_nil dialogs ▸ passes.trans (passes_record t n), same⟩

theorem absorb (happening : Happening ν) : Steady s (t.absorb happening) := by
  obtain ⟨dialogs, passes, same⟩ := steady.passes
  have kept := answer_absorb t happening
  refine ⟨kept.1.trans steady.standing, kept.2.trans steady.answer, _, passes.trans (passes_absorb t happening), ?_⟩
  refine List.forall_mem_append.mpr ⟨same, fun x new => ?_⟩
  cases happening with
  | note n => cases new
  | dialog message refusal =>
    cases refusal with
    | some reason => cases new
    | none =>
      obtain rfl := List.mem_singleton.mp new
      exact steady.answer

theorem of_journal (standing : u.dialogs.standing = t.dialogs.standing) (answer : u.dialogs.answer = t.dialogs.answer)
    (journal : u.journal = t.journal) (statement : u.dialogs.statement = t.dialogs.statement) : Steady s u := by
  obtain ⟨dialogs, passes, same⟩ := steady.passes
  exact ⟨standing.trans steady.standing, answer.trans steady.answer, dialogs,
    passes.of_journal journal statement, same⟩

theorem taking (wanted : Answer) : Steady s (final (takeDialog wanted t)) := by
  rw [final_takeDialog, Dialogs.take_dialogs]
  exact steady.of_journal rfl rfl rfl rfl

end Steady

namespace Gathers

theorem refl (s : Session σ ν) : Gathers s s := ⟨[], .refl s, (List.append_nil _).symm⟩

theorem trans (first : Gathers s t) (second : Gathers t u) : Gathers s u := by
  obtain ⟨dialogs, passes, waits⟩ := first
  obtain ⟨more, passes', waits'⟩ := second
  exact ⟨dialogs ++ more, passes.trans passes', by rw [waits', waits, List.append_assoc]⟩

theorem pending (gathers : Gathers s t) : t.dialogs.pending = s.dialogs.pending ++ answeredSince s t := by
  obtain ⟨dialogs, passes, waits⟩ := gathers
  rw [passes.answeredSince_eq, waits]

theorem record (gathers : Gathers s t) (n : Notice) : Gathers s (t.record n) :=
  gathers.trans ⟨[], passes_record t n, (List.append_nil _).symm⟩

theorem absorb (gathers : Gathers s t) (happening : Happening ν) : Gathers s (t.absorb happening) :=
  gathers.trans ⟨_, passes_absorb t happening, pending_absorb t happening⟩

theorem turn (gathers : Gathers s t) (page : σ) : Gathers s { t with page } := by
  obtain ⟨dialogs, passes, waits⟩ := gathers
  exact ⟨dialogs, passes.of_journal rfl rfl, waits⟩

end Gathers

/-- From one session to a later one, the dialogs that were answered got this answer, and they all wait. -/
structure Since (wanted : Answer) (s t : Session σ ν) : Prop where
  armed : s.dialogs.answer = wanted
  steady : Steady s t
  gathers : Gathers s t

namespace Since

variable {wanted : Answer}

theorem refl (armed : s.dialogs.answer = wanted) : Since wanted s s := ⟨armed, .refl s, .refl s⟩

theorem armed_now (since : Since wanted s t) : t.dialogs.answer = wanted := since.steady.answer.trans since.armed

theorem answers (since : Since wanted s t) : ∀ x ∈ answeredSince s t, x.answer = wanted :=
  fun _ among => (since.steady.answers among).trans since.armed

end Since
end Session

namespace Setup

variable {setup : Setup σ η ν}

theorem steady_lasting (setup : Setup σ η ν) (start : Session σ ν) :
    setup.Lasting (fun _ => True) fun (_ : Memory η) s => Steady start s :=
  Lasting.of_absorb setup (fun n steady => steady.record n) (fun happening steady => steady.absorb happening)
    (fun _ steady => steady.of_journal rfl rfl rfl rfl) (fun _ _ steady => steady.of_journal rfl rfl rfl rfl)
    (fun _ _ steady => steady.taking .accept) (fun _ _ steady => steady.taking .dismiss)

/-- The verbs of the commands that neither leave the page nor take a dialog. -/
def Gathering (v : Verb) : Prop := v ≠ .url ∧ v ≠ .acceptAlert ∧ v ≠ .dismissAlert

theorem since_lasting (setup : Setup σ η ν) (wanted : Answer) (start : Session σ ν) :
    setup.Lasting Gathering fun (_ : Memory η) s => Since wanted start s :=
  Lasting.of_absorb setup (fun n since => ⟨since.armed, since.steady.record n, since.gathers.record n⟩)
    (fun happening since => ⟨since.armed, since.steady.absorb happening, since.gathers.absorb happening⟩)
    (fun page since => ⟨since.armed, since.steady.of_journal rfl rfl rfl rfl, since.gathers.turn page⟩)
    (fun allowed => absurd rfl allowed.1) (fun allowed => absurd rfl allowed.2.1)
    (fun allowed => absurd rfl allowed.2.2)

theorem since_paused {wanted : Answer} {start : Session σ ν} {s : RunState σ η ν}
    (since : Since wanted start s.session) : Since wanted start (setup.paused s).session := by
  unfold paused
  split
  · exact (setup.since_lasting wanted start).pause _ (m := s.memory) since
  · exact since

theorem perform_alert (made : setup.delayRefusal? = none) (phase : Phase) {c : Command} {wanted : Answer}
    (alert : Answer.ofCommand? c = some wanted) (s : RunState σ η ν) :
    setup.perform phase c s = RunM.takeDialog wanted (setup.paused s) := by
  rw [perform_of_made made]
  unfold Answer.ofCommand? at alert
  unfold act
  split at alert
  · next verb =>
    cases alert
    rw [verb]
  · next verb =>
    cases alert
    rw [verb]
  · cases alert

theorem takeDialog_of_none {wanted : Answer} {s : RunState σ η ν} (none : s.session.dialogs.pending = []) :
    RunM.takeDialog wanted s = .error (.failure (.noDialog wanted)) s := by
  unfold RunM.takeDialog RunM.onSession takeDialog Dialogs.take
  rw [none]

theorem takeDialog_of_same {wanted : Answer} {s : RunState σ η ν} {oldest : AnsweredDialog}
    {later : List AnsweredDialog} (waits : s.session.dialogs.pending = oldest :: later)
    (same : oldest.answer = wanted) : ∃ t, RunM.takeDialog wanted s = .ok () t := by
  unfold RunM.takeDialog RunM.onSession takeDialog Dialogs.take
  simp only [waits, same, if_true]
  exact ⟨_, rfl⟩

theorem takeDialog_of_other {wanted : Answer} {s : RunState σ η ν} {oldest : AnsweredDialog}
    {later : List AnsweredDialog} (waits : s.session.dialogs.pending = oldest :: later)
    (other : oldest.answer ≠ wanted) :
    ∃ t, RunM.takeDialog wanted s = .error (.failure (.answeredOtherwise wanted oldest.message)) t := by
  unfold RunM.takeDialog RunM.onSession takeDialog Dialogs.take
  simp only [waits, other, if_false]
  exact ⟨_, rfl⟩

/-- If all dialogs that wait have got the wanted answer, and those that open get it too, an alert command can
fail only for want of a dialog. -/
theorem perform_alert_of_wanted (made : setup.delayRefusal? = none) (phase : Phase) {c : Command} {wanted : Answer}
    (alert : Answer.ofCommand? c = some wanted) {s : RunState σ η ν}
    (armed : s.session.dialogs.answer = wanted) (same : ∀ x ∈ s.session.dialogs.pending, x.answer = wanted) :
    (∃ t, setup.perform phase c s = .ok () t) ∨ s.session.dialogs.pending = [] ∧
      ∃ t, setup.perform phase c s = .error (.failure (.noDialog wanted)) t := by
  rw [perform_alert made phase alert]
  -- Dialogs can open during the pause before the command too.
  have since : Since wanted s.session (setup.paused s).session := since_paused (.refl armed)
  have gathered := since.gathers.pending
  cases waits : (setup.paused s).session.dialogs.pending with
  | nil =>
    rw [waits] at gathered
    exact Or.inr ⟨(List.append_eq_nil_iff.mp gathered.symm).1, _, takeDialog_of_none waits⟩
  | cons oldest later =>
    have among : oldest ∈ s.session.dialogs.pending ++ answeredSince s.session (setup.paused s).session := by
      rw [← gathered, waits]
      exact List.mem_cons_self
    have suits : oldest.answer = wanted := by
      rcases List.mem_append.mp among with before | now
      · exact same oldest before
      · exact since.answers oldest now
    exact Or.inl (takeDialog_of_same waits suits)

end Setup

/-- The answer to dialogs stays as it is armed for a visit, and afterwards none is armed unless none was before. -/
theorem Visit.Done.steady {setup : Setup σ η ν} {v : Visit σ η ν} (done : v.Done setup.conduct) :
    ∃ t armed, Steady v.begun.session t.session ∧ v.after = Setup.setArmed armed t ∧
      (armed = none ∨ v.begun = v.before ∧ v.after = t) := by
  obtain ⟨t, armed, ended, after⟩ := done.carried
  refine ⟨t, armed, ?_, after⟩
  rw [← Run.final_of_failureOf ended]
  exact (setup.steady_lasting v.begun.session).carryOut (fun _ _ steady => steady) (fun _ steady => steady)
    v.phase v.statement.form (fun _ _ => trivial) (.refl _)

/-- All dialogs that are answered during a visit get the answer that its statement begins with. -/
theorem Visit.Done.answers {setup : Setup σ η ν} {v : Visit σ η ν} (done : v.Done setup.conduct)
    {x : AnsweredDialog} (among : x ∈ v.answered) : x.answer = v.begun.session.dialogs.answer := by
  obtain ⟨t, armed, steady, after, -⟩ := done.steady
  -- Arming before and disarming afterwards leave the journal alone.
  have same : v.answered = answeredSince v.begun.session t.session := by
    obtain ⟨armed', begun⟩ := v.begun_eq
    rw [begun, Visit.answered, after]
    rfl
  exact steady.answers (same ▸ among)

/-- This is the standing answer, and dialogs get it. -/
structure Dialogs.Rests (standing : Answer) (d : Dialogs) : Prop where
  stands : d.standing = standing
  given : d.answer = standing

theorem Visit.Done.rests {setup : Setup σ η ν} {v : Visit σ η ν} (done : v.Done setup.conduct) {standing : Answer}
    (rests : v.before.session.dialogs.Rests standing) : v.after.session.dialogs.Rests standing := by
  obtain ⟨t, armed, steady, after, left⟩ := done.steady
  obtain ⟨armed', begun⟩ := v.begun_eq
  have stands : t.session.dialogs.standing = standing := by
    rw [steady.standing, begun]
    exact rests.stands
  rcases left with rfl | ⟨unarmed, same⟩
  · rw [after]
    exact ⟨stands, stands⟩
  · have given : t.session.dialogs.answer = standing := by
      rw [steady.answer, unarmed]
      exact rests.given
    rw [same]
    exact ⟨stands, given⟩

/-- Between the visits of a run only the standing answer is given. -/
theorem Setup.upholds_rests (setup : Setup σ η ν) (script : Script) (standing : Answer) :
    Run.Upholds setup.conduct script fun visits s =>
      s.session.dialogs.Rests standing ∧ ∀ v ∈ visits, v.before.session.dialogs.Rests standing where
  note _ holds := holds
  forget holds := holds
  visit {_ _ v} noted holds before _ done := by
    subst before
    obtain ⟨rests, earlier⟩ := holds
    have finished : (Run.settled setup.conduct noted v.after).session.dialogs.Rests standing := by
      rw [setup.settled_dialogs]
      exact ⟨(done.rests rests).stands, (done.rests rests).given⟩
    exact ⟨finished, List.forall_mem_append.mpr ⟨earlier, List.forall_mem_singleton.mpr rests⟩⟩

end Walkthrough
