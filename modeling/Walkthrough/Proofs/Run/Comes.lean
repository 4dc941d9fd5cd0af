import Walkthrough.Proofs.Run.Bounds
import Walkthrough.Proofs.Run.Moves

/-!
The statements that a run comes to. In a turn it comes to the statement at hand and, should that fail, to its handler
(`Meets`). A run ends with a fault just where a statement that it comes to does (`run_eq_error`).
-/
namespace Walkthrough.Run

open Walkthrough.Action

variable {σ η ν : Type}

/-- From this turn, a run comes to carry out this statement at this place in this phase. -/
inductive Meets (conduct : Conduct σ η ν) (script : Script) (t : Turn) (s : RunState σ η ν) :
    (place : Nat) → Phase → Statement → (upcoming : Option Answer) → (before : RunState σ η ν) → Prop where
  | onward {st : Statement} (here : script.statements[t.index]? = some st) (plain : st.isHandler = false)
      (spoken : st.isComment = false) :
      Meets conduct script t s t.index t.phase st (Answer.upcoming? (script.statements.drop (t.index + 1)))
        (s.noted (.executing st))
  | recovering {st handler : Statement} {h : Nat} {failure : Failure} {r : RunState σ η ν}
      (here : script.statements[t.index]? = some st) (plain : st.isHandler = false) (spoken : st.isComment = false)
      (failed : conduct.execute t.index t.phase st (Answer.upcoming? (script.statements.drop (t.index + 1)))
        (s.noted (.executing st)) = .error (.failure failure) r)
      (named : script.handler? t.index = some h) (fresh : t.exhausted h = false)
      (there : script.statements[h]? = some handler) :
      Meets conduct script t s h .awaitingRetry handler none
        ((settled conduct (some (.failed st failure)) r).forgetful.noted (.jumping handler))

/-- A run that begins in this state comes to carry out this statement. -/
def Comes (conduct : Conduct σ η ν) (script : Script) (start : RunState σ η ν) (place : Nat) (phase : Phase)
    (st : Statement) (upcoming : Option Answer) (before : RunState σ η ν) : Prop :=
  ∃ n t s, turns conduct script n {} start = .ok t s ∧ t.isOver script = false ∧
    Meets conduct script t s place phase st upcoming before

variable {conduct : Conduct σ η ν} {script : Script} {t : Turn} {s u : RunState σ η ν} {f : Fault}

theorem failureOf_eq_error {x : RunM σ η ν Unit} : failureOf x s = .error f u ↔ x s = .error (.fault f) u := by
  unfold failureOf
  cases x s with
  | ok _ r => simp
  | error stop r => cases stop <;> simp

theorem failureOf_eq_some {x : RunM σ η ν Unit} {failure : Failure} :
    failureOf x s = .ok (some failure) u ↔ x s = .error (.failure failure) u := by
  unfold failureOf
  cases x s with
  | ok _ r => simp
  | error stop r => cases stop <;> simp

/-- What a turn does with the handler of a region. -/
theorem handle_eq {h : Nat} {handler : Statement} :
    handle conduct script t h handler s =
      (failureOf (conduct.execute h .awaitingRetry handler none) >>= fun failed => match failed with
        | some failure => do
          note (.handlerFailed failure)
          let t ← record (t.awaitRetry h) handler (some failure)
          finish conduct
          return t.halt script
        | none => do
          finish conduct
          let t ← record (t.awaitRetry h) handler none
          if ← takeRetryRequest then
            note (.tryingAgain (script.regionStart h + 1))
            return t.retry (script.regionStart h)
          else return t.enterRegion (h + 1)) (s.forgetful.noted (.jumping handler)) :=
  rfl

theorem handle_eq_error {h : Nat} {handler : Statement} :
    handle conduct script t h handler s = .error f u ↔
      conduct.execute h .awaitingRetry handler none (s.forgetful.noted (.jumping handler)) = .error (.fault f) u := by
  rw [handle_eq, bind_eq_error, failureOf_eq_error]
  refine or_iff_left ?_
  rintro ⟨failed, r, -, stopped⟩
  cases failed with
  | some failure => cases stopped
  | none =>
    rcases bind_eq_error.mp stopped with stopped | ⟨_, _, -, stopped⟩
    · cases stopped
    rcases bind_eq_error.mp stopped with stopped | ⟨_, _, -, stopped⟩
    · cases stopped
    rcases bind_eq_error.mp stopped with stopped | ⟨asked, _, -, stopped⟩
    · cases stopped
    cases asked <;> cases stopped

theorem recover_eq_error :
    recover conduct script t s = .error f u ↔ ∃ h handler, script.handler? t.index = some h ∧
      t.exhausted h = false ∧ script.statements[h]? = some handler ∧
      conduct.execute h .awaitingRetry handler none (s.forgetful.noted (.jumping handler)) = .error (.fault f) u := by
  constructor
  · intro stopped
    unfold recover at stopped
    cases named : script.handler? t.index with
    | none =>
      rw [named] at stopped
      cases stopped
    | some h =>
      obtain ⟨handler, there, -⟩ := (Script.handler?_eq_some_iff.mp named).2.1
      cases fresh : t.exhausted h with
      | true =>
        simp only [named, fresh, if_true] at stopped
        cases stopped
      | false =>
        simp only [named, fresh, there, Bool.false_eq_true, if_false] at stopped
        exact ⟨h, handler, rfl, fresh, there, handle_eq_error.mp stopped⟩
  · rintro ⟨h, handler, named, fresh, there, stopped⟩
    unfold recover
    simp only [named, fresh, there, Bool.false_eq_true, if_false]
    exact handle_eq_error.mpr stopped

/-- What a turn does with a statement that is to be carried out. -/
theorem step_of_spoken {st : Statement} (here : script.statements[t.index]? = some st) (plain : st.isHandler = false)
    (spoken : st.isComment = false) :
    step conduct script t s = (failureOf (conduct.execute t.index t.phase st
        (Answer.upcoming? (script.statements.drop (t.index + 1)))) >>= fun failed => match failed with
      | none => do
        let t ← record t st none
        finish conduct
        return t.next
      | some failure => do
        note (.failed st failure)
        let t ← record t st (some failure)
        finish conduct
        recover conduct script t) (s.noted (.executing st)) := by
  unfold step
  simp only [here, plain, spoken, Bool.false_eq_true, if_false]
  rfl

theorem step_eq_error :
    step conduct script t s = .error f u ↔ ∃ place phase st upcoming before,
      Meets conduct script t s place phase st upcoming before ∧
        conduct.execute place phase st upcoming before = .error (.fault f) u := by
  constructor
  · intro stopped
    cases here : script.statements[t.index]? with
    | none =>
      unfold step at stopped
      rw [here] at stopped
      cases stopped
    | some st =>
      cases plain : st.isHandler with
      | true =>
        unfold step at stopped
        simp only [here, plain, if_true] at stopped
        cases stopped
      | false =>
        cases spoken : st.isComment with
        | true =>
          unfold step at stopped
          simp only [here, plain, spoken, Bool.false_eq_true, if_false, if_true] at stopped
          cases stopped
        | false =>
          rw [step_of_spoken here plain spoken] at stopped
          rcases bind_eq_error.mp stopped with faulted | ⟨failed, r, ended, stopped⟩
          · exact ⟨_, _, _, _, _, .onward here plain spoken, failureOf_eq_error.mp faulted⟩
          · cases failed with
            | none => cases stopped
            | some failure =>
              obtain ⟨h, handler, named, fresh, there, faulted⟩ := recover_eq_error.mp stopped
              exact ⟨_, _, _, _, _,
                .recovering here plain spoken (failureOf_eq_some.mp ended) named fresh there, faulted⟩
  · rintro ⟨place, phase, st, upcoming, before, meets, faulted⟩
    cases meets with
    | onward here plain spoken =>
      rw [step_of_spoken here plain spoken]
      exact bind_eq_error.mpr (Or.inl (failureOf_eq_error.mpr faulted))
    | recovering here plain spoken failed named fresh there =>
      rw [step_of_spoken here plain spoken]
      refine (bind_of_ok (failureOf_eq_some.mpr failed)).trans ?_
      exact recover_eq_error.mpr ⟨_, _, named, fresh, there, faulted⟩

theorem turns_of_loop_eq_error {t : Turn} {s : RunState σ η ν} (stopped : loop conduct script t s = .error f u) :
    ∃ n v r, turns conduct script n t s = .ok v r ∧ v.isOver script = false ∧
      step conduct script v r = .error f u := by
  cases ended : t.isOver script with
  | true =>
    rw [loop_of_over ended] at stopped
    cases stopped
  | false =>
    rw [loop_of_not_over ended] at stopped
    rcases bind_eq_error.mp stopped with stopped | ⟨next, r, stepped, rest⟩
    · exact ⟨0, t, s, rfl, ended, stopped⟩
    · have := (step_advances stepped).remaining_less ended
      obtain ⟨n, v, r', turned, going, stopped⟩ := turns_of_loop_eq_error rest
      refine ⟨n + 1, v, r', ?_, going, stopped⟩
      unfold turns
      rw [ended, if_neg Bool.false_ne_true, bind_of_ok stepped]
      exact turned
termination_by Turn.remaining script t
decreasing_by exact this

/-- A run ends with a fault just where a statement that it comes to does. -/
theorem run_eq_error {name : String} {startedAt : Moment} :
    run conduct script name startedAt s = .error f u ↔ ∃ place phase st upcoming before,
      Comes conduct script (s.noted (.runStarted name script.length)) place phase st upcoming before ∧
        conduct.execute place phase st upcoming before = .error (.fault f) u := by
  have looping : run conduct script name startedAt s = .error f u ↔
      loop conduct script {} (s.noted (.runStarted name script.length)) = .error f u := by
    have begun : run conduct script name startedAt s = (loop conduct script {} >>= fun t => do
        let exitedEarly := t.phase == .halted
        if exitedEarly then note (.runExitedEarly name t.entries.size)
        else note (.runCompleted name)
        return { name, startedAt, entries := t.entries.toList, exitedEarly })
        (s.noted (.runStarted name script.length)) := rfl
    rw [begun, bind_eq_error]
    refine or_iff_left ?_
    rintro ⟨t, r, -, stopped⟩
    dsimp only at stopped
    split at stopped <;> cases stopped
  rw [looping]
  constructor
  · intro stopped
    obtain ⟨n, v, r, turned, going, stopped⟩ := turns_of_loop_eq_error stopped
    obtain ⟨place, phase, st, upcoming, before, meets, faulted⟩ := step_eq_error.mp stopped
    exact ⟨place, phase, st, upcoming, before, ⟨n, v, r, turned, going, meets⟩, faulted⟩
  · rintro ⟨place, phase, st, upcoming, before, ⟨n, v, r, turned, going, meets⟩, faulted⟩
    rw [loop_eq_turns conduct script n, bind_of_ok turned, loop_of_not_over going]
    exact bind_eq_error.mpr (Or.inl (step_eq_error.mpr ⟨_, _, _, _, _, meets, faulted⟩))

end Walkthrough.Run
