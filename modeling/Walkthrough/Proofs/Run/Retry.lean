import Walkthrough.Proofs.Run.Jumps
import Walkthrough.Proofs.Run.Lasting
import Walkthrough.Proofs.Run.Trace

/-!
Asking for another try. A handler that goes through has asked for its region to be run again exactly
if this is written in it, as no other command touches the request. With that, the run of a script
depends on nothing but what its statements do: it is the reading of the script region by region
(`watchedRun_eq_readRun`).
-/
namespace Walkthrough

variable {σ η ν : Type}

/-- A handler that went through has asked for another try exactly if that is written in it. -/
def Conduct.Heeds (conduct : Conduct σ η ν) : Prop :=
  ∀ (place : Nat) (handler : Statement) (upcoming : Option Answer) (s t : RunState σ η ν),
    handler.isHandler = true → conduct.execute place .awaitingRetry handler upcoming s = .ok () t →
    t.memory.retryRequested = (s.memory.retryRequested || handler.hasTryAgain)

namespace Setup

open RunM Walkthrough.Action

variable {setup : Setup σ η ν}

/-- No other command touches the request. -/
theorem request_lasting (setup : Setup σ η ν) (asked : Bool) :
    setup.Lasting (fun v => v ≠ .tryAgain) fun (m : Memory η) _ => m.retryRequested = asked :=
  .of_memory setup (fun _ _ same => same) (fun _ _ _ _ same => same) (fun _ _ _ same => same)
    fun allowed => absurd rfl allowed

theorem perform_request (c : Command) {s t : RunState σ η ν}
    (done : perform setup .awaitingRetry c s = .ok () t) :
    t.memory.retryRequested = (s.memory.retryRequested || c.verb == .tryAgain) := by
  by_cases asking : c.verb = .tryAgain
  · have acted : ∃ u, act setup .awaitingRetry c u = .ok () t := by
      unfold perform at done
      split at done
      · obtain ⟨_, u, -, acted⟩ := bind_eq_ok.mp done
        exact ⟨u, acted⟩
      · exact ⟨s, done⟩
    obtain ⟨u, acted⟩ := acted
    simp only [act, asking, if_true] at acted
    cases acted
    simp [asking]
  · have kept := (setup.request_lasting s.memory.retryRequested).perform .awaitingRetry c asking (s := s) rfl
    rw [done] at kept
    rw [beq_eq_false_iff_ne.mpr asking, Bool.or_false]
    exact kept

theorem performAll_request (body : List Command) {s t : RunState σ η ν}
    (done : performAll setup .awaitingRetry body s = .ok () t) :
    t.memory.retryRequested = (s.memory.retryRequested || body.any (·.verb == .tryAgain)) := by
  induction body generalizing s with
  | nil =>
    obtain ⟨-, rfl⟩ := pure_eq_ok.mp done
    simp
  | cons c later ih =>
    obtain ⟨_, u, first, rest⟩ := bind_eq_ok.mp done
    rw [ih rest, perform_request c first, List.any_cons, Bool.or_assoc]

theorem conduct_heeds (setup : Setup σ η ν) : setup.conduct.Heeds := by
  intro place handler upcoming s t handling done
  obtain ⟨form, line⟩ := handler
  cases form with
  | handler body =>
    change execute setup .awaitingRetry ⟨.handler body, line⟩ upcoming s = .ok () t at done
    cases armed : (Answer.first? body).or upcoming with
    | none =>
      simp only [execute, Form.commands, armed] at done
      exact performAll_request body done
    | some answer =>
      simp only [execute, Form.commands, armed] at done
      obtain ⟨_, u, prepared, done⟩ := bind_eq_ok.mp done
      cases prepared
      simp only [andFinally, carryOut] at done
      split at done
      · next result =>
        cases done
        have asked := performAll_request body result
        exact asked
      · cases done
  | comment | save | run | conditional | under => simp [Statement.isHandler] at handling

end Setup

theorem Conduct.Heeds.watched {conduct : Conduct σ η ν} (heeds : conduct.Heeds) : conduct.watched.Heeds := by
  intro place handler upcoming s t handling done
  cases result : conduct.execute place .awaitingRetry handler upcoming s.bare with
  | ok _ u =>
    simp only [Conduct.watched, result] at done
    cases done
    exact heeds place handler upcoming _ _ handling result
  | error stop u =>
    simp only [Conduct.watched, result] at done
    cases done

namespace Run

open Walkthrough.Action

variable {conduct : Conduct σ η ν}

theorem readHandler_asWritten (heeds : conduct.Heeds) (place : Nat) (handler : Statement)
    (entries : Array RecordEntry) (handling : handler.isHandler = true) :
    readHandler conduct asRequested place handler entries =
      readHandler conduct asWritten place handler entries := by
  funext s
  refine bind_congr_at fun _ u forgotten => bind_congr_at fun _ v noted => ?_
  refine bind_congr_at fun failed t result => ?_
  cases failed with
  | some failure => rfl
  | none =>
    cases forgotten
    cases noted
    have asked : t.memory.retryRequested = handler.hasTryAgain :=
      heeds place handler none _ t handling (failureOf_eq_none.mp result)
    refine bind_congr_at fun _ u finished => bind_congr_at fun entries v written => ?_
    cases finished
    cases written
    simp only [asRequested, asWritten, takeRetryRequest, bind, EStateM.bind, asked]
    rfl

theorem read_asWritten (heeds : conduct.Heeds) (r : Regions) (place : Nat) (entries : Array RecordEntry)
    (cut : r.Cut) : read conduct asRequested place r entries = read conduct asWritten place r entries := by
  induction r generalizing place entries with
  | last body => rfl
  | guarded body handler later ih =>
    obtain ⟨-, handling, cut⟩ := cut
    simp only [read, readHandler_asWritten heeds _ handler _ handling, ih _ _ cut]

theorem run_eq_readRun_asWritten (heeds : conduct.Heeds) (script : Script) (name : String) (startedAt : Moment) :
    run conduct script name startedAt = readRun conduct asWritten script name startedAt := by
  rw [run_eq_readRun]
  unfold readRun
  rw [read_asWritten heeds _ 0 #[] (Regions.cut_ofStatements _)]

end Run

/-- The run that jumps through a script is the reading of the script region by region: it carries out
and finishes the same statements in the same order, writes the same record, and ends in the same
state. -/
theorem Setup.watchedRun_eq_readRun (setup : Setup σ η ν) (script : Script) (row : Bindings)
    (startedAt : Moment) (session : Session σ ν) :
    setup.watchedRun script row startedAt session =
        Run.readRun setup.conduct.watched Run.asWritten script setup.runName startedAt
          { session := session.keeping [], memory := { row } } ∧
      Action.mapState RunState.bare (setup.watchedRun script row startedAt session) =
        setup.run script row startedAt session := by
  constructor
  · unfold watchedRun
    rw [Run.run_eq_readRun_asWritten (conduct_heeds setup).watched]
  · exact Run.run_mirrors _ _ _

end Walkthrough
