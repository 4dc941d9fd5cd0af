import Walkthrough.Proofs.Run.Attached
import Walkthrough.Proofs.Run.Bounds
import Walkthrough.Proofs.Run.Retry

/-!
The flags of a run each time its loop tests its condition. A run waits for a request only while a handler is
carried out, and only then can another try be asked for (`Conduct.Reserved`). Between two turns a run is on its way
or has halted. On its way it has no request left over, and it knows the handler it went to last exactly if the
second try of the region is used up: that is the handler of the place at hand (`flags_settled`).
-/
namespace Walkthrough

open Walkthrough.Action

variable {σ η ν : Type}

/-- Another try cannot be asked for unless a handler is carried out. -/
def Conduct.Reserved (conduct : Conduct σ η ν) : Prop :=
  ∀ (place : Nat) (phase : Phase) (statement : Statement) (upcoming : Option Answer) (s : RunState σ η ν),
    phase ≠ .awaitingRetry →
      (final (conduct.execute place phase statement upcoming s)).memory.retryRequested = s.memory.retryRequested

namespace Setup

open RunM

variable (setup : Setup σ η ν) {phase : Phase} (ordinary : phase ≠ .awaitingRetry) (asked : Bool)
include ordinary

theorem perform_reserved (c : Command) :
    Keeps (fun m : Memory η => m.retryRequested = asked) (setup.perform phase c) := by
  by_cases asking : c.verb = .tryAgain
  · have idle : setup.act phase c = pure () := by
      unfold act
      rw [asking]
      exact if_neg ordinary
    unfold perform
    rw [idle]
    exact guards_ite (keeps_bind (keeps_onSession _) fun _ => guards_pure trivial) (guards_pure trivial)
  · exact fun s holds => ⟨(setup.request_lasting asked).perform phase c asking holds, fun _ _ _ => trivial⟩

theorem carryOut_reserved (form : Form) :
    Keeps (fun m : Memory η => m.retryRequested = asked) (setup.carryOut phase form) := by
  let L (m : Memory η) (_ : Session σ ν) : Prop := m.retryRequested = asked
  have performs (c : Command) : Maintains (On L) (setup.perform phase c) := setup.perform_reserved ordinary asked c
  have anchored (anchor : Option Param) : Maintains (On L) (setup.anchorElement anchor) :=
    setup.anchorElement_keeps (P := fun m => m.retryRequested = asked) anchor
  have saving (name value : String) :
      Maintains (On L) (setMemory fun m => m.setVariable name (m.fillIn value) : RunM σ η ν Unit) :=
    maintains_setMemory fun _ _ holds => holds
  have noting (n : Notice) : Maintains (On L) (note n) :=
    onSession_secures (fun _ => .constant setup.page _) fun _ calm => calm.noting n
  exact carryOut_maintains performs noting saving anchored (fun _ _ => performs) (fun _ holds => holds)
    (fun holds => holds) form

omit ordinary in
theorem conduct_reserved : setup.conduct.Reserved := fun _ _ statement upcoming s ordinary =>
  (setup.execute_keeps (setup.carryOut_reserved ordinary s.memory.retryRequested statement.form) upcoming s rfl).1

end Setup

/-- The flags of a run that is on its way: no request is left over, and the handler that the run went to last is
known exactly if the second try is used up, as the next one from the place at hand. -/
structure Turn.Flags (script : Script) (t : Turn) (m : Memory η) : Prop where
  unrequested : m.retryRequested = false
  retried : t.handler.isSome = t.retryUsed
  ahead : ∀ h ∈ t.handler, script.handler? t.index = some h

/-- The run has halted, or is on its way. -/
def Turn.Settled (script : Script) (t : Turn) (m : Memory η) : Prop :=
  t.phase = .halted ∨ t.phase = .running ∧ t.Flags script m

theorem Turn.running_of_not_over {script : Script} {t : Turn} {m : Memory η} (settled : t.Settled script m)
    (going : t.isOver script = false) : t.phase = .running ∧ t.Flags script m := by
  rcases settled with halted | flags
  · simp [Turn.isOver, halted] at going
  · exact flags

namespace Run

variable {conduct : Conduct σ η ν} {script : Script} {t u : Turn} {s s' : RunState σ η ν}

theorem Attempt.request_kept {place : Nat} {phase : Phase} {statement : Statement} {upcoming : Option Answer}
    {failure : Option Failure} {entry : RecordEntry} (reserved : conduct.Reserved)
    (ordinary : phase ≠ .awaitingRetry) (attempt : Attempt conduct place phase statement upcoming failure s entry s') :
    s'.memory.retryRequested = s.memory.retryRequested := by
  cases attempt with
  | mk noted ended =>
    have kept := reserved place phase statement upcoming s ordinary
    rwa [final_of_failureOf ended] at kept

/-- Whatever the flags were, after a failure they are settled. -/
theorem Recovers.settled (recovers : Recovers conduct script t s u s') : u.Settled script s'.memory := by
  cases recovers with
  | unhandled unnamed => exact Or.inl rfl
  | exhausted h named exhausted => exact Or.inl rfl
  | refused h named fresh here attempt => exact Or.inl rfl
  | left h named fresh here attempt content => exact Or.inr ⟨rfl, rfl, rfl, fun _ known => nomatch known⟩
  | again h named fresh here attempt asked =>
    refine Or.inr ⟨rfl, rfl, rfl, fun h' known => ?_⟩
    cases known
    exact Script.handler?_regionStart named

theorem plain_at {statement : Statement} {i : Nat} (here : script.statements[i]? = some statement)
    (plain : statement.isHandler = false) : ¬ HandlerAt script.statements i := by
  rintro ⟨other, there, handling⟩
  rw [here] at there
  cases there
  rw [plain] at handling
  cases handling

theorem Moves.settled (reserved : conduct.Reserved) (running : t.phase = .running)
    (flags : t.Flags script s.memory) (moves : Moves conduct script t s u s') : u.Settled script s'.memory := by
  have onward {statement : Statement} (here : script.statements[t.index]? = some statement)
      (plain : statement.isHandler = false) : script.handler? (t.index + 1) = script.handler? t.index :=
    Script.handler?_succ (plain_at here plain)
  cases moves with
  | skipped here handling =>
    exact Or.inr ⟨rfl, flags.unrequested, rfl, fun _ known => nomatch known⟩
  | comment here plain silent =>
    exact Or.inr ⟨running, flags.unrequested, flags.retried, fun h known =>
      (onward here plain).trans (flags.ahead h known)⟩
  | passed here plain spoken attempt =>
    have kept := attempt.request_kept reserved (by simp [running])
    exact Or.inr ⟨running, kept.trans flags.unrequested, flags.retried, fun h known =>
      (onward here plain).trans (flags.ahead h known)⟩
  | failed here plain spoken attempt recovers => exact recovers.settled

/-- The second try is given back where the handler of the region is passed, and nowhere else: a failure in it halts
the run. -/
theorem Moves.passes_handler (flags : t.Flags script s.memory) (moves : Moves conduct script t s u s')
    (used : t.retryUsed = true) (unused : u.retryUsed = false) :
    t.handler = some t.index ∧ u.index = t.index + 1 ∧ u.handler = none := by
  obtain ⟨h, known⟩ := Option.isSome_iff_exists.mp (flags.retried.trans used)
  have ahead := flags.ahead h known
  cases moves with
  | skipped here handling =>
    obtain ⟨low, -, between⟩ := Script.handler?_eq_some_iff.mp ahead
    have here_handles : HandlerAt script.statements t.index := ⟨_, here, handling⟩
    obtain rfl : t.index = h :=
      Nat.le_antisymm low (Nat.le_of_not_lt fun beyond => between t.index (Nat.le_refl _) beyond here_handles)
    exact ⟨known, rfl, rfl⟩
  | comment here plain silent => exact absurd (used.symm.trans unused) (by simp)
  | passed here plain spoken attempt => exact absurd (used.symm.trans unused) (by simp)
  | failed here plain spoken attempt recovers =>
    cases recovers with
    | unhandled | exhausted | refused => exact absurd (used.symm.trans unused) (by simp)
    | again => cases unused
    | left h' named fresh =>
      obtain rfl : h = h' := Option.some.inj (ahead.symm.trans named)
      have exhausted : t.exhausted h = true := by simp [Turn.exhausted, used, known]
      exact absurd (exhausted.symm.trans fresh) (by simp)

theorem returns_of_loop {name : String} (startedAt : Moment)
    (looped : loop conduct script {} (s.noted (.runStarted name script.length)) = .ok t s') :
    ∃ record r, run conduct script name startedAt s = .ok record r := by
  cases early : t.phase == .halted with
  | true =>
    refine ⟨⟨name, startedAt, t.entries.toList, true⟩, s'.noted (.runExitedEarly name t.entries.size), ?_⟩
    exact bind_eq_ok.mpr ⟨(), _, rfl, bind_eq_ok.mpr ⟨t, s', looped, by simp only [early]; rfl⟩⟩
  | false =>
    refine ⟨⟨name, startedAt, t.entries.toList, false⟩, s'.noted (.runCompleted name), ?_⟩
    exact bind_eq_ok.mpr ⟨(), _, rfl, bind_eq_ok.mpr ⟨t, s', looped, by simp only [early]; rfl⟩⟩

/-- What every move preserves holds after any number of turns. -/
theorem turns_invariant {I : Turn → RunState σ η ν → Prop}
    (moves : ∀ {t s u s'}, I t s → t.isOver script = false → Moves conduct script t s u s' → I u s') {n : Nat}
    (start : I t s) (turned : turns conduct script n t s = .ok u s') : I u s' := by
  induction n generalizing t s with
  | zero =>
    obtain ⟨rfl, rfl⟩ := pure_eq_ok.mp turned
    exact start
  | succ n ih =>
    unfold turns at turned
    cases ended : t.isOver script with
    | true =>
      rw [ended, if_pos rfl] at turned
      obtain ⟨rfl, rfl⟩ := pure_eq_ok.mp turned
      exact start
    | false =>
      rw [ended, if_neg Bool.false_ne_true] at turned
      obtain ⟨v, r, stepped, rest⟩ := bind_eq_ok.mp turned
      exact ih (moves start ended (moves_of_step ended stepped)) rest

theorem settled_of_turns (reserved : conduct.Reserved) {n : Nat} (fresh : s.memory.retryRequested = false)
    (turned : turns conduct script n {} s = .ok u s') : u.Settled script s'.memory := by
  have start : ({} : Turn).Settled script s.memory := Or.inr ⟨rfl, fresh, rfl, fun _ known => nomatch known⟩
  refine turns_invariant (I := fun t s => t.Settled script s.memory) ?_ start turned
  intro t s u s' settled going moves
  obtain ⟨running, flags⟩ := Turn.running_of_not_over settled going
  exact moves.settled reserved running flags

end Run

/-- Whenever the loop of a run tests its condition, after any number of turns, the run is on its way or has halted.
On its way no request for another try is left over, and the handler that the run went to last is known exactly if
the second try is used up; it is then the next one from the place at hand. So the second try is given back only
where that handler is passed. The loop goes on from each of these turns, and a run that returns ends in one. -/
theorem Setup.flags_settled (setup : Setup σ η ν) (script : Script) (row : Bindings) (startedAt : Moment)
    (session : Session σ ν) :
    let start : RunState σ η ν := .noted { session, memory := { row } } (.runStarted setup.runName script.length)
    (∀ n t s, Run.turns setup.conduct script n {} start = .ok t s →
      (t.phase = .running ∨ t.phase = .halted) ∧
      (t.phase = .running → s.memory.retryRequested = false ∧ (t.handler.isSome ↔ t.retryUsed) ∧
        ∀ h, t.handler = some h → script.handler? t.index = some h) ∧
      (t.isOver script = false → ∀ u s', Run.step setup.conduct script t s = .ok u s' →
        t.retryUsed = true → u.retryUsed = false → t.handler = some t.index ∧ u.index = t.index + 1) ∧
      Run.loop setup.conduct script {} start = Run.loop setup.conduct script t s) ∧
    ∀ record r, setup.run script row startedAt session = .ok record r →
      ∃ n t s, Run.turns setup.conduct script n {} start = .ok t s ∧ t.isOver script = true ∧
        record.entries = t.entries.toList ∧ record.exitedEarly = (t.phase == .halted) := by
  intro start
  refine ⟨fun n t s turned => ?_, fun record r returned => ?_⟩
  · have settled := Run.settled_of_turns setup.conduct_reserved rfl turned
    refine ⟨?_, ?_, ?_, ?_⟩
    · exact settled.elim Or.inr fun onWay => Or.inl onWay.1
    · intro running
      rcases settled with halted | ⟨-, flags⟩
      · rw [running] at halted
        cases halted
      · exact ⟨flags.unrequested, by rw [flags.retried], flags.ahead⟩
    · intro going u s' stepped used unused
      obtain ⟨-, flags⟩ := Turn.running_of_not_over settled going
      obtain ⟨known, onward, -⟩ := (Run.moves_of_step going stepped).passes_handler flags used unused
      exact ⟨known, onward⟩
    · rw [Run.loop_eq_turns setup.conduct script n {}, bind_of_ok turned]
  · obtain ⟨t, s, closing, looped, -, rfl⟩ := Run.run_eq_ok returned
    obtain ⟨atEnd, m, -, turned⟩ := Run.loop_turns {} t _ s looped
    exact ⟨m, t, s, turned, atEnd, rfl, rfl⟩

/-- Nothing is located when the text is to be read; the handler finds the button and asks for another try. -/
def readAgain : Script :=
  .ofStatements [⟨.run [readShown], 1⟩,
    ⟨.handler [{ verb := .locate, param := some (.quoted "Save") }, { verb := .tryAgain }], 2⟩]

def beforeReadAgain : RunState Nat (Nat × Bool) Unit :=
  .noted { session := { page := 0 }, memory := { row := [] } } (.runStarted "run" 2)

/-- Is the second try used up after two turns, and given back in the next turn, which is the last one? -/
def givesBack : Bool :=
  match Run.turns formSetup.conduct readAgain 2 {} beforeReadAgain with
  | .error _ _ => false
  | .ok t s =>
    match Run.step formSetup.conduct readAgain t s with
    | .error _ _ => false
    | .ok u _ => !t.isOver readAgain && t.retryUsed && !u.retryUsed && u.isOver readAgain

theorem turns_readAgain : ∃ t s u s', Run.turns formSetup.conduct readAgain 2 {} beforeReadAgain = .ok t s ∧
    Run.step formSetup.conduct readAgain t s = .ok u s' ∧ t.isOver readAgain = false ∧ t.retryUsed = true ∧
    u.retryUsed = false ∧ u.isOver readAgain = true := by
  have gives : givesBack = true := by decide +kernel
  unfold givesBack at gives
  split at gives
  · cases gives
  · next t s turned =>
    split at gives
    · cases gives
    · next u s' stepped =>
      simp only [Bool.and_eq_true, Bool.not_eq_true'] at gives
      obtain ⟨⟨⟨going, used⟩, unused⟩, atEnd⟩ := gives
      exact ⟨t, s, u, s', turned, stepped, going, used, unused, atEnd⟩

/-- The second try goes through, so the handler is passed and its region is left. -/
theorem flags_settled_readAgain :
    ∃ t s u s' record r, Run.turns formSetup.conduct readAgain 2 {} beforeReadAgain = .ok t s ∧
      Run.step formSetup.conduct readAgain t s = .ok u s' ∧ t.retryUsed = true ∧ u.retryUsed = false ∧
      t.phase = .running ∧ s.memory.retryRequested = false ∧ t.handler = some t.index ∧ u.index = t.index + 1 ∧
      formSetup.run readAgain [] ⟨2024, 1, 2, 3, 4, 5, 0⟩ { page := 0 } = .ok record r ∧
      ∃ n v w, Run.turns formSetup.conduct readAgain n {} beforeReadAgain = .ok v w ∧
        v.isOver readAgain = true ∧ record.exitedEarly = (v.phase == .halted) := by
  obtain ⟨t, s, u, s', turned, stepped, going, used, unused, atEnd⟩ := turns_readAgain
  obtain ⟨tested, ended⟩ := Setup.flags_settled formSetup readAgain [] ⟨2024, 1, 2, 3, 4, 5, 0⟩ { page := 0 }
  obtain ⟨phase, flags, givenBack, onward⟩ := tested 2 t s turned
  have running : t.phase = .running := by
    refine phase.resolve_right fun halted => ?_
    simp [Turn.isOver, halted] at going
  obtain ⟨known, index⟩ := givenBack going u s' stepped used unused
  have lasts : Run.loop formSetup.conduct readAgain t s = .ok u s' := by
    rw [Run.loop_of_not_over going, bind_of_ok stepped, Run.loop_of_over atEnd]
    rfl
  obtain ⟨record, r, returned⟩ := Run.returns_of_loop ⟨2024, 1, 2, 3, 4, 5, 0⟩ (onward.trans lasts)
  obtain ⟨n, v, w, turned', atEnd', -, early⟩ := ended record r returned
  exact ⟨t, s, u, s', record, r, turned, stepped, used, unused, running, (flags running).1, known, index, returned,
    n, v, w, turned', atEnd', early⟩

end Walkthrough
