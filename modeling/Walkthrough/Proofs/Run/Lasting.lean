import Walkthrough.Proofs.Run.Alike
import Walkthrough.Proofs.Session.Extended

/-!
Properties that last. A property of the memory and the session lasts through a statement if it lasts through
single requests and pauses, through what the commands of the statement do to the memory and the dialogs
themselves (`Lasting`), and through what the statement does besides (`Stays`). It then holds wherever the
statement stops.
-/
namespace Walkthrough

open Walkthrough.Action Session

variable {σ η ν α : Type}

theorem Session.absorbAll_lasts {P : Session σ ν → Prop}
    (absorb : ∀ {s} happening, P s → P (s.absorb happening)) (happenings : List (Happening ν))
    {s : Session σ ν} (holds : P s) : P (s.absorbAll happenings) := by
  induction happenings generalizing s with
  | nil => exact holds
  | cons happening later ih => exact ih (absorb happening holds)

/-- Beside itself, an action goes alike in a state with the property: the property lasts. -/
theorem Action.alike_lasts {ε S : Type} {P : S → Prop} {x : EStateM ε S α}
    (lasts : ∀ s, P s → P (final (x s))) : Alike (fun a b => a = b ∧ P a) x x := by
  intro s t same
  obtain ⟨rfl, holds⟩ := same
  have after := lasts s holds
  cases result : x s with
  | ok a u =>
    rw [result] at after
    exact .ok a ⟨rfl, after⟩
  | error e u =>
    rw [result] at after
    exact .error e ⟨rfl, after⟩

theorem Action.Ends.final_tied {ε S T : Type} {tie : S → T → Prop} {x : EStateM.Result ε S α}
    {y : EStateM.Result ε T α} (ends : Ends tie x y) : tie (final x) (final y) := by
  cases ends with
  | ok a tied => exact tied
  | error e tied => exact tied

namespace Setup

variable {setup : Setup σ η ν} {may : Verb → Prop} {P : Memory η → Session σ ν → Prop}

theorem act_screenshot {phase : Phase} {c : Command} (seeing : c.verb = .screenshot) (s : RunState σ η ν) :
    setup.act phase c s = match Session.screenshot setup.page s.session with
      | .ok png session => .ok () { session, memory := s.memory.addScreenshot setup.runName png }
      | .error stop session => .error stop { s with session } := by
  have unfolded : setup.act phase c = RunM.onSession (Session.screenshot setup.page) >>= fun png =>
      RunM.setMemory (·.addScreenshot setup.runName png) := by
    unfold act
    rw [seeing]
    rfl
  rw [unfolded]
  simp only [bind, EStateM.bind, RunM.onSession]
  cases Session.screenshot setup.page s.session <;> rfl

/-- The property lasts through everything that the commands with these verbs do. -/
structure Lasting (setup : Setup σ η ν) (may : Verb → Prop) (P : Memory η → Session σ ν → Prop) : Prop where
  note : ∀ {m s} (n : Notice), P m s → P m (s.record n)
  ask : ∀ {α : Type} (r : Request η α), ¬ r.IsScreenshot → ∀ {m s}, P m s →
    P m (final (Session.ask setup.page r s))
  pause : ∀ (seconds : Float) {m s}, P m s → P m (final (Session.pause setup.page seconds s))
  elements : ∀ {m : Memory η} {s} (located : Option (Located η)) (active : Option η), P m s →
    P { m with located, active } s
  reading : may .readTo → ∀ {m : Memory η} {s} (name value : String), P m s → P (m.setVariable name value) s
  screenshot : may .screenshot → ∀ {m : Memory η} {s s' : Session σ ν}, P m s →
    (∀ png, Session.screenshot setup.page s = .ok png s' → P (m.addScreenshot setup.runName png) s') ∧
      ∀ stop, Session.screenshot setup.page s = .error stop s' → P m s'
  leave : may .url → ∀ {m s}, P m s → P m { s with dialogs := s.dialogs.dropAll }
  accept : may .acceptAlert → ∀ {m s}, P m s → P m (final (takeDialog .accept s))
  dismiss : may .dismissAlert → ∀ {m s}, P m s → P m (final (takeDialog .dismiss s))
  again : may .tryAgain → ∀ {m : Memory η} {s}, P m s → P { m with retryRequested := true } s

/-- For a property of the session alone, whatever the page: it has to last through what happens, and through what
commands do to the dialogs. -/
theorem Lasting.of_absorb (setup : Setup σ η ν) {P : Session σ ν → Prop}
    (record : ∀ {s} (n : Notice), P s → P (s.record n))
    (absorb : ∀ {s} (happening : Happening ν), P s → P (s.absorb happening))
    (turn : ∀ {s : Session σ ν} (page : σ), P s → P { s with page })
    (leave : may .url → ∀ {s : Session σ ν}, P s → P { s with dialogs := s.dialogs.dropAll })
    (accept : may .acceptAlert → ∀ {s}, P s → P (final (takeDialog .accept s)))
    (dismiss : may .dismissAlert → ∀ {s}, P s → P (final (takeDialog .dismiss s))) :
    setup.Lasting may fun (_ : Memory η) s => P s := by
  have asked {α : Type} (r : Request η α) {s : Session σ ν} (holds : P s) :
      P (final (Session.ask setup.page r s)) :=
    absorbAll_lasts absorb _ (turn (setup.page.perform r s.dialogs.answer s.page).state holds)
  have seen {s : Session σ ν} (holds : P s) : P (final (Session.screenshot setup.page s)) := by
    have same := final_demand setup.page .screenshot .screenshot s
    exact same ▸ asked .screenshot holds
  exact
    { note := fun n holds => record n holds
      ask := fun r _ => asked r
      pause := fun seconds _ s holds => by
        rw [final_pause]
        exact absorbAll_lasts absorb _ (turn (rested setup.page seconds s) holds)
      elements := fun _ _ holds => holds
      reading := fun _ _ _ _ _ holds => holds
      screenshot := fun _ _ s s' holds =>
        ⟨fun png taken => by simpa only [taken, final] using seen holds,
          fun failure refused => by simpa only [refused, final] using seen holds⟩
      leave := fun allowed _ _ holds => leave allowed holds
      accept := fun allowed _ _ holds => accept allowed holds
      dismiss := fun allowed _ _ holds => dismiss allowed holds
      again := fun _ _ _ holds => holds }

/-- For a property of the memory alone, whatever the session: it has to last through what commands write there. -/
theorem Lasting.of_memory (setup : Setup σ η ν) {P : Memory η → Prop}
    (elements : ∀ {m : Memory η} (located : Option (Located η)) (active : Option η), P m → P { m with located, active })
    (reading : may .readTo → ∀ {m : Memory η} (name value : String), P m → P (m.setVariable name value))
    (screenshot : may .screenshot → ∀ {m : Memory η} (png : ByteArray), P m → P (m.addScreenshot setup.runName png))
    (again : may .tryAgain → ∀ {m : Memory η}, P m → P { m with retryRequested := true }) :
    setup.Lasting may fun m (_ : Session σ ν) => P m where
  note _ holds := holds
  ask _ _ _ _ holds := holds
  pause _ _ _ holds := holds
  elements located active holds := elements located active holds
  reading allowed _ _ name value holds := reading allowed name value holds
  screenshot allowed _ _ _ holds := ⟨fun png _ => screenshot allowed png holds, fun _ _ => holds⟩
  leave _ _ _ holds := holds
  accept _ _ _ holds := holds
  dismiss _ _ _ holds := holds
  again allowed _ _ holds := again allowed holds

/-- The property lasts through what statements do besides their commands. -/
structure Stays (P : Memory η → Session σ ν → Prop) : Prop where
  save : ∀ {m : Memory η} {s} (name value : String), P m s → P (m.setVariable name value) s
  confine : ∀ {m : Memory η} {s} (scope : Option η), P m s → P { m with scope } s
  arm : ∀ {m s} (armed : Option Answer), P m s → P m { s with dialogs := s.dialogs.prepare armed }

namespace Lasting

/-- The state beside itself, with the property. -/
abbrev Beside (P : Memory η → Session σ ν → Prop) (m : Memory η) (a b : Session σ ν) : Prop := a = b ∧ P m a

theorem links (lasting : setup.Lasting may P) : setup.Links setup.page may (Beside P) where
  tied m :=
    { levels := fun same => congrArg (fun s => setup.page.levels s.page) same.1
      note := fun n same => ⟨congrArg (·.record n) same.1, lasting.note n same.2⟩
      ask := fun r plain => alike_lasts fun s => lasting.ask r plain
      pause := fun seconds => alike_lasts fun s => lasting.pause seconds }
  elements located active same := ⟨same.1, lasting.elements located active same.2⟩
  reading allowed _ _ _ name value same := ⟨same.1, lasting.reading allowed name value same.2⟩
  screenshot allowed phase c seeing := by
    rintro ⟨session, memory⟩ ⟨session', memory'⟩ ⟨same, sessions, holds⟩
    obtain rfl : memory = memory' := same
    obtain rfl : session = session' := sessions
    change Ends _ (setup.act phase c ⟨session, memory⟩) (setup.act phase c ⟨session, memory⟩)
    rw [act_screenshot seeing]
    cases seen : Session.screenshot setup.page session with
    | ok png after => exact .ok () ⟨rfl, rfl, (lasting.screenshot allowed holds).1 png seen⟩
    | error stop after => exact .error _ ⟨rfl, rfl, (lasting.screenshot allowed holds).2 stop seen⟩
  leave allowed _ _ _ same := ⟨same.1 ▸ rfl, lasting.leave allowed same.2⟩
  accept allowed m := alike_lasts fun s => lasting.accept allowed
  dismiss allowed m := alike_lasts fun s => lasting.dismiss allowed
  again allowed _ _ _ same := ⟨same.1, lasting.again allowed same.2⟩

theorem lasts (stays : Stays P) : Lasts (Beside P) where
  save name value same := ⟨same.1, stays.save name value same.2⟩
  confine scope same := ⟨same.1, stays.confine scope same.2⟩
  arm armed same := ⟨same.1 ▸ rfl, stays.arm armed same.2⟩

variable {s : RunState σ η ν}

theorem of_alike {x : RunM σ η ν α} (alike : Alike (RunState.Joint (Beside P)) x x) (holds : P s.memory s.session) :
    P (final (x s)).memory (final (x s)).session :=
  (alike s s ⟨rfl, rfl, holds⟩).final_tied.2.2

theorem perform (lasting : setup.Lasting may P) (phase : Phase) (c : Command) (allowed : may c.verb)
    (holds : P s.memory s.session) :
    P (final (setup.perform phase c s)).memory (final (setup.perform phase c s)).session :=
  of_alike (lasting.links.perform phase c allowed) holds

theorem performAll (lasting : setup.Lasting may P) (phase : Phase) (body : List Command)
    (allowed : ∀ c ∈ body, may c.verb) (holds : P s.memory s.session) :
    P (final (setup.performAll phase body s)).memory (final (setup.performAll phase body s)).session :=
  of_alike (lasting.links.performAll phase body allowed) holds

theorem carryOut (lasting : setup.Lasting may P)
    (save : ∀ {m : Memory η} {s} (name value : String), P m s → P (m.setVariable name value) s)
    (confine : ∀ {m : Memory η} {s} (scope : Option η), P m s → P { m with scope } s) (phase : Phase) (form : Form)
    (allowed : ∀ c ∈ form.commands, may c.verb) (holds : P s.memory s.session) :
    P (final (setup.carryOut phase form s)).memory (final (setup.carryOut phase form s)).session := by
  refine of_alike (lasting.links.carryOut_of ?_ ?_ phase form allowed) holds
  · intro m a b name value same
    exact ⟨same.1, save name value same.2⟩
  · intro m a b scope same
    exact ⟨same.1, confine scope same.2⟩

theorem anchorElement (lasting : setup.Lasting may P) (anchor : Option Param) (holds : P s.memory s.session) :
    P (final (setup.anchorElement anchor s)).memory (final (setup.anchorElement anchor s)).session :=
  of_alike (lasting.links.anchorElement anchor) holds

theorem execute (lasting : setup.Lasting may P) (stays : Stays P) (phase : Phase) (st : Statement)
    (upcoming : Option Answer) (allowed : ∀ c ∈ st.form.commands, may c.verb) (holds : P s.memory s.session) :
    P (final (setup.execute phase st upcoming s)).memory (final (setup.execute phase st upcoming s)).session :=
  of_alike (lasting.links.execute (lasts stays) phase st upcoming allowed) holds

end Lasting
end Setup

/-- The property lasts through what the conduct does to the statements of the script, and through what a run does
between them. -/
structure Conduct.Lasting (conduct : Conduct σ η ν) (script : Script) (P : Memory η → Session σ ν → Prop) : Prop where
  execute : ∀ place phase upcoming, ∀ st ∈ script.statements, ∀ s : RunState σ η ν, P s.memory s.session →
    P (final (conduct.execute place phase st upcoming s)).memory
      (final (conduct.execute place phase st upcoming s)).session
  finish : ∀ {m s}, P m s → P m (conduct.finish s)
  note : ∀ {m s} (n : Notice), P m s → P m (s.record n)
  drain : ∀ {m : Memory η} {s}, P m s → P { m with screenshots := [] } s
  forget : ∀ {m : Memory η} {s}, P m s → P { m with retryRequested := false } s

/-- The property then holds at the end of a run, also of one that ends with a fault. -/
theorem Conduct.Lasting.run {conduct : Conduct σ η ν} {script : Script} {P : Memory η → Session σ ν → Prop}
    (lasting : conduct.Lasting script P) (name : String) (startedAt : Moment) {s : RunState σ η ν}
    (holds : P s.memory s.session) :
    P (final (Run.run conduct script name startedAt s)).memory
      (final (Run.run conduct script name startedAt s)).session := by
  have links : conduct.Links conduct script (Setup.Lasting.Beside P) :=
    { execute := fun place phase upcoming st listed => by
        rintro ⟨session, memory⟩ ⟨session', memory'⟩ ⟨same, sessions, holds⟩
        obtain rfl : memory = memory' := same
        obtain rfl : session = session' := sessions
        have after := lasting.execute place phase upcoming st listed ⟨session, memory⟩ holds
        cases result : conduct.execute place phase st upcoming ⟨session, memory⟩ with
        | ok a u =>
          rw [result] at after
          exact .ok a ⟨rfl, rfl, after⟩
        | error stop u =>
          rw [result] at after
          exact .error stop ⟨rfl, rfl, after⟩
      finish := fun same => ⟨same.1 ▸ rfl, lasting.finish same.2⟩
      note := fun n same => ⟨same.1 ▸ rfl, lasting.note n same.2⟩
      drain := fun same => ⟨same.1, lasting.drain same.2⟩
      forget := fun same => ⟨same.1, lasting.forget same.2⟩ }
  exact (Run.run_alike links name startedAt s s ⟨rfl, rfl, holds⟩).final_tied.2.2

end Walkthrough
