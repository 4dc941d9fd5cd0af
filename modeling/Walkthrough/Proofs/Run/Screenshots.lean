import Walkthrough.Proofs.Run.Lasting
import Walkthrough.Proofs.Run.Paused
import Walkthrough.Proofs.Run.Visits

/-!
Where the screenshots of a run go. A page can be filmed: each picture it gives away is kept, in order. A
command adds to the film just if it is a screenshot and succeeds. In a run that returns, the
screenshots on record are the film, numbered from one, and each of them is in the entry of the visit
during which it was taken.
-/
namespace Walkthrough

open Walkthrough.Action

variable {σ η ν α : Type}

/-- The picture in an answer to a request for a screenshot. -/
def Request.picture : {α : Type} → Request η α → Except String α → List ByteArray
  | _, .screenshot, .ok png => [png]
  | _, _, _ => []

theorem Request.picture_of_plain {r : Request η α} (plain : ¬ r.IsScreenshot) (result : Except String α) :
    r.picture result = [] := by
  cases r with
  | screenshot => exact absurd trivial plain
  | _ => rfl

def Page.filmed (page : Page σ η ν) : Page (σ × List ByteArray) η ν where
  perform r answer s :=
    let reply := page.perform r answer s.1
    ⟨reply.result, reply.happenings, (reply.state, s.2 ++ r.picture reply.result)⟩
  sleep seconds answer s :=
    let (happenings, state) := page.sleep seconds answer s.1
    (happenings, (state, s.2))
  refuses := page.refuses
  levels s := page.levels s.1

theorem Page.filmed_extends (page : Page σ η ν) : page.filmed.Extends page where
  perform _ _ _ := ⟨_, rfl⟩
  sleep _ _ s := ⟨s.2, rfl⟩
  refuses _ := rfl
  levels _ := rfl

/-- The screenshots of a run with these pictures, of which so many were taken before. -/
def numbered (runName : String) (before : Nat) (pngs : List ByteArray) : List Screenshot :=
  pngs.mapIdx fun i png => ⟨runName ++ "_screenshot_" ++ toString (before + i + 1) ++ ".png", png⟩

theorem numbered_append (runName : String) (before : Nat) (pngs later : List ByteArray) :
    numbered runName before (pngs ++ later) =
      numbered runName before pngs ++ numbered runName (before + pngs.length) later := by
  unfold numbered
  rw [List.mapIdx_append]
  simp only [Nat.add_assoc, Nat.add_comm, Nat.add_left_comm]

theorem map_png_numbered (runName : String) (before : Nat) (pngs : List ByteArray) :
    (numbered runName before pngs).map (·.png) = pngs := by
  refine List.ext_getElem (by simp [numbered]) fun i _ _ => ?_
  simp [numbered]

namespace Session

variable (page : Page σ η ν)

theorem film_ask (r : Request η α) (s : Session (σ × List ByteArray) ν) :
    (final (ask page.filmed r s)).page.2 =
      s.page.2 ++ r.picture (page.perform r s.dialogs.answer s.page.1).result :=
  congrArg Prod.snd (page_absorbAll _ _)

theorem film_pause (seconds : Float) (s : Session (σ × List ByteArray) ν) :
    (final (pause page.filmed seconds s)).page.2 = s.page.2 := by
  rw [final_pause, page_absorbAll]
  change (rested page.filmed seconds s).2 = s.page.2
  unfold rested
  cases page.filmed.refuses seconds <;> rfl

theorem film_screenshot (s : Session (σ × List ByteArray) ν) :
    match screenshot page.filmed s with
    | .ok png s' => s'.page.2 = s.page.2 ++ [png]
    | .error _ s' => s'.page.2 = s.page.2 := by
  have asked : ask page.filmed .screenshot s =
      .ok (page.perform .screenshot s.dialogs.answer s.page.1).result
        (final (ask page.filmed .screenshot s)) := rfl
  have film := film_ask page .screenshot s
  unfold screenshot demand
  rw [bind_of_ok asked]
  cases result : (page.perform .screenshot s.dialogs.answer s.page.1).result with
  | ok png =>
    rw [result] at film
    exact film
  | error reason =>
    rw [result] at film
    exact film.trans (List.append_nil _)

end Session

namespace Setup

def filmed (setup : Setup σ η ν) : Setup (σ × List ByteArray) η ν := setup.over setup.page.filmed

variable {setup : Setup σ η ν}

theorem filmed_lasting {Q : List Screenshot → Nat → List ByteArray → Prop} {may : Verb → Prop}
    (taken : may .screenshot → ∀ {shots n film} png, Q shots n film →
      Q (shots ++ numbered setup.runName n [png]) (n + 1) (film ++ [png])) :
    setup.filmed.Lasting may fun m s => Q m.screenshots m.screenshotCount s.page.2 where
  note n holds := holds
  ask r plain m s holds := by
    have film : (final (Session.ask setup.page.filmed r s)).page.2 = s.page.2 := by
      rw [Session.film_ask setup.page, Request.picture_of_plain plain, List.append_nil]
    exact film.symm ▸ holds
  pause seconds m s holds := (Session.film_pause setup.page seconds s).symm ▸ holds
  elements _ _ holds := holds
  reading _ _ _ _ _ holds := holds
  screenshot allowed m s s' holds := by
    have film := Session.film_screenshot setup.page s
    constructor
    · intro png seen
      rw [show Session.screenshot setup.page.filmed s = .ok png s' from seen] at film
      exact film.symm ▸ taken allowed png holds
    · intro failure seen
      rw [show Session.screenshot setup.page.filmed s = .error failure s' from seen] at film
      exact film.symm ▸ holds
  leave _ _ _ holds := holds
  accept _ _ s holds := by rwa [Session.final_takeDialog]
  dismiss _ _ s holds := by rwa [Session.final_takeDialog]
  again _ _ _ holds := holds

theorem filmed_stays {Q : List Screenshot → Nat → List ByteArray → Prop} :
    Stays fun (m : Memory η) (s : Session (σ × List ByteArray) ν) =>
      Q m.screenshots m.screenshotCount s.page.2 where
  save _ _ holds := holds
  confine _ holds := holds
  arm _ holds := holds

/-- What a statement adds to the film it also adds to the screenshots that are not handed over. -/
theorem execute_filmed (setup : Setup σ η ν) {s : RunState (σ × List ByteArray) η ν}
    (drained : s.memory.screenshots = []) (counted : s.memory.screenshotCount = s.kept.length) (phase : Phase)
    (st : Statement) (upcoming : Option Answer) :
    let t := final (setup.filmed.execute phase st upcoming s)
    ∃ pngs, t.kept = s.kept ++ pngs ∧ t.memory.screenshots = numbered setup.runName s.kept.length pngs ∧
      t.memory.screenshotCount = t.kept.length := by
  -- In the midst of the statement: what the film has gained are the screenshots that are held.
  let Q (shots : List Screenshot) (n : Nat) (film : List ByteArray) : Prop :=
    ∃ pngs, film = s.kept ++ pngs ∧ shots = numbered setup.runName s.kept.length pngs ∧ n = film.length
  have taken {shots : List Screenshot} {n : Nat} {film : List ByteArray} (png : ByteArray)
      (holds : Q shots n film) : Q (shots ++ numbered setup.runName n [png]) (n + 1) (film ++ [png]) := by
    obtain ⟨pngs, rfl, rfl, rfl⟩ := holds
    refine ⟨pngs ++ [png], List.append_assoc _ _ _, ?_, by simp only [List.length_append, List.length_singleton]⟩
    rw [numbered_append, List.length_append]
  have lasting : setup.filmed.Lasting (fun _ => True) fun m s => Q m.screenshots m.screenshotCount s.page.2 :=
    filmed_lasting fun _ _ _ _ => taken
  exact lasting.execute filmed_stays phase st upcoming (fun _ _ => trivial)
    ⟨[], (List.append_nil _).symm, drained, counted⟩

/-- Anything but a screenshot leaves the film alone. -/
theorem unfilmed (setup : Setup σ η ν) (film : List ByteArray) :
    setup.filmed.Lasting (fun v => v ≠ .screenshot) fun (_ : Memory η) s => s.page.2 = film :=
  filmed_lasting (Q := fun _ _ kept => kept = film) fun allowed => absurd rfl allowed

theorem kept_paused (setup : Setup σ η ν) (s : RunState (σ × List ByteArray) η ν) :
    (setup.filmed.paused s).kept = s.kept := by
  unfold paused
  split
  · exact Session.film_pause setup.page setup.commandDelay s.session
  · rfl

/-- A command adds one picture to the film if it is a screenshot and succeeds, and none otherwise. -/
theorem perform_filmed (phase : Phase) (c : Command) (s : RunState (σ × List ByteArray) η ν) :
    ∃ pngs, (final (setup.filmed.perform phase c s)).kept = s.kept ++ pngs ∧
      pngs.length = if c.verb = .screenshot ∧ succeeded (setup.filmed.perform phase c s) then 1 else 0 := by
  by_cases seeing : c.verb = .screenshot
  · cases refused : setup.filmed.delayRefusal? with
    | some refusal =>
      rw [perform_of_refused refused]
      exact ⟨[], (List.append_nil _).symm, (if_neg fun given => nomatch given.2).symm⟩
    | none =>
      have film := Session.film_screenshot setup.page (setup.filmed.paused s).session
      rw [perform_of_made refused, act_screenshot seeing, ← kept_paused setup s]
      generalize setup.filmed.paused s = r at film
      change match Session.screenshot setup.filmed.page r.session with
        | .ok png t => t.page.2 = r.kept ++ [png]
        | .error _ t => t.page.2 = r.kept at film
      cases seen : Session.screenshot setup.filmed.page r.session with
      | ok png t =>
        rw [seen] at film
        exact ⟨[png], film, (if_pos ⟨seeing, rfl⟩).symm⟩
      | error stop t =>
        rw [seen] at film
        exact ⟨[], film.trans (List.append_nil _).symm, (if_neg fun given => nomatch given.2).symm⟩
  · have film := (setup.unfilmed s.kept).perform phase c seeing rfl
    exact ⟨[], film.trans (List.append_nil _).symm, (if_neg fun given => seeing given.1).symm⟩

/-- Between two statements all screenshots have been handed over; those of the visits make up the film. -/
structure Accounted (runName : String) (visits : List (Visit (σ × List ByteArray) η ν))
    (s : RunState (σ × List ByteArray) η ν) : Prop where
  drained : s.memory.screenshots = []
  counted : s.memory.screenshotCount = s.kept.length
  own : ∀ v ∈ visits, v.after.kept = v.before.kept ++ v.after.memory.screenshots.map (·.png)
  all : visits.flatMap (·.after.memory.screenshots) = numbered runName 0 s.kept

theorem Accounted.visited {visits : List (Visit (σ × List ByteArray) η ν)}
    {v : Visit (σ × List ByteArray) η ν} (accounted : Accounted setup.runName visits v.before)
    (done : v.Done setup.filmed.conduct) (noted : Option Notice) :
    Accounted setup.runName (visits ++ [v]) (Run.settled setup.filmed.conduct noted v.after) := by
  obtain ⟨pngs, film, shots, counted⟩ :=
    execute_filmed setup accounted.drained accounted.counted v.phase v.statement v.upcoming
  rw [done.final_eq] at film shots counted
  have same : (Run.settled setup.filmed.conduct noted v.after).kept = v.after.kept := by
    cases noted <;> rfl
  constructor
  · rfl
  · rw [same]
    exact counted
  · intro u among
    rcases List.mem_append.mp among with earlier | last
    · exact accounted.own u earlier
    · obtain rfl := List.mem_singleton.mp last
      rw [film, shots, map_png_numbered]
  · rw [List.flatMap_append, List.flatMap_singleton, accounted.all, shots, same, film, numbered_append,
      Nat.zero_add]

theorem upholds_accounted (setup : Setup σ η ν) (script : Script) :
    Run.Upholds setup.filmed.conduct script (Accounted setup.runName) where
  note _ accounted := ⟨accounted.drained, accounted.counted, accounted.own, accounted.all⟩
  forget accounted := ⟨accounted.drained, accounted.counted, accounted.own, accounted.all⟩
  visit noted accounted before _ done := by
    subst before
    exact accounted.visited done noted

/-- The film of a run shows just the screenshot commands that succeed, and filming and observing a run change
nothing else. In a run that returns, the screenshots of each visit are in its entry, with the pictures
that it added to the film, and all together they are the film, numbered from one. -/
theorem screenshots_filed (setup : Setup σ η ν) (script : Script) (row : Bindings) (startedAt : Moment)
    (session : Session σ ν) :
    (∀ phase c (s : RunState (σ × List ByteArray) η ν),
      ∃ pngs, (final (setup.filmed.perform phase c s)).kept = s.kept ++ pngs ∧
        pngs.length = if c.verb = .screenshot ∧ succeeded (setup.filmed.perform phase c s) then 1 else 0) ∧
    (∀ anchor (s : RunState (σ × List ByteArray) η ν),
      (final (setup.filmed.anchorElement anchor s)).kept = s.kept) ∧
    mapState RunState.inner (mapState RunState.inner
      (setup.filmed.observedRun script row startedAt (session.keeping []))) =
        setup.run script row startedAt session ∧
    ∀ record t, setup.filmed.observedRun script row startedAt (session.keeping []) = .ok record t →
      ∃ visits, t.kept = visits.flatMap Visit.sightings ∧
        Run.Filed setup.filmed.conduct script visits record.entries ∧
        (∀ v ∈ visits, v.after.kept = v.before.kept ++ v.entry.screenshots.map (·.png)) ∧
        record.entries.flatMap (·.screenshots) = numbered setup.runName 0 t.inner.kept := by
  refine ⟨perform_filmed, fun anchor s => (setup.unfilmed s.kept).anchorElement anchor rfl, ?_, ?_⟩
  · rw [setup.filmed.observedRun_mirrors]
    exact Run.run_extends (setup.conduct_extends setup.page.filmed_extends) script setup.runName startedAt _
  · intro record t returned
    obtain ⟨visits, seen, filed, accounted⟩ :=
      (upholds_accounted setup script).run rfl ⟨rfl, rfl, List.forall_mem_nil _, rfl⟩ returned
    exact ⟨visits, seen, filed, accounted.own, filed.screenshots.trans accounted.all⟩

/-- A page that gives away one picture, and nothing else. -/
def portrait : Setup Unit Unit Unit where
  locator :=
    { page :=
        { perform := fun r _ s =>
            match r with
            | .screenshot => ⟨.ok (ByteArray.mk #[137, 80]), [], s⟩
            | _ => ⟨.error "not here", [], s⟩
          sleep := fun _ _ s => ([], s)
          levels := fun _ => 0 } }
  uploadPath := fun path => .ok (path, false)

theorem perform_portrait : perform portrait.filmed = act portrait.filmed := by
  funext phase c
  unfold perform
  split
  · rfl
  · rfl

def twoScreenshots : Statement where
  form := .run [{ verb := .screenshot }, { verb := .screenshot }]
  line := 1

theorem execute_portrait (phase : Phase) (s : RunState (Unit × List ByteArray) Unit Unit) :
    ∃ t, execute portrait.filmed phase twoScreenshots none s = .ok () t := by
  simp only [execute, twoScreenshots, carryOut, performAll, perform_portrait]
  exact ⟨_, rfl⟩

theorem screenshots_filed_portrait :
    ∃ record t, portrait.filmed.observedRun (.ofStatements [twoScreenshots]) [] ⟨2024, 1, 2, 3, 4, 5, 0⟩
        (Session.keeping { page := () } []) = .ok record t ∧
      ∃ visits : List (Visit (Unit × List ByteArray) Unit Unit), t.kept = visits.flatMap Visit.sightings ∧
        (∀ v ∈ visits, v.after.kept = v.before.kept ++ v.entry.screenshots.map (·.png)) ∧
        record.entries.flatMap (·.screenshots) = numbered "run" 0 t.inner.kept := by
  have ran : ∃ record t, portrait.filmed.run (.ofStatements [twoScreenshots]) [] ⟨2024, 1, 2, 3, 4, 5, 0⟩
      (Session.keeping { page := () } []) = .ok record t := by
    let begun : RunState (Unit × List ByteArray) Unit Unit := { session := Session.keeping { page := () } [] }
    obtain ⟨u, done⟩ :=
      execute_portrait .running ((begun.noted (.runStarted "run" 1)).noted (.executing twoScreenshots))
    have one : (Script.ofStatements [twoScreenshots]).statements = [twoScreenshots] := rfl
    exact ⟨_, Run.run_of_one one rfl rfl done⟩
  obtain ⟨record, s', ran⟩ := ran
  obtain ⟨t, observed, -⟩ := observedRun_returns ran
  obtain ⟨visits, seen, -, own, all⟩ := (screenshots_filed portrait (.ofStatements [twoScreenshots]) []
    ⟨2024, 1, 2, 3, 4, 5, 0⟩ { page := () }).2.2.2 record t observed
  exact ⟨record, t, observed, visits, seen, own, all⟩

end Setup
end Walkthrough
