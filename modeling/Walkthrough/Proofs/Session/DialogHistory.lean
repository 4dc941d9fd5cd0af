import Walkthrough.Proofs.Session.Extended

/-!
What the history of a session says about its dialogs. A history lists the dialogs that opened, the calls
that bear on them and the alert commands, the newest first. By the history alone, a dialog waits for an
alert command if it was answered in the statement at hand or the one before, after the last navigation,
and no alert command has taken it (`waiting`). Whatever a session does, the dialogs it holds are those
that wait (`Operation.reflects_run`).
-/
namespace Walkthrough

variable {σ η ν : Type}

namespace Dialogs

inductive Event where
  /-- A dialog opened; if it could not be answered, there is a reason. -/
  | opened (message : String) (refusal : Option String)
  | prepared (armed : Option Answer)
  | navigated
  | finished
  | alerted (wanted : Answer)
  deriving DecidableEq

/-- A dialog that was answered. Its number is that of the events before it. -/
structure Opening where
  number : Nat
  message : String
  answer : Answer
  statement : Nat
  navigations : Nat
  deriving DecidableEq

def Opening.dialog (o : Opening) : AnsweredDialog := ⟨o.message, o.answer, o.statement⟩

/-- What the dialogs were prepared for last. -/
def prepared : List Event → Option Answer
  | [] => none
  | .prepared armed :: _ => armed
  | _ :: earlier => prepared earlier

variable (standing : Answer)

/-- A dialog that opens after these events. -/
def opening (earlier : List Event) (message : String) : Opening where
  number := earlier.length
  message := message
  answer := (prepared earlier).getD standing
  statement := earlier.count .finished
  navigations := earlier.count .navigated

/-- The dialogs that were answered, the oldest first. -/
def openings : List Event → List Opening
  | [] => []
  | .opened message none :: earlier => openings earlier ++ [opening standing earlier message]
  | _ :: earlier => openings earlier

/-- Opened in the statement at hand or the one before it, and after the last navigation. -/
def Recent (history : List Event) (o : Opening) : Prop :=
  history.count .finished ≤ o.statement + 1 ∧ history.count .navigated = o.navigations

instance (history : List Event) (o : Opening) : Decidable (Recent history o) := by
  unfold Recent
  infer_instance

/-- The dialogs that alert commands took: each took the oldest one that nobody had taken. -/
def taken : List Event → List Opening
  | [] => []
  | .alerted _ :: earlier =>
    taken earlier ++
      ((openings standing earlier).filter fun o => Recent earlier o ∧ o ∉ taken earlier).head?.toList
  | _ :: earlier => taken earlier

def waiting (history : List Event) : List Opening :=
  (openings standing history).filter fun o => Recent history o ∧ o ∉ taken standing history

variable {standing} {history : List Event}

theorem openings_before {o : Opening} (opening : o ∈ openings standing history) :
    o.number < history.length ∧ o.navigations ≤ history.count .navigated := by
  induction history with
  | nil => cases opening
  | cons event earlier ih =>
    have grows : earlier.count .navigated ≤ (event :: earlier).count .navigated := List.count_le_count_cons
    -- Only a dialog that was answered is new; after any other event the openings are the earlier ones.
    have inherited (among : o ∈ openings standing earlier) :
        o.number < (event :: earlier).length ∧ o.navigations ≤ (event :: earlier).count .navigated :=
      ⟨Nat.lt_succ_of_lt (ih among).1, Nat.le_trans (ih among).2 grows⟩
    cases event with
    | opened message refusal =>
      cases refusal with
      | some reason => exact inherited opening
      | none =>
        rcases List.mem_append.mp opening with among | last
        · exact inherited among
        · obtain rfl := List.mem_singleton.mp last
          exact ⟨Nat.lt_succ_self _, grows⟩
    | _ => exact inherited opening

theorem openings_nodup (history : List Event) : (openings standing history).Nodup := by
  induction history with
  | nil => exact List.nodup_nil
  | cons event earlier ih =>
    cases event with
    | opened message refusal =>
      cases refusal with
      | some reason => exact ih
      | none =>
        refine List.nodup_append.mpr ⟨ih, List.pairwise_singleton _ _, ?_⟩
        -- The new opening has a number that none before it can have.
        intro o among p last same
        obtain rfl := List.mem_singleton.mp last
        have before := (openings_before among).1
        rw [same] at before
        exact Nat.lt_irrefl _ before
    | _ => exact ih

theorem taken_subset {o : Opening} (gone : o ∈ taken standing history) : o ∈ openings standing history := by
  induction history with
  | nil => cases gone
  | cons event earlier ih =>
    cases event with
    | alerted wanted =>
      rcases List.mem_append.mp gone with before | now
      · exact ih before
      · exact (List.mem_filter.mp (List.mem_of_mem_head? (Option.mem_toList.mp now))).1
    | opened message refusal =>
      cases refusal with
      | some reason => exact ih gone
      | none => exact List.mem_append_left _ (ih gone)
    | _ => exact ih gone

theorem recent_cons {event : Event} (unfinished : event ≠ .finished) (staying : event ≠ .navigated)
    {o : Opening} : Recent (event :: history) o ↔ Recent history o := by
  unfold Recent
  rw [List.count_cons_of_ne unfinished, List.count_cons_of_ne staying]

/-- An event that opens nothing, takes nothing and ends nothing. -/
theorem waiting_idle {event : Event} (silent : openings standing (event :: history) = openings standing history)
    (content : taken standing (event :: history) = taken standing history) (unfinished : event ≠ .finished)
    (staying : event ≠ .navigated) : waiting standing (event :: history) = waiting standing history := by
  unfold waiting
  rw [silent, content]
  refine List.filter_congr fun o _ => ?_
  rw [decide_eq_decide, recent_cons unfinished staying]

theorem waiting_opened (message : String) :
    waiting standing (.opened message none :: history) =
      waiting standing history ++ [opening standing history message] := by
  have old : (openings standing history).filter (fun o => Recent (.opened message none :: history) o ∧
      o ∉ taken standing (.opened message none :: history)) = waiting standing history := by
    refine List.filter_congr fun o _ => ?_
    rw [decide_eq_decide, recent_cons (by simp) (by simp)]
    rfl
  have untaken : opening standing history message ∉ taken standing (.opened message none :: history) := by
    intro gone
    have gone : opening standing history message ∈ taken standing history := gone
    exact Nat.lt_irrefl _ (openings_before (taken_subset gone)).1
  have recent : Recent (.opened message none :: history) (opening standing history message) :=
    (recent_cons (by simp) (by simp)).mpr ⟨Nat.le_succ _, rfl⟩
  have new : [opening standing history message].filter (fun o => Recent (.opened message none :: history) o ∧
      o ∉ taken standing (.opened message none :: history)) = [opening standing history message] :=
    List.filter_cons_of_pos (decide_eq_true ⟨recent, untaken⟩)
  rw [waiting, openings, List.filter_append, old, new]

theorem waiting_navigated : waiting standing (.navigated :: history) = [] := by
  refine List.filter_eq_nil_iff.mpr fun o opening => ?_
  have opening : o ∈ openings standing history := opening
  have before := (openings_before opening).2
  simp only [Recent, List.count_cons_self, decide_eq_true_eq]
  omega

theorem waiting_finished :
    waiting standing (.finished :: history) =
      (waiting standing history).filter fun o => history.count .finished ≤ o.statement := by
  unfold waiting
  rw [List.filter_filter]
  refine List.filter_congr fun o _ => ?_
  have recent : Recent (.finished :: history) o ↔ history.count .finished ≤ o.statement ∧ Recent history o := by
    simp only [Recent, List.count_cons_self, List.count_cons_of_ne (show Event.finished ≠ .navigated by simp)]
    omega
  have same : o ∈ taken standing (.finished :: history) ↔ o ∈ taken standing history := Iff.rfl
  rw [← Bool.decide_and, decide_eq_decide, recent, same, and_assoc]

theorem waiting_alerted (wanted : Answer) :
    waiting standing (.alerted wanted :: history) = (waiting standing history).tail := by
  have gone : taken standing (.alerted wanted :: history) =
      taken standing history ++ (waiting standing history).head?.toList := rfl
  have left : waiting standing (.alerted wanted :: history) =
      (waiting standing history).filter fun o => o ∉ (waiting standing history).head?.toList := by
    generalize (waiting standing history).head?.toList = first at gone
    unfold waiting
    rw [List.filter_filter]
    refine List.filter_congr fun o _ => ?_
    rw [← Bool.decide_and, decide_eq_decide, recent_cons (by simp) (by simp), gone, List.mem_append, not_or]
    exact ⟨fun given => ⟨given.2.2, given.1, given.2.1⟩, fun given => ⟨given.2.1, given.2.2, given.1⟩⟩
  -- Leaving out the oldest one is leaving out the first place, since no opening is listed twice.
  have distinct : (waiting standing history).Nodup := (openings_nodup history).filter _
  rw [left]
  generalize waiting standing history = all at distinct
  cases all with
  | nil => rfl
  | cons oldest later =>
    have others : ∀ o ∈ later, o ∉ [oldest] := by
      intro o among same
      obtain rfl := List.mem_singleton.mp same
      exact (List.nodup_cons.mp distinct).1 among
    have all : later.filter (fun o => o ∉ [oldest]) = later :=
      List.filter_eq_self.mpr fun o among => decide_eq_true (others o among)
    have passed : (oldest :: later).filter (fun o => o ∉ [oldest]) = later.filter fun o => o ∉ [oldest] :=
      List.filter_cons_of_neg (by simp)
    exact passed.trans all

theorem take_dialogs (d : Dialogs) (wanted : Answer) :
    (d.take wanted).2 = { d with pending := d.pending.tail } := by
  obtain ⟨standing, armed, pending, statement⟩ := d
  cases pending with
  | nil => rfl
  | cons oldest later =>
    simp only [take]
    split <;> rfl

theorem take_result (d : Dialogs) (wanted : Answer) :
    (d.take wanted).1 = .ok () ↔ ∃ oldest later, d.pending = oldest :: later ∧ oldest.answer = wanted := by
  obtain ⟨standing, armed, pending, statement⟩ := d
  cases pending with
  | nil => simp [take]
  | cons oldest later => simp [take, apply_ite Prod.fst]

/-- The dialogs are what the history makes of them. -/
structure Reflects (standing : Answer) (history : List Event) (d : Dialogs) : Prop where
  stands : d.standing = standing
  armed : d.armed = prepared history
  statement : d.statement = history.count .finished
  pending : d.pending = (waiting standing history).map Opening.dialog

namespace Reflects

variable {d : Dialogs} (reflects : Reflects standing history d)
include reflects

theorem opened (message : String) : Reflects standing (.opened message none :: history) (d.opened message) where
  stands := reflects.stands
  armed := reflects.armed
  statement := reflects.statement.trans (List.count_cons_of_ne (by simp)).symm
  pending := by
    have last : (⟨message, d.answer, d.statement⟩ : AnsweredDialog) =
        (opening standing history message).dialog := by
      rw [answer, reflects.armed, reflects.stands, reflects.statement]
      rfl
    rw [waiting_opened, List.map_append, ← reflects.pending, Dialogs.opened, last]
    rfl

theorem refused (message reason : String) : Reflects standing (.opened message (some reason) :: history) d where
  stands := reflects.stands
  armed := reflects.armed
  statement := reflects.statement.trans (List.count_cons_of_ne (by simp)).symm
  pending := by rw [waiting_idle rfl rfl (by simp) (by simp), reflects.pending]

theorem prepared (armed : Option Answer) : Reflects standing (.prepared armed :: history) (d.prepare armed) where
  stands := reflects.stands
  armed := rfl
  statement := reflects.statement.trans (List.count_cons_of_ne (by simp)).symm
  pending := by
    rw [waiting_idle rfl rfl (by simp) (by simp), ← reflects.pending]
    rfl

theorem navigated : Reflects standing (.navigated :: history) d.dropAll where
  stands := reflects.stands
  armed := reflects.armed
  statement := reflects.statement.trans (List.count_cons_of_ne (by simp)).symm
  pending := by
    rw [waiting_navigated]
    rfl

theorem finished : Reflects standing (.finished :: history) d.finishStatement where
  stands := reflects.stands
  armed := reflects.armed
  statement := by
    rw [List.count_cons_self, ← reflects.statement]
    rfl
  pending := by
    rw [waiting_finished, finishStatement, reflects.pending, reflects.statement, List.filter_map]
    rfl

theorem alerted (wanted : Answer) : Reflects standing (.alerted wanted :: history) (d.take wanted).2 := by
  rw [take_dialogs]
  refine ⟨reflects.stands, reflects.armed, ?_, ?_⟩
  · exact reflects.statement.trans (List.count_cons_of_ne (by simp)).symm
  · rw [waiting_alerted, List.map_tail, ← reflects.pending]

/-- An alert command succeeds if the oldest dialog that waits got the answer it wants. -/
theorem take_eq_ok (wanted : Answer) :
    (d.take wanted).1 = .ok () ↔
      ∃ oldest later, waiting standing history = oldest :: later ∧ oldest.answer = wanted := by
  rw [take_result, reflects.pending]
  cases waiting standing history with
  | nil => simp
  | cons oldest later => simp [Opening.dialog]

end Reflects

/-- The history with what happened after it. -/
def told (happenings : List (Happening ν)) (history : List Event) : List Event :=
  happenings.foldl
    (fun history happening =>
      match happening with
      | .note _ => history
      | .dialog message refusal => .opened message refusal :: history)
    history

end Dialogs

open Walkthrough.Action Dialogs Session

theorem Session.reflects_absorbAll {standing : Answer} (happenings : List (Happening ν)) {history : List Event}
    {s : Session σ ν} (reflects : Reflects standing history s.dialogs) :
    Reflects standing (told happenings history) (s.absorbAll happenings).dialogs := by
  induction happenings generalizing history s with
  | nil => exact reflects
  | cons happening later ih =>
    cases happening with
    | note n => exact ih (s := s.absorb (.note n)) reflects
    | dialog message refusal =>
      cases refusal with
      | none => exact ih (s := s.absorb (.dialog message none)) (reflects.opened message)
      | some reason => exact ih (s := s.absorb (.dialog message (some reason))) (reflects.refused message reason)

/-- What a client can do with its session. Something may also happen of its own accord. -/
inductive Operation (η ν : Type) : Type 1 where
  | happen (happening : Happening ν)
  | ask {α : Type} (r : Request η α)
  | pause (seconds : Float)
  | navigate (url : String)
  | prepare (armed : Option Answer)
  | finish
  | alert (wanted : Answer)

namespace Operation

variable (page : Page σ η ν)

/-- What an operation makes of a session, and of the history of its dialogs. -/
def step (past : Session σ ν × List Event) : Operation η ν → Session σ ν × List Event
  | happen happening => (past.1.absorb happening, told [happening] past.2)
  | ask r =>
    (final (Session.ask page r past.1),
      told (page.perform r past.1.dialogs.answer past.1.page).happenings past.2)
  | pause seconds =>
    (final (Session.pause page seconds past.1),
      told (during page seconds past.1) past.2)
  | navigate url =>
    (final (Session.navigate page url past.1),
      told (page.perform (.goto url) past.1.dialogs.answer past.1.page).happenings (.navigated :: past.2))
  | prepare armed => (final (prepareDialog armed past.1), .prepared armed :: past.2)
  | finish => (finishStatement past.1, .finished :: past.2)
  | alert wanted => (final (takeDialog wanted past.1), .alerted wanted :: past.2)

def run (operations : List (Operation η ν)) (s : Session σ ν) : Session σ ν × List Event :=
  operations.foldl (step page) (s, [])

variable {page} {standing : Answer}

theorem reflects_step (operation : Operation η ν) {past : Session σ ν × List Event}
    (reflects : Reflects standing past.2 past.1.dialogs) :
    Reflects standing (step page past operation).2 (step page past operation).1.dialogs := by
  obtain ⟨s, history⟩ := past
  cases operation with
  | happen happening => exact reflects_absorbAll [happening] reflects
  | ask r =>
    exact reflects_absorbAll (s := { s with page := (page.perform r s.dialogs.answer s.page).state }) _ reflects
  | pause seconds =>
    simp only [step, final_pause]
    exact reflects_absorbAll (s := { s with page := rested page seconds s }) _ reflects
  | navigate url =>
    have left : final (Session.navigate page url s) =
        final (Session.ask page (.goto url) { s with dialogs := s.dialogs.dropAll }) :=
      final_demand page .navigate (.goto url) { s with dialogs := s.dialogs.dropAll }
    simp only [step, left]
    exact reflects_absorbAll (s := { s with
      page := (page.perform (.goto url) s.dialogs.answer s.page).state, dialogs := s.dialogs.dropAll }) _
      reflects.navigated
  | prepare armed => exact reflects.prepared armed
  | finish => exact reflects.finished
  | alert wanted =>
    simp only [step, final_takeDialog]
    exact reflects.alerted wanted

theorem reflects_run (page : Page σ η ν) (standing : Answer) (operations : List (Operation η ν)) (state : σ)
    (journal : Array (Entry ν)) :
    Reflects standing (run page operations { page := state, dialogs := { standing }, journal }).2
      (run page operations { page := state, dialogs := { standing }, journal }).1.dialogs := by
  have fresh : Reflects standing [] { standing } := ⟨rfl, rfl, rfl, rfl⟩
  -- The induction is on the operations still to come, from any past that the dialogs reflect.
  have along : ∀ past : Session σ ν × List Event, Reflects standing past.2 past.1.dialogs →
      Reflects standing (operations.foldl (step page) past).2 (operations.foldl (step page) past).1.dialogs := by
    induction operations with
    | nil => exact fun past reflects => reflects
    | cons operation later ih => exact fun past reflects => ih _ (reflects_step operation reflects)
  exact along _ fresh

end Operation
end Walkthrough
