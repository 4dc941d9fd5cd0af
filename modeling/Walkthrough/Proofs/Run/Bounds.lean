import Walkthrough.Proofs.Run.Jumps
import Walkthrough.Proofs.Run.Trace

/-!
Bounds on a run. The places at which a run carries out statements, in order, form a sublist of a fixed
list, the quota: each region twice, with its handler in between. This holds for any conduct that never
faults, whichever statements fail and however often handlers ask for another try. So a run returns
after at most twice as many turns as the script has statements.
-/
namespace Walkthrough

open Walkthrough.Action

variable {σ η ν α β : Type}

def Call.place? : Call → Option Nat
  | .execute place _ _ _ => some place
  | .finish => none

/-- The places at which statements were carried out, in order. -/
def places (calls : List Call) : List Nat := calls.filterMap Call.place?

/-- Every statement goes through or fails. -/
def Conduct.Faultless (conduct : Conduct σ η ν) : Prop :=
  ∀ (place : Nat) (phase : Phase) (statement : Statement) (upcoming : Option Answer)
    (s t : RunState σ η ν) (fault : Fault),
    conduct.execute place phase statement upcoming s ≠ .error (.fault fault) t

/-- The action returns, and its result and the places visited meanwhile are as stated. -/
def Ensures (x : LoopM (σ × List Call) η ν α) (P : α → List Nat → Prop) : Prop :=
  ∀ s, ∃ a t visited, x s = .ok a t ∧ places t.calls = places s.calls ++ visited ∧ P a visited

theorem ensures_pure {a : α} {P : α → List Nat → Prop} (holds : P a []) :
    Ensures (pure a : LoopM (σ × List Call) η ν α) P :=
  fun s => ⟨a, s, [], rfl, (List.append_nil _).symm, holds⟩

theorem ensures_bind {x : LoopM (σ × List Call) η ν α} {f : α → LoopM (σ × List Call) η ν β}
    {P : α → List Nat → Prop} {Q : β → List Nat → Prop} (first : Ensures x P)
    (next : ∀ a visited, P a visited → Ensures (f a) fun b later => Q b (visited ++ later)) :
    Ensures (x >>= f) Q := by
  intro s
  obtain ⟨a, t, visited, done, before, holds⟩ := first s
  obtain ⟨b, u, later, done', after, holds'⟩ := next a visited holds t
  refine ⟨b, u, visited ++ later, bind_eq_ok.mpr ⟨a, t, done, done'⟩, ?_, holds'⟩
  rw [after, before, List.append_assoc]

theorem ensures_mono {x : LoopM (σ × List Call) η ν α} {P Q : α → List Nat → Prop} (first : Ensures x P)
    (weaker : ∀ a visited, P a visited → Q a visited) : Ensures x Q := by
  intro s
  obtain ⟨a, t, visited, done, before, holds⟩ := first s
  exact ⟨a, t, visited, done, before, weaker a visited holds⟩

theorem ensures_silent {x : LoopM (σ × List Call) η ν α}
    (silent : ∀ s, ∃ a t, x s = .ok a t ∧ places t.calls = places s.calls) :
    Ensures x fun _ visited => visited = [] := by
  intro s
  obtain ⟨a, t, done, same⟩ := silent s
  exact ⟨a, t, [], done, by rw [same, List.append_nil], rfl⟩

namespace Run

variable {conduct : Conduct σ η ν} {script : Script}

theorem ensures_note (n : Notice) :
    Ensures (note n : LoopM (σ × List Call) η ν Unit) fun _ visited => visited = [] :=
  ensures_silent fun _ => ⟨(), _, rfl, rfl⟩

theorem ensures_takeRetryRequest :
    Ensures (takeRetryRequest : LoopM (σ × List Call) η ν Bool) fun _ visited => visited = [] :=
  ensures_silent fun _ => ⟨_, _, rfl, rfl⟩

theorem ensures_finish : Ensures (finish conduct.watched) fun _ visited => visited = [] := by
  refine ensures_silent fun s => ⟨(), _, rfl, ?_⟩
  change places (s.calls ++ [.finish]) = places s.calls
  simp [places, Call.place?]

theorem ensures_write (entries : Array RecordEntry) (statement : Statement) (failure : Option Failure) :
    Ensures (write entries statement failure : LoopM (σ × List Call) η ν (Array RecordEntry))
      fun written visited => visited = [] ∧ written.size = entries.size + 1 :=
  fun _ => ⟨_, _, [], rfl, (List.append_nil _).symm, rfl, Array.size_push _⟩

theorem ensures_execute (faultless : conduct.Faultless) (place : Nat) (phase : Phase) (statement : Statement)
    (upcoming : Option Answer) :
    Ensures (failureOf (conduct.watched.execute place phase statement upcoming))
      fun _ visited => visited = [place] := by
  intro s
  have visits (t : RunState σ η ν) :
      places (t.watched (s.calls ++ [.execute place phase statement upcoming])).calls =
        places s.calls ++ [place] := by
    change places (s.calls ++ [.execute place phase statement upcoming]) = _
    simp [places, Call.place?]
  cases result : conduct.execute place phase statement upcoming s.bare with
  | ok _ t =>
    refine ⟨none, _, [place], ?_, visits t, rfl⟩
    simp only [failureOf, Conduct.watched, result]
  | error stop t =>
    cases stop with
    | failure failure =>
      refine ⟨some failure, _, [place], ?_, visits t, rfl⟩
      simp only [failureOf, Conduct.watched, result]
    | fault fault => exact absurd result (faultless _ _ _ _ _ _ _)

theorem ensures_readBody (faultless : conduct.Faultless) (rest : List Statement) (place : Nat)
    (body : List Statement) (entries : Array RecordEntry) :
    Ensures (readBody conduct.watched rest place body entries) fun result visited =>
      visited.Sublist (List.range' place body.length) ∧ result.1.size ≤ entries.size + body.length := by
  induction body generalizing place entries with
  | nil => exact ensures_pure ⟨List.Sublist.refl _, Nat.le_refl _⟩
  | cons s later ih =>
    unfold readBody
    rw [List.length_cons, List.range'_succ]
    cases comment : s.isComment with
    | true =>
      simp only [if_true]
      refine ensures_mono (ih (place + 1) _) fun result visited holds => ?_
      obtain ⟨within, size⟩ := holds
      rw [passed, Array.size_push] at size
      exact ⟨within.cons _, by omega⟩
    | false =>
      simp only [Bool.false_eq_true, if_false]
      refine ensures_bind (ensures_note _) fun _ _ quiet => ?_
      refine ensures_bind (ensures_execute faultless _ _ _ _) fun failed _ visit => ?_
      subst quiet visit
      cases failed with
      | none =>
        refine ensures_bind (ensures_write _ _ _) fun written _ holds => ?_
        obtain ⟨quiet, size⟩ := holds
        refine ensures_bind ensures_finish fun _ _ quiet' => ?_
        subst quiet quiet'
        refine ensures_mono (ih (place + 1) _) fun result visited holds => ?_
        obtain ⟨within, bound⟩ := holds
        exact ⟨within.cons_cons _, by omega⟩
      | some failure =>
        refine ensures_bind (ensures_note _) fun _ _ quiet'' => ?_
        refine ensures_bind (ensures_write _ _ _) fun written _ holds => ?_
        obtain ⟨quiet, size⟩ := holds
        refine ensures_bind ensures_finish fun _ _ quiet' => ?_
        subst quiet quiet' quiet''
        exact ensures_pure ⟨(List.nil_sublist _).cons_cons _, by change written.size ≤ _; omega⟩

theorem ensures_readHandler (faultless : conduct.Faultless) (place : Nat) (handler : Statement)
    (entries : Array RecordEntry) :
    Ensures (readHandler conduct.watched asRequested place handler entries) fun result visited =>
      visited = [place] ∧ result.1.size = entries.size + 1 := by
  refine ensures_bind ensures_takeRetryRequest fun _ _ quiet => ensures_bind (ensures_note _) fun _ _ quiet' => ?_
  refine ensures_bind (ensures_execute faultless _ _ _ _) fun failed _ visit => ?_
  subst quiet quiet' visit
  cases failed with
  | some failure =>
    refine ensures_bind (ensures_note _) fun _ _ quiet => ?_
    refine ensures_bind (ensures_write _ _ _) fun written _ holds => ?_
    obtain ⟨quiet', size⟩ := holds
    refine ensures_bind ensures_finish fun _ _ quiet'' => ?_
    subst quiet quiet' quiet''
    exact ensures_pure ⟨rfl, size⟩
  | none =>
    refine ensures_bind ensures_finish fun _ _ quiet => ?_
    refine ensures_bind (ensures_write _ _ _) fun written _ holds => ?_
    obtain ⟨quiet', size⟩ := holds
    refine ensures_bind ensures_takeRetryRequest fun again _ quiet'' => ?_
    subst quiet quiet' quiet''
    cases again <;> exact ensures_pure ⟨rfl, size⟩

/-- The most that can be carried out of regions that begin at `place`. -/
def quota : (place : Nat) → Regions → List Nat
  | place, .last body => List.range' place body.length
  | place, .guarded body _ later =>
    let once := List.range' place body.length
    once ++ (place + body.length) :: once ++ quota (place + body.length + 1) later

theorem ensures_read (faultless : conduct.Faultless) (r : Regions) (place : Nat)
    (entries : Array RecordEntry) :
    Ensures (read conduct.watched asRequested place r entries) fun result visited =>
      visited.Sublist (quota place r) ∧ result.1.size ≤ entries.size + 2 * r.statements.length := by
  induction r generalizing place entries with
  | last body =>
    refine ensures_bind (ensures_readBody faultless _ _ _ _) fun result visited holds => ?_
    obtain ⟨written, through⟩ := result
    obtain ⟨within, size⟩ := holds
    refine ensures_pure ⟨by rwa [List.append_nil], ?_⟩
    change written.size ≤ entries.size + 2 * body.length
    change written.size ≤ entries.size + body.length at size
    omega
  | guarded body handler later ih =>
    have length : (Regions.guarded body handler later).statements.length =
        body.length + (later.statements.length + 1) := by
      rw [Regions.statements, List.length_append, List.length_cons]
    rw [quota, length]
    refine ensures_bind (ensures_readBody faultless _ _ _ _) fun result visited holds => ?_
    obtain ⟨written, through⟩ := result
    obtain ⟨within, size⟩ := holds
    change written.size ≤ entries.size + body.length at size
    cases through with
    | true =>
      refine ensures_mono (ih _ _) fun result beyond holds => ?_
      obtain ⟨later_within, later_size⟩ := holds
      rw [passed, Array.size_push] at later_size
      refine ⟨?_, by omega⟩
      rw [List.append_assoc]
      refine within.append (List.Sublist.cons _ ?_)
      exact later_within.trans (List.sublist_append_right _ _)
    | false =>
      refine ensures_bind (ensures_readHandler faultless _ _ _) fun result _ holds => ?_
      obtain ⟨written', handled⟩ := result
      obtain ⟨visit, size'⟩ := holds
      change written'.size = written.size + 1 at size'
      subst visit
      cases handled with
      | failed =>
        refine ensures_pure ⟨?_, by change written'.size ≤ _; omega⟩
        rw [List.append_assoc]
        exact within.append ((List.nil_sublist _).cons_cons _)
      | done =>
        refine ensures_mono (ih _ _) fun result beyond holds => ?_
        obtain ⟨later_within, later_size⟩ := holds
        refine ⟨?_, by omega⟩
        rw [List.append_assoc]
        exact within.append ((later_within.trans (List.sublist_append_right _ _)).cons_cons _)
      | again =>
        refine ensures_bind (ensures_note _) fun _ _ quiet => ?_
        refine ensures_bind (ensures_readBody faultless _ _ _ _) fun result second holds => ?_
        obtain ⟨third, through⟩ := result
        obtain ⟨within', size''⟩ := holds
        change third.size ≤ written'.size + body.length at size''
        subst quiet
        cases through with
        | true =>
          refine ensures_mono (ih _ _) fun result beyond holds => ?_
          obtain ⟨later_within, later_size⟩ := holds
          rw [passed, Array.size_push] at later_size
          refine ⟨?_, by omega⟩
          rw [List.append_assoc]
          exact within.append ((within'.append later_within).cons_cons _)
        | false =>
          refine ensures_bind (ensures_note _) fun _ _ quiet => ?_
          subst quiet
          refine ensures_pure ⟨?_, by change third.size ≤ _; omega⟩
          rw [List.append_assoc]
          exact within.append ((within'.append (List.nil_sublist _)).cons_cons _)

theorem count_range' (place length i : Nat) :
    (List.range' place length).count i = if place ≤ i ∧ i < place + length then 1 else 0 := by
  have distinct : (List.range' place length).Nodup := List.nodup_range'
  rw [distinct.count]
  simp only [List.mem_range'_1]

theorem place_le_of_mem_quota {r : Regions} {place i : Nat} (member : i ∈ quota place r) : place ≤ i := by
  induction r generalizing place with
  | last body => exact (List.mem_range'_1.mp member).1
  | guarded body handler later ih =>
    simp only [quota, List.mem_append, List.mem_cons, List.mem_range'_1] at member
    rcases member with (first | here | second) | beyond
    · exact first.1
    · omega
    · exact second.1
    · have := ih beyond
      omega

theorem count_quota {r : Regions} (cut : r.Cut) {place i : Nat} {s : Statement}
    (found : r.statements[i]? = some s) :
    (quota place r).count (place + i) ≤ if s.isHandler then 1 else 2 := by
  induction r generalizing place i with
  | last body =>
    rw [quota, count_range', cut s (List.mem_of_getElem? found)]
    split <;> simp
  | guarded body handler later ih =>
    obtain ⟨plain, handling, cut⟩ := cut
    have first := count_range' place body.length (place + i)
    simp only [quota, List.count_append, List.count_cons, first]
    rcases Nat.lt_trichotomy i body.length with inside | last | beyond
    · rw [Regions.statements, List.getElem?_append_left inside] at found
      have outside : place + i ∉ quota (place + body.length + 1) later := by
        intro member
        have := place_le_of_mem_quota member
        omega
      rw [plain s (List.mem_of_getElem? found), List.count_eq_zero_of_not_mem outside]
      simp [inside, Nat.ne_of_gt inside]
    · subst last
      rw [Regions.statements, List.getElem?_append_right (Nat.le_refl _), Nat.sub_self] at found
      cases found
      have outside : place + body.length ∉ quota (place + body.length + 1) later := by
        intro member
        have := place_le_of_mem_quota member
        omega
      rw [handling, List.count_eq_zero_of_not_mem outside]
      simp
    · rw [Regions.statements, List.getElem?_append_right (by omega),
        show i - body.length = i - body.length - 1 + 1 by omega, List.getElem?_cons_succ] at found
      have further : (quota (place + body.length + 1) later).count
          (place + body.length + 1 + (i - body.length - 1)) ≤ if s.isHandler then 1 else 2 := ih cut found
      rw [show place + body.length + 1 + (i - body.length - 1) = place + i by omega] at further
      have apart : (place + body.length == place + i) = false := by simpa using Nat.ne_of_lt beyond
      rw [if_neg (by omega), apart]
      simpa using further

theorem ensures_loop (faultless : conduct.Faultless) (script : Script) :
    Ensures (loop conduct.watched script {}) fun t visited =>
      visited.Sublist (quota 0 (Regions.ofStatements script.statements)) ∧
        t.entries.size ≤ 2 * script.length := by
  intro s
  have jumped : outcome <$> loop conduct.watched script {} =
      read conduct.watched asRequested 0 (Regions.ofStatements script.statements) #[] :=
    loop_eq_read _ 0 #[] (Regions.cut_ofStatements _) (Regions.statements_ofStatements _).symm (Or.inl rfl)
  obtain ⟨result, u, visited, done, before, within, size⟩ :=
    ensures_read faultless (Regions.ofStatements script.statements) 0 #[] s
  rw [← jumped, map_eq_pure_bind] at done
  obtain ⟨t, u, looped, ended⟩ := bind_eq_ok.mp done
  obtain ⟨rfl, rfl⟩ := pure_eq_ok.mp ended
  rw [Regions.statements_ofStatements] at size
  refine ⟨t, u, visited, looped, before, within, ?_⟩
  simpa [outcome, Script.length] using size

theorem ensures_run (faultless : conduct.Faultless) (script : Script) (name : String) (startedAt : Moment) :
    Ensures (run conduct.watched script name startedAt) fun record visited =>
      visited.Sublist (quota 0 (Regions.ofStatements script.statements)) ∧
        record.entries.length ≤ 2 * script.length := by
  refine ensures_bind (ensures_note _) fun _ _ quiet => ?_
  refine ensures_bind (ensures_loop faultless script) fun t visited holds => ?_
  obtain ⟨within, size⟩ := holds
  subst quiet
  have written : t.entries.toList.length ≤ 2 * script.length := by rwa [Array.length_toList]
  cases halted : t.phase == .halted with
  | true =>
    refine ensures_bind (ensures_note _) fun _ _ quiet => ensures_pure ⟨?_, written⟩
    simpa [quiet] using within
  | false =>
    refine ensures_bind (ensures_note _) fun _ _ quiet => ensures_pure ⟨?_, written⟩
    simpa [quiet] using within

/-- So many turns, or fewer if the run is over before. -/
def turns (conduct : Conduct σ η ν) (script : Script) : Nat → Turn → LoopM σ η ν Turn
  | 0, t => pure t
  | n + 1, t => if t.isOver script then pure t else step conduct script t >>= turns conduct script n

/-- Going on after so many turns is going on from the beginning. -/
theorem loop_eq_turns (conduct : Conduct σ η ν) (script : Script) (n : Nat) (t : Turn) :
    loop conduct script t = turns conduct script n t >>= loop conduct script := by
  induction n generalizing t with
  | zero => rfl
  | succ n ih =>
    unfold turns
    cases ended : t.isOver script with
    | true => rfl
    | false =>
      rw [loop_of_not_over ended, if_neg Bool.false_ne_true, bind_assoc]
      exact congrArg (step conduct script t >>= ·) (funext ih)

/-- Wherever the action returns, the record has at least `n` entries. -/
def Grows (n : Nat) (x : LoopM σ η ν Turn) : Prop :=
  ∀ (s t : RunState σ η ν) (u : Turn), x s = .ok u t → n ≤ u.entries.size

theorem grows_pure {n : Nat} {u : Turn} (size : n ≤ u.entries.size) :
    Grows n (pure u : LoopM σ η ν Turn) := by
  intro s t v done
  obtain ⟨rfl, -⟩ := pure_eq_ok.mp done
  exact size

theorem grows_bind {n : Nat} {x : LoopM σ η ν α} {f : α → LoopM σ η ν Turn} (next : ∀ a, Grows n (f a)) :
    Grows n (x >>= f) := by
  intro s t u done
  obtain ⟨a, v, -, done⟩ := bind_eq_ok.mp done
  exact next a v t u done

theorem grows_record {n : Nat} {t : Turn} {statement : Statement} {failure : Option Failure}
    {f : Turn → LoopM σ η ν Turn} (next : ∀ entry, Grows n (f (t.record entry))) :
    Grows n (record t statement failure >>= f) := by
  intro s s' u done
  obtain ⟨v, w, written, done⟩ := bind_eq_ok.mp done
  obtain ⟨entry, rfl⟩ := record_eq_ok written
  exact next entry w s' u done

theorem size_record (t : Turn) (entry : RecordEntry) : (t.record entry).entries.size = t.entries.size + 1 :=
  Array.size_push _

theorem handle_grows (t : Turn) (h : Nat) (handler : Statement) :
    Grows t.entries.size (handle conduct script t h handler) := by
  have kept (entry : RecordEntry) : t.entries.size ≤ ((t.awaitRetry h).record entry).entries.size := by
    rw [size_record]
    exact Nat.le_succ _
  refine grows_bind fun _ => grows_bind fun _ => grows_bind fun failed => ?_
  cases failed with
  | some failure =>
    exact grows_bind fun _ => grows_record fun entry => grows_bind fun _ => grows_pure (kept entry)
  | none =>
    refine grows_bind fun _ => grows_record fun entry => grows_bind fun again => ?_
    cases again with
    | true => exact grows_bind fun _ => grows_pure (kept entry)
    | false => exact grows_pure (kept entry)

theorem recover_grows (t : Turn) : Grows t.entries.size (recover conduct script t) := by
  unfold recover
  split
  · exact grows_pure (Nat.le_refl _)
  · split
    · exact grows_bind fun _ => grows_pure (Nat.le_refl _)
    · split
      · exact grows_pure (Nat.le_refl _)
      · exact handle_grows _ _ _

theorem step_grows {t : Turn} (going : t.isOver script = false) :
    Grows (t.entries.size + 1) (step conduct script t) := by
  have inside : t.index < script.statements.length := by
    simp only [Turn.isOver, Bool.or_eq_false_iff, decide_eq_false_iff_not] at going
    exact Nat.not_le.mp going.1
  have written (entry : RecordEntry) : t.entries.size + 1 ≤ (t.record entry).entries.size :=
    Nat.le_of_eq (size_record t entry).symm
  unfold step
  rw [List.getElem?_eq_getElem inside]
  split
  · contradiction
  · split
    · exact grows_pure (written _)
    · split
      · exact grows_pure (written _)
      · refine grows_bind fun _ => grows_bind fun failed => ?_
        cases failed with
        | none => exact grows_record fun entry => grows_bind fun _ => grows_pure (written entry)
        | some failure =>
          refine grows_bind fun _ => grows_record fun entry => grows_bind fun _ => ?_
          have recovered : Grows _ (recover conduct script (t.record entry)) := recover_grows _
          rwa [size_record] at recovered

/-- Every turn of a run writes into the record, so the entries bound the turns. -/
theorem loop_turns (t u : Turn) (s s' : RunState σ η ν) (looped : loop conduct script t s = .ok u s') :
    u.isOver script = true ∧
      ∃ n, t.entries.size + n ≤ u.entries.size ∧ turns conduct script n t s = .ok u s' := by
  cases ended : t.isOver script with
  | true =>
    rw [loop_of_over ended] at looped
    obtain ⟨rfl, rfl⟩ := pure_eq_ok.mp looped
    exact ⟨ended, 0, Nat.le_refl _, rfl⟩
  | false =>
    rw [loop_of_not_over ended] at looped
    obtain ⟨v, w, stepped, looped⟩ := bind_eq_ok.mp looped
    have := (step_advances stepped).remaining_less ended
    obtain ⟨atEnd, n, size, turned⟩ := loop_turns v u w s' looped
    have grown := step_grows ended s w v stepped
    refine ⟨atEnd, n + 1, by omega, ?_⟩
    rw [turns, ended]
    exact bind_eq_ok.mpr ⟨v, w, stepped, turned⟩
termination_by Turn.remaining script t
decreasing_by exact this

end Run

/-- A run whose statements all go through or fail returns, after at most twice as many turns as the
script has statements and with at most so many entries; it carries out every statement at most twice,
and every handler at most once. -/
theorem Run.run_bounded (conduct : Conduct σ η ν) (faultless : conduct.Faultless) (script : Script)
    (name : String) (startedAt : Moment) (s : RunState σ η ν) :
    (∃ n ≤ 2 * script.length, ∃ t s', turns conduct script n {} s = .ok t s' ∧ t.isOver script = true) ∧
      ∃ record t, run conduct.watched script name startedAt (s.watched []) = .ok record t ∧
        run conduct script name startedAt s = .ok record t.bare ∧
        record.entries.length ≤ 2 * script.length ∧
        ∀ (i : Nat) (statement : Statement), script.statements[i]? = some statement →
          (places t.calls).count i ≤ if statement.isHandler then 1 else 2 := by
  constructor
  · obtain ⟨t, s', -, looped, -, -, size⟩ := ensures_loop faultless script (s.watched [])
    have erased : mapState RunState.bare (loop conduct.watched script {} (s.watched [])) = loop conduct script {} s :=
      loop_mirrors {} (s.watched [])
    rw [looped] at erased
    obtain ⟨atEnd, n, few, turned⟩ := loop_turns {} t s s'.bare erased.symm
    rw [List.size_toArray, List.length_nil] at few
    exact ⟨n, by omega, t, s'.bare, turned, atEnd⟩
  · obtain ⟨record, t, visited, done, before, within, size⟩ :=
      ensures_run faultless script name startedAt (s.watched [])
    have erased : mapState RunState.bare (run conduct.watched script name startedAt (s.watched [])) =
        run conduct script name startedAt s := run_mirrors name startedAt (s.watched [])
    rw [done] at erased
    refine ⟨record, t, done, erased.symm, size, fun i statement found => ?_⟩
    have all : places t.calls = visited := before
    rw [all]
    rw [← Regions.statements_ofStatements script.statements] at found
    have bound : (quota 0 (Regions.ofStatements script.statements)).count (0 + i) ≤
        if statement.isHandler then 1 else 2 := count_quota (Regions.cut_ofStatements _) found
    rw [Nat.zero_add] at bound
    exact Nat.le_trans (within.count_le i) bound

/-- Fails at every statement that is no handler, and whose handlers always ask for another try. -/
def stubborn : Conduct Unit Unit Unit where
  execute _ _ statement _ :=
    if statement.isHandler then RunM.setMemory fun m => { m with retryRequested := true }
    else RunM.fail .nothingLocated
  finish := Session.finishStatement

theorem stubborn_faultless : stubborn.Faultless := by
  intro place phase statement upcoming s t fault result
  cases handling : statement.isHandler with
  | true =>
    simp only [stubborn, handling, if_true] at result
    cases result
  | false =>
    simp only [stubborn, handling, Bool.false_eq_true, if_false] at result
    cases result

def guardedClick : Script :=
  .ofStatements [⟨.run [⟨.click, none, none⟩], 1⟩, ⟨.handler [⟨.tryAgain, none, none⟩], 2⟩]

theorem run_bounded_stubborn :
    stubborn.Faultless ∧
      (∃ n ≤ 4, ∃ t s', Run.turns stubborn guardedClick n {} { session := { page := () } } = .ok t s' ∧
        t.isOver guardedClick = true) ∧
      ∃ record t, Run.run stubborn.watched guardedClick "run" ⟨2024, 1, 2, 3, 4, 5, 0⟩
          (RunState.watched { session := { page := () } } []) = .ok record t ∧
        record.entries.length ≤ 4 ∧ (places t.calls).count 0 ≤ 2 ∧ (places t.calls).count 1 ≤ 1 := by
  have bounded := Run.run_bounded stubborn stubborn_faultless guardedClick "run" ⟨2024, 1, 2, 3, 4, 5, 0⟩
    { session := { page := () } }
  obtain ⟨turned, record, t, done, -, size, often⟩ := bounded
  exact ⟨stubborn_faultless, turned, record, t, done, size, often 0 _ rfl, often 1 _ rfl⟩

end Walkthrough
