import Walkthrough.Proofs.Run.Regions

/-!
The run that jumps through a script by its two tables is the reading of the script region by region
(`loop_eq_read`). Within a region the place of a turn decides nothing after a failure: all of the
region's statements have the same handler, and every way on from there names its own place.
-/
namespace Walkthrough.Run

variable {σ η ν : Type} {conduct : Conduct σ η ν} {script : Script}

theorem record_eq_write (t : Turn) (statement : Statement) (failure : Option Failure) :
    (record t statement failure : LoopM σ η ν Turn) =
      write t.entries statement failure >>= fun entries => pure { t with entries } := by
  rfl

theorem recover_index {t : Turn} {index : Nat} (same : script.handler? index = script.handler? t.index) :
    recover conduct script { t with index } = recover conduct script t := by
  unfold recover
  rw [same]
  rfl

theorem getElem?_of_drop {script : Script} {i : Nat} {s : Statement} {later : List Statement}
    (here : script.statements.drop i = s :: later) : script.statements[i]? = some s := by
  have first := congrArg List.head? here
  simpa using first

theorem isOver_of_drop {t : Turn} {s : Statement} {later : List Statement}
    (here : script.statements.drop t.index = s :: later) (running : t.phase = .running) :
    t.isOver script = false := by
  have inside : ¬ script.length ≤ t.index :=
    Nat.not_le.mpr (List.getElem?_eq_some_iff.mp (getElem?_of_drop here)).1
  simp [Turn.isOver, inside, running]

theorem step_of_handler {t : Turn} {s : Statement} (here : script.statements[t.index]? = some s)
    (handling : s.isHandler = true) :
    step conduct script t =
      pure ({ t with entries := passed t.entries s }.enterRegion (t.index + 1)) := by
  unfold step
  simp only [here, handling, if_true]
  rfl

theorem step_of_comment {t : Turn} {s : Statement} (here : script.statements[t.index]? = some s)
    (plain : s.isHandler = false) (comment : s.isComment = true) :
    step conduct script t = pure { t with index := t.index + 1, entries := passed t.entries s } := by
  unfold step
  simp only [here, plain, comment, Bool.false_eq_true, if_false, if_true]
  rfl

theorem step_of_plain {t : Turn} {s : Statement} {later : List Statement}
    (here : script.statements.drop t.index = s :: later) (running : t.phase = .running)
    (plain : s.isHandler = false) (silent : s.isComment = false) :
    step conduct script t = (do
      note (.executing s)
      match ← failureOf (conduct.execute t.index .running s (Answer.upcoming? later)) with
      | none =>
        let entries ← write t.entries s none
        finish conduct
        return { t with index := t.index + 1, entries }
      | some failure =>
        note (.failed s failure)
        let entries ← write t.entries s (some failure)
        finish conduct
        recover conduct script { t with entries }) := by
  have after : script.statements.drop (t.index + 1) = later := by
    rw [← List.tail_drop, here, List.tail_cons]
  rw [← running]
  unfold step
  simp only [getElem?_of_drop here, plain, silent, Bool.false_eq_true, if_false, after]
  rfl

theorem loop_body (rest body : List Statement) (t : Turn)
    (plain : ∀ s ∈ body, s.isHandler = false) (running : t.phase = .running)
    (here : script.statements.drop t.index = body ++ rest) :
    loop conduct script t = readBody conduct rest t.index body t.entries >>= fun (entries, through) =>
      if through then loop conduct script { t with index := t.index + body.length, entries }
      else recover conduct script { t with entries } >>= loop conduct script := by
  induction body generalizing t with
  | nil => rfl
  | cons s later ih =>
    rw [List.cons_append] at here
    have ⟨first, others⟩ := List.forall_mem_cons.mp plain
    have after : script.statements.drop (t.index + 1) = later ++ rest := by
      rw [← List.tail_drop, here, List.tail_cons]
    have calm : ¬ HandlerAt script.statements t.index := by
      intro given
      obtain ⟨other, found, handling⟩ := given
      rw [getElem?_of_drop here] at found
      cases found
      simp [first] at handling
    have size : t.index + 1 + later.length = t.index + (s :: later).length := by
      simp only [List.length_cons]
      omega
    have recovery (entries : Array RecordEntry) :
        recover conduct script { t with index := t.index + 1, entries } =
          recover conduct script { t with entries } :=
      recover_index (t := { t with entries }) (Script.handler?_succ calm)
    have next (entries : Array RecordEntry) := ih { t with index := t.index + 1, entries } others running after
    simp only [size, recovery] at next
    rw [loop_of_not_over (isOver_of_drop here running), readBody]
    cases comment : s.isComment with
    | true =>
      rw [step_of_comment (getElem?_of_drop here) first comment, pure_bind, next]
      rfl
    | false =>
      rw [step_of_plain here running first comment]
      simp only [Bool.false_eq_true, if_false, bind_assoc]
      refine bind_congr fun _ => bind_congr fun failed => ?_
      cases failed with
      | none => simp only [bind_assoc, pure_bind, next]
      | some failure => simp only [bind_assoc, pure_bind, Bool.false_eq_true, if_false]

theorem loop_of_handler {t : Turn} {s : Statement} {later : List Statement}
    (here : script.statements.drop t.index = s :: later) (running : t.phase = .running)
    (handling : s.isHandler = true) :
    loop conduct script t =
      loop conduct script { index := t.index + 1, entries := passed t.entries s } := by
  rw [loop_of_not_over (isOver_of_drop here running),
    step_of_handler (getElem?_of_drop here) handling, pure_bind]
  rfl

/-- What is left to do for the turn when its handler has been run. -/
def resume (script : Script) (t : Turn) (h : Nat) (entries : Array RecordEntry) :
    Handled → LoopM σ η ν Turn
  | .failed => pure ({ t.awaitRetry h with entries }.halt script)
  | .done => pure ({ t with entries }.enterRegion (h + 1))
  | .again => do
    note (.tryingAgain (script.regionStart h + 1))
    pure ({ t.awaitRetry h with entries }.retry (script.regionStart h))

theorem handle_eq_readHandler (t : Turn) (h : Nat) (handler : Statement) :
    handle conduct script t h handler =
      readHandler conduct asRequested h handler t.entries >>=
        fun (entries, handled) => resume script t h entries handled := by
  unfold handle readHandler
  simp only [bind_assoc]
  refine bind_congr fun _ => bind_congr fun _ => bind_congr fun failed => ?_
  cases failed with
  | some failure => rfl
  | none =>
    simp only [bind_assoc, record_eq_write, pure_bind]
    refine bind_congr fun _ => bind_congr fun entries => bind_congr fun asked => ?_
    cases asked <;> rfl

theorem recover_of_none {t : Turn} (unhandled : script.handler? t.index = none) :
    recover conduct script t = pure (t.halt script) := by
  unfold recover
  simp only [unhandled]

theorem recover_of_exhausted {t : Turn} {h : Nat} (named : script.handler? t.index = some h)
    (exhausted : t.exhausted h = true) :
    recover conduct script t = do
      note .regionExhausted
      return t.halt script := by
  unfold recover
  simp only [named, exhausted, if_true]

theorem recover_of_fresh {t : Turn} {h : Nat} {handler : Statement}
    (named : script.handler? t.index = some h) (fresh : t.exhausted h = false)
    (found : script.statements[h]? = some handler) :
    recover conduct script t = handle conduct script t h handler := by
  unfold recover
  simp only [named, fresh, found, Bool.false_eq_true, if_false]

theorem loop_halt (t : Turn) : loop conduct script (t.halt script) = pure (t.halt script) := by
  apply loop_of_over
  simp [Turn.isOver, Turn.halt]

/-- The entries of a run and whether it halted. -/
def outcome (t : Turn) : Array RecordEntry × Bool := (t.entries, t.phase == .halted)

theorem plain_of_body {place : Nat} {body rest : List Statement}
    (here : script.statements.drop place = body ++ rest) (plain : ∀ s ∈ body, s.isHandler = false) (j : Nat)
    (low : place ≤ j) (high : j < place + body.length) : ¬ HandlerAt script.statements j := by
  intro given
  obtain ⟨s, found, handling⟩ := given
  have at_j : (body ++ rest)[j - place]? = some s := by
    rw [← here, List.getElem?_drop, show place + (j - place) = j by omega, found]
  rw [List.getElem?_append_left (by omega)] at at_j
  simp [plain s (List.mem_of_getElem? at_j)] at handling

theorem handler?_of_last {place : Nat} {body : List Statement}
    (here : script.statements.drop place = body) (plain : ∀ s ∈ body, s.isHandler = false) :
    script.handler? place = none := by
  apply Script.handler?_eq_none_iff.mpr
  intro j low handling
  have size := congrArg List.length here
  rw [List.length_drop] at size
  have inside := handling.lt
  have shape : script.statements.drop place = body ++ [] := by rw [here, List.append_nil]
  exact plain_of_body shape plain j low (by omega) handling

theorem loop_eq_read (r : Regions) (place : Nat) (entries : Array RecordEntry) (cut : r.Cut)
    (here : script.statements.drop place = r.statements)
    (bounded : place = 0 ∨ HandlerAt script.statements (place - 1)) :
    outcome <$> loop conduct script { index := place, entries } =
      read conduct asRequested place r entries := by
  induction r generalizing place entries with
  | last body =>
    have shape : script.statements.drop place = body ++ [] := by rw [here, List.append_nil]; rfl
    rw [loop_body [] body { index := place, entries } cut rfl shape, map_bind, read]
    refine bind_congr fun result => ?_
    obtain ⟨entries, through⟩ := result
    cases through with
    | true =>
      have ended : script.length ≤ place + body.length := by
        have size := congrArg List.length shape
        simp only [List.length_drop, List.append_nil] at size
        change script.statements.length ≤ _
        omega
      simp only [if_true]
      rw [loop_of_over (by simp [Turn.isOver, ended])]
      rfl
    | false =>
      simp only [Bool.false_eq_true, if_false]
      rw [recover_of_none (handler?_of_last here cut), pure_bind, loop_halt]
      rfl
  | guarded body handler later ih =>
    obtain ⟨plain, handling, cut⟩ := cut
    let h := place + body.length
    have behind : script.statements.drop h = handler :: later.statements := by
      rw [← List.drop_drop, here, Regions.statements, List.drop_left]
    have at_h : HandlerAt script.statements h := ⟨handler, getElem?_of_drop behind, handling⟩
    have between := plain_of_body here plain
    have named : script.handler? place = some h :=
      Script.handler?_eq_some_iff.mpr ⟨Nat.le_add_right _ _, at_h, between⟩
    have start : script.regionStart h = place :=
      Script.regionStart_eq (Nat.le_add_right _ _) at_h.lt between bounded
    have onward (entries : Array RecordEntry) := ih (h + 1) entries cut
      (by rw [← List.tail_drop, behind, List.tail_cons]) (Or.inr at_h)
    rw [loop_body (handler :: later.statements) body { index := place, entries } plain rfl here, map_bind, read]
    refine bind_congr fun result => ?_
    obtain ⟨entries, through⟩ := result
    cases through with
    | true =>
      simp only [if_true]
      rw [loop_of_handler behind rfl handling]
      exact onward _
    | false =>
      simp only [Bool.false_eq_true, if_false]
      rw [recover_of_fresh named rfl (getElem?_of_drop behind), handle_eq_readHandler, bind_assoc, map_bind]
      refine bind_congr fun result => ?_
      obtain ⟨entries, handled⟩ := result
      cases handled with
      | failed =>
        simp only [resume, pure_bind, loop_halt]
        rfl
      | done =>
        simp only [resume, pure_bind]
        exact onward _
      | again =>
        -- The second try: the same statements, but a failure now finds the region exhausted.
        simp only [resume, bind_assoc, map_bind, pure_bind, start]
        refine bind_congr fun _ => ?_
        let t : Turn := { index := place, handler := some h, retryUsed := true, entries }
        change outcome <$> loop conduct script t = _
        rw [loop_body (handler :: later.statements) body t plain rfl here, map_bind]
        refine bind_congr fun result => ?_
        obtain ⟨entries, through⟩ := result
        cases through with
        | true =>
          simp only [if_true]
          rw [loop_of_handler behind rfl handling]
          exact onward _
        | false =>
          simp only [Bool.false_eq_true, if_false]
          rw [recover_of_exhausted (h := h) named (by simp [t, Turn.exhausted])]
          simp only [bind_assoc, pure_bind, loop_halt]
          rfl

theorem run_eq_readRun (name : String) (startedAt : Moment) :
    run conduct script name startedAt = readRun conduct asRequested script name startedAt := by
  have jumped : outcome <$> loop conduct script {} =
      read conduct asRequested 0 (Regions.ofStatements script.statements) #[] :=
    loop_eq_read _ 0 #[] (Regions.cut_ofStatements _) (Regions.statements_ofStatements _).symm (Or.inl rfl)
  unfold run readRun
  refine bind_congr fun _ => ?_
  rw [← jumped, bind_map_left]
  rfl

end Walkthrough.Run
