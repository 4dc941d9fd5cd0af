import Walkthrough.Proofs.Run.Secures
import Walkthrough.Proofs.Run.Reached

/-!
Where the search is, and how the located element was found. What an action does to the memory and what it yields
are composed from its parts (`RunM.Guards`), and where the located element is only found again, whatever is kept
then is kept by the whole command (`Memory.Refinds`). A search is confined only while a statement with an anchor is
carried out, and the located element always has the description by which it was found
(`Setup.upholds_placed`), so that it can be found again.
-/
namespace Walkthrough

open Walkthrough.Action

variable {σ η ν α β : Type}

namespace RunM

/-- The memory keeps the property wherever the action stops, and what it yields has the other one. -/
def Guards (P : Memory η → Prop) (x : RunM σ η ν α) (Q : α → Prop) : Prop :=
  ∀ s, P s.memory → P (final (x s)).memory ∧ ∀ a t, x s = .ok a t → Q a

abbrev Keeps (P : Memory η → Prop) (x : RunM σ η ν α) : Prop := Guards P x fun _ => True

variable {P : Memory η → Prop} {Q : α → Prop} {R : β → Prop} {x : RunM σ η ν α} {f : α → RunM σ η ν β}

theorem guards_bind (first : Guards P x Q) (next : ∀ a, Q a → Guards P (f a) R) : Guards P (x >>= f) R :=
  secures_bind first next

theorem keeps_bind (first : Keeps P x) (next : ∀ a, Guards P (f a) R) : Guards P (x >>= f) R :=
  maintains_bind first next

theorem guards_pure {a : α} (yields : Q a) : Guards P (pure a : RunM σ η ν α) Q := secures_pure yields

theorem guards_throw (stop : Stop) : Guards P (throw stop : RunM σ η ν α) Q := secures_throw stop

theorem guards_onSession {y : SessionM σ ν α} (yields : ∀ s a t, y s = .ok a t → Q a) :
    Guards P (onSession y : RunM σ η ν α) Q :=
  secures_onSession (L := fun m _ => P m) fun _ s holds => ⟨holds, yields s⟩

theorem keeps_onSession (y : SessionM σ ν α) : Keeps P (onSession y : RunM σ η ν α) :=
  guards_onSession fun _ _ _ _ => trivial

theorem guards_memory_bind {g : Memory η → RunM σ η ν β} (next : ∀ m, P m → Guards P (g m) R) :
    Guards P (memory >>= g) R :=
  secures_memory_bind (L := fun m _ => P m) fun m _ holds => next m holds

theorem keeps_setMemory {change : Memory η → Memory η} (keeps : ∀ m, P m → P (change m)) :
    Keeps P (setMemory change : RunM σ η ν Unit) :=
  maintains_setMemory (L := fun m _ => P m) fun m _ holds => keeps m holds

theorem keeps_attempt (tried : Keeps P x) : Keeps P (attempt x) := maintains_attempt tried

theorem guards_ite {p : Prop} [Decidable p] {y : RunM σ η ν α} (met : Guards P x Q) (missed : Guards P y Q) :
    Guards P (if p then x else y) Q := secures_ite met missed

theorem onSession_eq_ok {y : SessionM σ ν α} {a : α} {s t : RunState σ η ν} (done : onSession y s = .ok a t) :
    ∃ u, y s.session = .ok a u ∧ t = { s with session := u } := by
  unfold onSession at done
  cases result : y s.session with
  | ok b u =>
    rw [result] at done
    cases done
    exact ⟨u, rfl, rfl⟩
  | error failure u =>
    rw [result] at done
    cases done

end RunM

/-- The search is confined to this element, or not at all, and the located element has the description by which it
was found. -/
structure Memory.Placed (scope : Option η) (m : Memory η) : Prop where
  scope : m.scope = scope
  named : ∀ slot ∈ m.located, slot.query.isEmpty = false

/-- The memory has the property `P` also when the located element is found again: its description has the property
`Q`, and `P` does not tell elements with such a description apart. -/
structure Memory.Refinds (P : Memory η → Prop) (Q : String → Prop) : Prop where
  described : ∀ m, P m → ∀ slot ∈ m.located, Q slot.query
  again : ∀ m element query, Q query → P m → P { m with located := some ⟨element, query⟩ }

theorem Memory.Refinds.placed (scope : Option η) :
    Refinds (Memory.Placed scope) fun query => query.isEmpty = false where
  described _ placed := placed.named
  again _ _ _ named placed := ⟨placed.scope, by simpa using named⟩

/-- What is described by nothing is not found. -/
theorem Locator.named_of_resolve {locator : Locator σ η ν} {query : String} {scope : Option η} {element : η}
    {s t : Session σ ν} (located : locator.resolve query scope s = .ok element t) : query.isEmpty = false := by
  cases empty : query.isEmpty with
  | false => rfl
  | true =>
    obtain rfl : query = "" := by simpa using empty
    cases located

namespace Setup

open RunM

variable (setup : Setup σ η ν)

theorem highlight_keeps {P : Memory η → Prop} (element : η) (border : String) :
    Keeps P (highlight setup element border) := by
  refine keeps_bind (keeps_attempt (keeps_onSession _)) fun result => ?_
  cases result with
  | ok => exact guards_pure trivial
  | error failure => exact keeps_onSession _

theorem argument_keeps {P : Memory η → Prop} (c : Command) : Keeps P (argument c : RunM σ η ν String) :=
  argument_maintains (L := fun m _ => P m) c

/-- What marks a located element on the screen before it is written down. -/
def drawBorder (element : η) : RunM σ η ν Unit := do
  if setup.demo then
    if let some previous := (← memory).located then
      if ← Session.isAttached setup.page previous.element then
        highlight setup previous.element "none"
    highlight setup element highlightBorder

/-- The last thing done to an element that is located is to write it down. -/
theorem setLocated_eq (element : η) (query : String) :
    setLocated setup element query =
      setup.drawBorder element >>= fun _ => setMemory fun m => { m with located := some ⟨element, query⟩ } := by
  unfold setLocated drawBorder
  split
  · rw [bind_assoc]
    refine congrArg (memory >>= ·) (funext fun m => ?_)
    cases m.located with
    | none => rfl
    | some previous =>
      dsimp only
      rw [bind_assoc]
      refine congrArg (_ >>= ·) (funext fun attached => ?_)
      cases attached with
      | false => rfl
      | true => exact (bind_assoc _ _ _).symm
  · rfl

/-- The located element that is handed out is the one that is located then. -/
theorem located_of_handed {setup : Setup σ η ν} {s t : RunState σ η ν} {slot : Located η}
    (handed : locatedElement setup s = .ok slot t) :
    t.memory.located = some slot := by
  obtain ⟨_, _, read, handed⟩ := bind_eq_ok.mp handed
  cases read
  cases located : s.memory.located with
  | none =>
    simp only [located] at handed
    cases handed
  | some previous =>
    simp only [located] at handed
    obtain ⟨there, u, asked, handed⟩ := bind_eq_ok.mp handed
    obtain ⟨session, -, rfl⟩ := onSession_eq_ok asked
    split at handed
    · obtain ⟨rfl, rfl⟩ := pure_eq_ok.mp handed
      exact located
    · obtain ⟨_, _, -, handed⟩ := bind_eq_ok.mp handed
      obtain ⟨_, _, -, handed⟩ := bind_eq_ok.mp handed
      obtain ⟨element, _, -, handed⟩ := bind_eq_ok.mp handed
      obtain ⟨_, w, kept, handed⟩ := bind_eq_ok.mp handed
      obtain ⟨rfl, rfl⟩ := pure_eq_ok.mp handed
      rw [setLocated_eq] at kept
      obtain ⟨_, _, -, written⟩ := bind_eq_ok.mp kept
      cases written
      rfl

theorem drawBorder_keeps {P : Memory η → Prop} (element : η) : Keeps P (setup.drawBorder element) := by
  have drawn := setup.highlight_keeps (P := P) element highlightBorder
  refine guards_ite (guards_memory_bind fun m _ => ?_) (guards_pure trivial)
  cases m.located with
  | none => exact drawn
  | some previous =>
    refine keeps_bind (keeps_onSession _) fun attached => ?_
    cases attached with
    | false => exact drawn
    | true => exact keeps_bind (setup.highlight_keeps _ _) fun _ => drawn

theorem anchorElement_keeps {P : Memory η → Prop} (anchor : Option Param) :
    Keeps P (anchorElement setup anchor) := by
  cases anchor with
  | none =>
    refine keeps_bind (keeps_onSession _) fun focused => ?_
    cases focused with
    | some element => exact guards_pure trivial
    | none => exact guards_throw _
  | some param =>
    refine guards_memory_bind fun m _ => ?_
    cases m.valueOf param with
    | error failure => exact guards_throw _
    | ok query =>
      refine keeps_bind (keeps_onSession _) fun element => ?_
      exact keeps_bind (keeps_onSession _) fun _ => guards_pure trivial

/-- Arming the dialogs for a statement has nothing to do with the memory. -/
theorem execute_keeps {P : Memory η → Prop} {phase : Phase} {st : Statement}
    (carried : Keeps P (carryOut setup phase st.form)) (upcoming : Option Answer) :
    Keeps P (execute setup phase st upcoming) := by
  intro s holds
  refine ⟨?_, fun _ _ _ => trivial⟩
  rw [execute_eq, final_andFinally, memory_relieved]
  exact (carried (readied st upcoming s) (by rwa [memory_readied])).1

section Refinds

variable {P : Memory η → Prop} {Q : String → Prop} (refinds : Memory.Refinds P Q)

include refinds

theorem setLocated_keeps (element : η) {query : String} (described : Q query) :
    Keeps P (setLocated setup element query) := by
  rw [setLocated_eq]
  exact keeps_bind (setup.drawBorder_keeps element) fun _ =>
    keeps_setMemory fun m holds => refinds.again m element query described holds

theorem locatedElement_guards : Guards P (locatedElement setup) fun slot => Q slot.query := by
  refine guards_memory_bind fun m holds => ?_
  cases located : m.located with
  | none => exact guards_throw _
  | some slot =>
    have described : Q slot.query := refinds.described m holds slot located
    refine keeps_bind (keeps_onSession _) fun attached => guards_ite (guards_pure described) ?_
    refine keeps_bind (keeps_onSession _) fun _ => guards_memory_bind fun m _ => ?_
    refine keeps_bind (keeps_onSession _) fun element => ?_
    exact keeps_bind (setup.setLocated_keeps refinds element described) fun _ => guards_pure described

theorem target_keeps (choosing : Bool) : Keeps P (target setup choosing) := by
  refine guards_bind (setup.locatedElement_guards refinds) fun slot described => ?_
  refine keeps_bind (keeps_onSession _) fun element => ?_
  refine keeps_bind (keeps_setMemory fun m holds => ?_) fun _ => guards_pure trivial
  exact refinds.again m element slot.query described holds

theorem handles : setup.Handles fun m (_ : Session σ ν) => P m where
  calm m := .constant setup.page (P m)
  locatedElement := Secures.mono (setup.locatedElement_guards refinds) fun _ _ => trivial
  target := setup.target_keeps refinds

variable (found : ∀ {query within element} {s t : Session σ ν},
  setup.locator.resolve query within s = .ok element t → Q query)

include found

theorem locate_keeps (query : String) (scroll : Bool) : Keeps P (locate setup query scroll) := by
  refine guards_memory_bind fun m _ =>
    guards_bind (guards_onSession fun _ _ _ => found) fun element described => ?_
  have last := setup.setLocated_keeps refinds element described
  cases scroll with
  | true => exact keeps_bind (keeps_onSession _) fun _ => last
  | false => exact last

theorem dragTo_keeps (c : Command) : Keeps P (dragTo setup c) := by
  refine guards_bind (setup.locatedElement_guards refinds) fun source _ => ?_
  refine keeps_bind (argument_keeps c) fun query => guards_memory_bind fun m _ => ?_
  refine guards_bind (guards_onSession fun _ _ _ => found) fun element described => ?_
  exact keeps_bind (keeps_onSession _) fun _ => setup.setLocated_keeps refinds element described

/-- Where a description by which something is found has the property `Q`, every command keeps `P`. -/
theorem tends_of_refinds (remember : ∀ {m m' : Memory η}, m'.scope = m.scope → m'.located = m.located → P m → P m') :
    setup.Tends fun m (_ : Session σ ν) => P m where
  toHandles := setup.handles refinds
  remember := remember
  locate := setup.locate_keeps refinds found
  dragTo := setup.dragTo_keeps refinds found

end Refinds

variable (scope : Option η)

/-- No command moves the search, and none forgets how it found the located element. -/
theorem placed_tends : setup.Tends fun m (_ : Session σ ν) => m.Placed scope :=
  setup.tends_of_refinds (.placed scope) Locator.named_of_resolve fun same located placed =>
    ⟨same.trans placed.scope, located ▸ placed.named⟩

theorem performAll_placed (phase : Phase) (body : List Command) :
    Keeps (Memory.Placed scope) (performAll setup phase body) :=
  performAll_maintains ((setup.placed_tends scope).perform phase) body

theorem setScope_placed {before : Option η} {s : RunState σ η ν} (placed : s.memory.Placed before) :
    (setScope scope s).memory.Placed scope := ⟨rfl, placed.named⟩

/-- The search is confined while a statement with an anchor is carried out, and only then. -/
theorem enter_placed {form : Form} {s begun : RunState σ η ν} (placed : s.memory.Placed none)
    (entered : setup.enter form s = .ok () begun) :
    ∃ scope, begun.memory.Placed scope ∧ ((∀ anchor body, form ≠ .under anchor body) → scope = none) := by
  cases form with
  | under anchor body =>
    obtain ⟨element, mid, anchored, confined⟩ := bind_eq_ok.mp entered
    have kept := (setup.anchorElement_keeps anchor s placed).1
    rw [anchored] at kept
    cases confined
    exact ⟨some element, setScope_placed _ kept, fun open_ => absurd rfl (open_ anchor body)⟩
  | _ =>
    obtain ⟨-, rfl⟩ := pure_eq_ok.mp entered
    exact ⟨none, placed, fun _ => rfl⟩

theorem carryOut_placed (phase : Phase) (form : Form) :
    Keeps (Memory.Placed none) (carryOut setup phase form) :=
  (setup.placed_tends none).carryOut setup.anchorElement_keeps
    (fun element _ => setup.placed_tends (some element)) (fun _ placed => ⟨rfl, placed.named⟩)
    (fun placed => ⟨rfl, placed.named⟩) phase form

end Setup

/-- Between the visits of a run the search is not confined. -/
theorem Setup.upholds_placed (setup : Setup σ η ν) (script : Script) :
    Run.Upholds setup.conduct script fun visits s =>
      s.memory.Placed none ∧ ∀ v ∈ visits, v.before.memory.Placed none where
  note _ holds := holds
  forget holds := ⟨⟨holds.1.scope, holds.1.named⟩, holds.2⟩
  visit {_ _ v} noted holds before _ done := by
    subst before
    obtain ⟨placed, earlier⟩ := holds
    refine ⟨?_, List.forall_mem_append.mpr ⟨earlier, List.forall_mem_singleton.mpr placed⟩⟩
    have left := (setup.execute_keeps (setup.carryOut_placed v.phase v.statement.form) v.upcoming v.before placed).1
    rw [done.final_eq] at left
    exact ⟨left.scope, left.named⟩

end Walkthrough
