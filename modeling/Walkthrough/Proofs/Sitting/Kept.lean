import Walkthrough.Invocation.Basic
import Walkthrough.Proofs.File.Written
import Walkthrough.Proofs.Script.Rereading

/-!
What a sitting keeps. What the user types decides it alone: all comments are kept, and every statement
that the user says yes to, whatever it does when it is carried out (`keptFrom`). They are saved as their
displays, one on each line, and displays are read again as the statements that they display
(`displays_reread`).
-/
namespace Walkthrough

open Walkthrough.Action

/-- What is asked about are statements of scripts that could be read. -/
def Awaiting.Parsed : Awaiting → Prop
  | .keeping s later => ∀ st ∈ s :: later, Script.Parsed st
  | _ => True

namespace Sitting

variable {σ η ν α β : Type} {host : Host σ η ν} {settings : Settings} {savePath : Path}

/-- The comments up to the next statement to be carried out, and what will be asked then. -/
def commentsOf : List Statement → List Statement × Awaiting
  | [] => ([], .statement)
  | s :: later =>
    if s.isComment then (s :: (commentsOf later).1, (commentsOf later).2) else ([], .keeping s later)

def keptOf (text : String) : List Statement × Awaiting :=
  if isUnfinished text then ([], .continuation text)
  else if isFarewell text then ([], .nothing)
  else if Text.allBlank text.toList then ([], .statement)
  else
    match Script.parse text with
    | .error _ => ([], .statement)
    | .ok script => commentsOf script.statements

/-- The statements that one more line adds to those kept, and what the line after it will be taken for. -/
def keptBy (line : String) : Awaiting → List Statement × Awaiting
  | .statement => keptOf line
  | .continuation text => keptOf (text ++ "\n" ++ line)
  | .keeping s later =>
    ((if isYes line then [s] else []) ++ (commentsOf later).1, (commentsOf later).2)
  | .nothing => ([], .nothing)

/-- The statements that are kept of what the user types: the comments, and those said yes to. -/
def keptFrom : Awaiting → List String → List Statement
  | .nothing, _ | _, [] => []
  | awaiting, line :: lines => (keptBy line awaiting).1 ++ keptFrom (keptBy line awaiting).2 lines

/-- What an action adds to the statements kept, and its answer, if it comes to an end. -/
def Adds (x : SittingM σ η ν α) (added : List Statement) (answer : α → Prop) : Prop :=
  ∀ s a t, x s = .ok a t →
    t.kept.toList = s.kept.toList ++ added.map Statement.display ∧ answer a

theorem adds_pure {a : α} {answer : α → Prop} (given : answer a) :
    Adds (pure a : SittingM σ η ν α) [] answer := by
  intro s b t ended
  obtain ⟨rfl, rfl⟩ := pure_eq_ok.mp ended
  exact ⟨by simp, given⟩

theorem adds_bind {x : SittingM σ η ν α} {f : α → SittingM σ η ν β} {first later : List Statement}
    {answer : α → Prop} {answer' : β → Prop} (one : Adds x first answer)
    (next : ∀ a, answer a → Adds (f a) later answer') : Adds (x >>= f) (first ++ later) answer' := by
  intro s b t ended
  obtain ⟨a, s', began, goesOn⟩ := bind_eq_ok.mp ended
  obtain ⟨before, given⟩ := one s a s' began
  obtain ⟨after, given'⟩ := next a given s' b t goesOn
  rw [after, before, List.append_assoc, List.map_append]
  exact ⟨rfl, given'⟩

theorem adds_after {x : SittingM σ η ν α} {f : α → SittingM σ η ν β} {added : List Statement}
    {answer : α → Prop} {answer' : β → Prop} (silent : Adds x [] answer)
    (next : ∀ a, answer a → Adds (f a) added answer') : Adds (x >>= f) added answer' :=
  adds_bind silent next

theorem adds_inWorld (x : WorldM ν α) : Adds (inWorld x : SittingM σ η ν α) [] fun _ => True := by
  intro s a t ended
  unfold inWorld at ended
  split at ended
  · cases ended
    exact ⟨by simp, trivial⟩
  · cases ended

theorem adds_keep (s : Statement) : Adds (keep s : SittingM σ η ν Unit) [s] fun _ => True := by
  intro sitting a t ended
  cases ended
  exact ⟨by simp, trivial⟩

theorem adds_bind_keep (s : Statement) {x : SittingM σ η ν α} {later : List Statement} {answer : α → Prop}
    (next : Adds x later answer) : Adds (keep s >>= fun _ => x) (s :: later) answer :=
  (adds_bind (adds_keep s) fun _ _ => next : Adds _ ([s] ++ later) answer)

theorem adds_carryOut (s : Statement) :
    Adds (carryOut host settings savePath s) [] fun _ => True := by
  intro sitting a t ended
  unfold carryOut at ended
  dsimp only at ended
  split at ended
  · cases ended
    exact ⟨by simp [handOver], trivial⟩
  · cases ended
    exact ⟨by simp [handOver], trivial⟩
  · cases ended

theorem adds_get_bind {f : Sitting σ η ν → SittingM σ η ν α} {added : List Statement} {answer : α → Prop}
    (next : ∀ s, Adds (f s) added answer) : Adds (get >>= f) added answer := fun s => next s s

theorem adds_modify {change : Sitting σ η ν → Sitting σ η ν} (same : ∀ s, (change s).kept = s.kept) :
    Adds (modify change) [] fun _ => True := by
  intro s a t ended
  cases ended
  exact ⟨by simp [same], trivial⟩

theorem adds_each {β : Type} (items : List β) {x : β → SittingM σ η ν Unit}
    (each : ∀ b, Adds (x b) [] fun _ => True) :
    Adds (forIn items PUnit.unit fun b _ => do x b; pure (.yield PUnit.unit)) [] fun _ => True := by
  induction items with
  | nil => exact adds_pure trivial
  | cons b later ih =>
    rw [List.forIn_cons]
    have once : Adds (do x b; pure (.yield PUnit.unit) : SittingM σ η ν (ForInStep PUnit)) []
        fun going => going = .yield PUnit.unit := adds_after (each b) fun _ _ => adds_pure rfl
    refine adds_after once fun going same => ?_
    subst same
    exact ih

theorem adds_saveScreenshots : Adds (saveScreenshots savePath : SittingM σ η ν Unit) [] fun _ => True := by
  refine adds_get_bind fun s => ?_
  refine adds_after (adds_modify fun _ => rfl) fun _ _ => ?_
  refine adds_after (adds_inWorld _) fun paths _ => ?_
  exact adds_after (adds_each paths fun path => adds_inWorld _) fun _ _ => adds_pure trivial

theorem adds_proceed (sts : List Statement) :
    Adds (proceed host settings savePath sts) (commentsOf sts).1 fun next => next = (commentsOf sts).2 := by
  induction sts with
  | nil => exact adds_after (adds_inWorld _) fun _ _ => adds_pure rfl
  | cons s later ih =>
    unfold proceed commentsOf
    split
    · exact adds_bind_keep s ih
    · refine adds_after (adds_carryOut s) fun ended _ => ?_
      cases ended <;> refine adds_after (adds_inWorld _) fun _ _ => ?_
      all_goals
        refine adds_after adds_saveScreenshots fun _ _ => ?_
        exact adds_after (adds_inWorld _) fun _ _ => adds_pure rfl

theorem adds_consider (text : String) :
    Adds (consider host settings savePath text) (keptOf text).1 fun next => next = (keptOf text).2 := by
  unfold consider keptOf
  split
  · exact adds_after (adds_inWorld _) fun _ _ => adds_pure rfl
  · split
    · exact adds_pure rfl
    · split
      · exact adds_proceed []
      · cases Script.parse text with
        | error e => exact adds_after (adds_inWorld _) fun _ _ => adds_proceed []
        | ok script => exact adds_proceed script.statements

theorem adds_hear (line : String) (awaiting : Awaiting) :
    Adds (hear host settings savePath line awaiting) (keptBy line awaiting).1
      fun next => next = (keptBy line awaiting).2 := by
  cases awaiting with
  | statement => exact adds_consider line
  | continuation text => exact adds_consider _
  | keeping s later =>
    rw [hear, keptBy]
    split
    · exact adds_bind_keep s (adds_proceed later)
    · exact adds_proceed later
  | nothing =>
    rw [hear, keptBy]
    exact adds_pure rfl

theorem converse_cons {awaiting : Awaiting} (going : awaiting ≠ .nothing) (line : String) (lines : List String) :
    converse host settings savePath awaiting (line :: lines) =
      hear host settings savePath line awaiting >>= fun next => converse host settings savePath next lines := by
  cases awaiting with
  | nothing => exact absurd rfl going
  | _ => rfl

theorem keptFrom_cons {awaiting : Awaiting} (going : awaiting ≠ .nothing) (line : String) (lines : List String) :
    keptFrom awaiting (line :: lines) =
      (keptBy line awaiting).1 ++ keptFrom (keptBy line awaiting).2 lines := by
  cases awaiting with
  | nothing => exact absurd rfl going
  | _ => rfl

/-- A sitting that comes to its end has heard all lines, and then saved what was kept. -/
theorem saved_of_converse {awaiting : Awaiting} {lines : List String} {s t : Sitting σ η ν}
    (ended : converse host settings savePath awaiting lines s = .ok () t) :
    ∃ u, u.kept.toList = s.kept.toList ++ (keptFrom awaiting lines).map Statement.display ∧
      save savePath u = .ok () t := by
  -- The induction is on the lines that are left; how many statements are kept already makes no difference.
  induction lines generalizing awaiting s with
  | nil =>
    have nothing : keptFrom awaiting [] = [] := by cases awaiting <;> rfl
    rw [nothing, List.map_nil, List.append_nil]
    cases awaiting with
    | keeping s later => cases ended
    | _ => exact ⟨s, rfl, ended⟩
  | cons line later ih =>
    by_cases closed : awaiting = .nothing
    · subst closed
      exact ⟨s, by simp [keptFrom], ended⟩
    · rw [converse_cons closed] at ended
      obtain ⟨next, middle, heard, goesOn⟩ := bind_eq_ok.mp ended
      obtain ⟨before, rfl⟩ := adds_hear line awaiting s next middle heard
      obtain ⟨u, after, saved⟩ := ih goesOn
      refine ⟨u, ?_, saved⟩
      rw [after, before, keptFrom_cons closed, List.map_append, List.append_assoc]

theorem change_eq_ok {f : Disk → Except Fault Disk} {s t : Sitting σ η ν}
    (ended : inWorld (World.onDisk (DiskM.change f)) s = .ok () t) :
    f s.world.disk = .ok t.world.disk ∧ t.kept = s.kept := by
  unfold inWorld World.onDisk DiskM.change at ended
  cases changed : f s.world.disk with
  | ok disk =>
    simp only [changed] at ended
    cases ended
    exact ⟨rfl, rfl⟩
  | error fault => simp [changed] at ended

theorem refused_of_change {f : Disk → Except Fault Disk} {s t : Sitting σ η ν} {fault : Fault}
    (stopped : inWorld (World.onDisk (DiskM.change f)) s = .error fault t) : f s.world.disk = .error fault := by
  unfold inWorld World.onDisk DiskM.change at stopped
  cases changed : f s.world.disk with
  | ok disk => simp [changed] at stopped
  | error other =>
    simp only [changed] at stopped
    cases stopped
    rfl

theorem read_of_save {s t : Sitting σ η ν} (saved : save savePath s = .ok () t) :
    t.kept = s.kept ∧ (s.kept.toList ≠ [] →
      t.world.disk.read savePath = .ok ("\n".intercalate s.kept.toList ++ "\n").toUTF8) := by
  have unfolded : save savePath s = (if !s.kept.toList.isEmpty then do
      inWorld (World.onDisk (DiskM.change (·.makeDirectories savePath.parent)))
      inWorld (World.onDisk (DiskM.change
        (·.write savePath ("\n".intercalate s.kept.toList ++ "\n").toUTF8)))
      say (s!"Saved {s.kept.toList.length} statements to " ++ savePath.text)
    else pure ()) s := rfl
  rw [unfolded] at saved
  split at saved
  · obtain ⟨_, made, directories, saved⟩ := bind_eq_ok.mp saved
    obtain ⟨_, written, file, said⟩ := bind_eq_ok.mp saved
    cases said
    obtain ⟨-, kept⟩ := change_eq_ok directories
    obtain ⟨content, kept'⟩ := change_eq_ok file
    exact ⟨kept'.trans kept, fun _ => Disk.read_of_write content⟩
  · rename_i nothing
    cases saved
    exact ⟨rfl, fun some => absurd (by simpa using nothing) some⟩

theorem parsed_commentsOf {sts : List Statement} (parsed : ∀ st ∈ sts, Script.Parsed st) :
    (∀ st ∈ (commentsOf sts).1, Script.Parsed st) ∧ (commentsOf sts).2.Parsed := by
  induction sts with
  | nil => exact ⟨List.forall_mem_nil _, trivial⟩
  | cons s later ih =>
    obtain ⟨first, others⟩ := List.forall_mem_cons.mp parsed
    unfold commentsOf
    split
    · exact ⟨List.forall_mem_cons.mpr ⟨first, (ih others).1⟩, (ih others).2⟩
    · exact ⟨List.forall_mem_nil _, parsed⟩

theorem parsed_keptOf (text : String) :
    (∀ st ∈ (keptOf text).1, Script.Parsed st) ∧ (keptOf text).2.Parsed := by
  have nothing : ∀ st ∈ ([] : List Statement), Script.Parsed st := List.forall_mem_nil _
  unfold keptOf
  split
  · exact ⟨nothing, trivial⟩
  · split
    · exact ⟨nothing, trivial⟩
    · split
      · exact ⟨nothing, trivial⟩
      · cases read : Script.parse text with
        | error e => exact ⟨nothing, trivial⟩
        | ok script => exact parsed_commentsOf fun st listed => ⟨text, script, read, listed⟩

theorem parsed_keptBy {awaiting : Awaiting} (parsed : awaiting.Parsed) (line : String) :
    (∀ st ∈ (keptBy line awaiting).1, Script.Parsed st) ∧ (keptBy line awaiting).2.Parsed := by
  cases awaiting with
  | statement => exact parsed_keptOf line
  | continuation text => exact parsed_keptOf _
  | keeping s later =>
    obtain ⟨first, others⟩ := List.forall_mem_cons.mp parsed
    obtain ⟨comments, next⟩ := parsed_commentsOf others
    rw [keptBy]
    refine ⟨List.forall_mem_append.mpr ⟨?_, comments⟩, next⟩
    split
    · exact List.forall_mem_singleton.mpr first
    · exact List.forall_mem_nil _
  | nothing => exact ⟨List.forall_mem_nil _, trivial⟩

theorem parsed_keptFrom (awaiting : Awaiting) (parsed : awaiting.Parsed) (lines : List String) :
    ∀ st ∈ keptFrom awaiting lines, Script.Parsed st := by
  induction lines generalizing awaiting with
  | nil => cases awaiting <;> exact List.forall_mem_nil _
  | cons line later ih =>
    have heard := parsed_keptBy parsed line
    cases awaiting with
    | nothing => exact List.forall_mem_nil _
    | _ => exact List.forall_mem_append.mpr ⟨heard.1, ih _ heard.2⟩

theorem readScript_eq_ok {d : Disk} {path : Path} {source : String} {script : Script}
    (content : d.read path = .ok source.toUTF8) (read : Script.parse source = .ok script) :
    Invocation.readScript d path = .ok (.ok ⟨path, script⟩) := by
  simp only [Invocation.readScript, content, Disk.fromUTF8?_toUTF8, read]

/-- Statements that were read, from whatever scripts, are read again from their displays, one on each line,
and so is what a sitting has saved: the comments that the user typed, and the statements said yes to. -/
theorem displays_reread :
    (∀ sts : List Statement, (∀ st ∈ sts, Script.Parsed st) →
      ∃ script, Script.parse ("\n".intercalate (sts.map Statement.display)) = .ok script ∧
        script.statements.map (·.form) = sts.map (·.form)) ∧
    ∀ {σ η ν : Type} (host : Host σ η ν) (settings : Settings) (savePath : Path) (lines : List String)
      (s t : Sitting σ η ν), s.kept = #[] → hold host settings savePath lines s = .ok () t →
      t.kept.toList = (keptFrom .statement lines).map Statement.display ∧
      (keptFrom .statement lines ≠ [] →
        ∃ script, Invocation.readScript t.world.disk savePath = .ok (.ok ⟨savePath, script⟩) ∧
          script.statements.map (·.form) = (keptFrom .statement lines).map (·.form)) := by
  constructor
  · intro sts parsed
    obtain ⟨script, read, forms⟩ := Script.parse_displays "" parsed (Or.inl rfl)
    rw [String.append_empty] at read
    exact ⟨script, read, forms⟩
  · intro σ η ν host settings savePath lines s t fresh ended
    obtain ⟨_, greeted, greeting, ended⟩ := bind_eq_ok.mp ended
    obtain ⟨begun, asked, asking, ended⟩ := bind_eq_ok.mp ended
    obtain ⟨before, -⟩ := adds_inWorld _ s _ greeted greeting
    obtain ⟨before', rfl⟩ := adds_proceed [] greeted begun asked asking
    obtain ⟨u, after, saved⟩ := saved_of_converse ended
    obtain ⟨kept, content⟩ := read_of_save saved
    have all : u.kept.toList = (keptFrom .statement lines).map Statement.display := by
      rw [after, before', before, fresh]
      rfl
    rw [all] at content
    refine ⟨kept ▸ all, fun some => ?_⟩
    have parsed := parsed_keptFrom .statement trivial lines
    obtain ⟨script, read, forms⟩ := Script.parse_displays "\n" parsed (Or.inr ⟨some, rfl⟩)
    exact ⟨script, readScript_eq_ok (content (by simpa using some)) read, forms⟩

/-- A browser whose page refuses all requests. -/
def deafHost : Host Unit Unit Unit where
  launcher :=
    { page :=
        { perform := fun _ _ s => ⟨.error "nobody is here", [], s⟩
          sleep := fun _ _ s => ([], s)
          levels := fun _ => 0 }
      launch? := fun _ _ _ => none
      setViewport := fun _ _ s => (s, [])
      close := fun _ => [] }
  homes := { own := ⟨.slash, []⟩, ofUser? := fun _ => none }
  now := fun _ => ⟨2024, 1, 2, 3, 4, 5, 0⟩
  token := "token"

def colourLines : List String := ["# colours", "save \"red\" as colour", "y"]

/-- Two statements are read again in another order than that in which they were written, and a sitting
saves one of them that was said yes to, below a comment. -/
theorem displays_reread_colours :
    (∃ script, Script.parse "save \"red\" as colour\n# colours" = .ok script ∧
      script.statements.map (·.form) = [.save "red" "colour", .comment "# colours"]) ∧
    ∃ (t : Sitting Unit Unit Unit) (script : Script),
      hold deafHost {} (Path.ofString "colours.txt") colourLines
        { world := { disk := {} }, run := { session := { page := () } } } = .ok () t ∧
      Invocation.readScript t.world.disk (Path.ofString "colours.txt") =
        .ok (.ok ⟨Path.ofString "colours.txt", script⟩) ∧
      script.statements.map (·.form) = [.comment "# colours", .save "red" "colour"] := by
  have written : Script.parse "# colours\nsave \"red\" as colour" =
      .ok (.ofStatements [⟨.comment "# colours", 1⟩, ⟨.save "red" "colour", 2⟩]) :=
    Script.parse_eq_ok.mpr (by decide +kernel)
  constructor
  · have parsed : ∀ st ∈ [⟨.save "red" "colour", 2⟩, ⟨.comment "# colours", 1⟩], Script.Parsed st := by
      intro st listed
      refine ⟨_, _, written, ?_⟩
      simpa [Script.ofStatements, or_comm] using listed
    exact displays_reread.1 _ parsed
  · have ends : (match hold deafHost {} (Path.ofString "colours.txt") colourLines
        { world := { disk := {} }, run := { session := { page := () } } } with
      | .ok () _ => true
      | .error _ _ => false) = true := by decide +kernel
    have kept : (keptFrom .statement colourLines).map (·.form) =
        [.comment "# colours", .save "red" "colour"] := by decide +kernel
    cases held : hold deafHost {} (Path.ofString "colours.txt") colourLines
        { world := { disk := {} }, run := { session := { page := () } } } with
    | error fault t => simp [held] at ends
    | ok _ t =>
      obtain ⟨-, reread⟩ := displays_reread.2 _ _ _ _ _ t rfl held
      have some : keptFrom .statement colourLines ≠ [] := by
        intro none
        simp [none] at kept
      obtain ⟨script, read, forms⟩ := reread some
      exact ⟨t, script, rfl, read, forms.trans kept⟩

end Sitting
end Walkthrough
