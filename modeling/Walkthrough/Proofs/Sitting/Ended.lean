import Walkthrough.Proofs.Run.Stops
import Walkthrough.Proofs.Sitting.Kept

/-!
How a sitting ends. All lines are heard, one after the other, and then what was kept is saved. Where the input ends at
a question there is a fault instead, and what was kept is lost (`not_always_saved`). Nothing else keeps a sitting from
saving but a fault in what it does itself: in a statement that a line leads to, in filing the screenshots taken
meanwhile, or in saving, each on the disk as it is by then (`Sitting.Founders`, `hold_ends`).
-/
namespace Walkthrough

open Walkthrough.Action

variable {σ η ν : Type}

def Awaiting.IsQuestion : Awaiting → Prop
  | .keeping _ _ => True
  | _ => False

/-- Screenshots cannot be filed on this disk: their directory cannot be made, or one of them cannot be written when
those before it have been. -/
inductive Report.Unfiled (output : Path) (shots : List Screenshot) (d : Disk) (f : Fault) : Prop where
  | directory (some : shots ≠ []) (refused : d.makeDirectories (output.child screenshotDir) = .error f)
  | file {begun e : Disk} {earlier later : List Screenshot} {shot : Screenshot} {paths : List Path}
      (listed : shots = earlier ++ shot :: later) (made : d.makeDirectories (output.child screenshotDir) = .ok begun)
      (written : writeAll (output.child screenshotDir) earlier begun = .ok paths e)
      (refused : e.write ((output.child screenshotDir).child shot.identifier) shot.png = .error f)

theorem Report.stopped_of_writeAll {dir : Path} {shots : List Screenshot} {d e : Disk} {f : Fault}
    (stopped : writeAll dir shots d = .error f e) :
    ∃ earlier shot later paths mid, shots = earlier ++ shot :: later ∧ writeAll dir earlier d = .ok paths mid ∧
      mid.write (dir.child shot.identifier) shot.png = .error f := by
  induction shots generalizing d with
  | nil => cases stopped
  | cons shot later ih =>
    rcases bind_eq_error.mp stopped with refused | ⟨_, mid, written, stopped⟩
    · exact ⟨[], shot, later, [], d, rfl, rfl, (DiskM.change_eq_error.mp refused).1⟩
    · rcases bind_eq_error.mp stopped with stopped | ⟨_, _, -, done⟩
      · obtain ⟨earlier, other, others, paths, last, rfl, filed, refused⟩ := ih stopped
        refine ⟨shot :: earlier, other, others, dir.child shot.identifier :: paths, last, rfl, ?_, refused⟩
        exact (bind_of_ok written).trans (bind_of_ok filed)
      · cases done

theorem Report.unfiled_of_writeScreenshots {output : Path} {shots : List Screenshot} {d e : Disk} {f : Fault}
    (stopped : writeScreenshots output shots d = .error f e) : Unfiled output shots d f := by
  unfold writeScreenshots at stopped
  cases shots with
  | nil => cases stopped
  | cons shot later =>
    rcases bind_eq_error.mp stopped with refused | ⟨_, made, directory, stopped⟩
    · exact .directory (List.cons_ne_nil _ _) (DiskM.change_eq_error.mp refused).1
    · obtain ⟨earlier, other, others, paths, last, listed, filed, refused⟩ := stopped_of_writeAll stopped
      exact .file listed (DiskM.change_eq_ok.mp directory) filed refused

namespace Sitting

variable (host : Host σ η ν) (settings : Settings) (savePath : Path)

/-- Hears lines, without an end to the sitting. -/
def hearAll : List String → Awaiting → SittingM σ η ν Awaiting
  | [], awaiting => return awaiting
  | line :: lines, awaiting => do hearAll lines (← hear host settings savePath line awaiting)

/-- What comes when no more lines are heard: what was kept is saved unless a question is left. -/
def conclude : Awaiting → SittingM σ η ν Unit
  | .keeping _ _ => throw .endOfInput
  | _ => save savePath

/-- The sitting when the user has been told what to do, and asked for a statement. -/
def greeted (s : Sitting σ η ν) : Sitting σ η ν :=
  let said := (s.world.said.push (.line "Type a statement, or `exit` to finish.")).push (.prompt "> ")
  { s with world := { s.world with said } }

/-- A fault in a statement that is carried out in this state, or in filing the screenshots taken meanwhile. -/
inductive Spoils (u : Sitting σ η ν) (st : Statement) (f : Fault) : Prop where
  | statement (breaks : (host.setup settings savePath.stem.display u.world.disk).Breaks .running st.form
      (Setup.readied st none u.run) f)
  | screenshots {failure : Option Failure} {v : Sitting σ η ν}
      (carried : carryOut host settings savePath st u = .ok failure v)
      (unfiled : Report.Unfiled savePath.parent v.run.memory.screenshots v.world.disk f)

/-- What was kept cannot be saved in this state: there is no directory for the file, or the file cannot be written. -/
inductive Unsaved (u : Sitting σ η ν) (f : Fault) : Prop where
  | directory (some : u.kept.toList ≠ []) (refused : u.world.disk.makeDirectories savePath.parent = .error f)
  | file {d : Disk} (some : u.kept.toList ≠ []) (made : u.world.disk.makeDirectories savePath.parent = .ok d)
      (refused : d.write savePath ("\n".intercalate u.kept.toList ++ "\n").toUTF8 = .error f)

/-- The sitting comes upon a fault, in the state that the lines heard so far have led to. -/
inductive Founders (lines : List String) (s : Sitting σ η ν) (f : Fault) : Prop where
  | hearing {heard later : List String} {line : String} {awaiting : Awaiting} {u : Sitting σ η ν} {st : Statement}
      {rest : List Statement} (typed : lines = heard ++ line :: later)
      (led : hearAll host settings savePath heard .statement (greeted s) = .ok awaiting u)
      (next : (keptBy line awaiting).2 = .keeping st rest) (spoils : Spoils host settings savePath u st f)
  | saving {awaiting : Awaiting} {u : Sitting σ η ν}
      (led : hearAll host settings savePath lines .statement (greeted s) = .ok awaiting u)
      (unasked : ¬awaiting.IsQuestion) (unsaved : Unsaved savePath u f)

/-- What is awaited when the user has typed all lines, or said goodbye. -/
def awaitedAfter : Awaiting → List String → Awaiting
  | awaiting, [] => awaiting
  | .nothing, _ => .nothing
  | awaiting, line :: lines => awaitedAfter (keptBy line awaiting).2 lines

variable {host settings savePath}

theorem awaitedAfter_cons {awaiting : Awaiting} (going : awaiting ≠ .nothing) (line : String)
    (lines : List String) :
    awaitedAfter awaiting (line :: lines) = awaitedAfter (keptBy line awaiting).2 lines := by
  cases awaiting with
  | nothing => exact absurd rfl going
  | _ => rfl

theorem hearAll_nothing (lines : List String) :
    hearAll host settings savePath lines .nothing = (pure .nothing : SittingM σ η ν Awaiting) := by
  induction lines with
  | nil => rfl
  | cons line later ih => exact ih

theorem hold_eq (s : Sitting σ η ν) (lines : List String) :
    hold host settings savePath lines s = converse host settings savePath .statement lines (greeted s) := rfl

theorem conclude_of_unasked {awaiting : Awaiting} (unasked : ¬awaiting.IsQuestion) :
    (conclude savePath awaiting : SittingM σ η ν Unit) = save savePath := by
  cases awaiting with
  | keeping _ _ => exact absurd trivial unasked
  | _ => rfl

theorem converse_eq (awaiting : Awaiting) (lines : List String) :
    converse host settings savePath awaiting lines =
      hearAll host settings savePath lines awaiting >>= conclude savePath := by
  induction lines generalizing awaiting with
  | nil => cases awaiting <;> rfl
  | cons line later ih =>
    by_cases closed : awaiting = .nothing
    · subst closed
      rw [hearAll_nothing]
      rfl
    · rw [converse_cons closed, hearAll, bind_assoc]
      exact congrArg (hear host settings savePath line awaiting >>= ·) (funext ih)

theorem adds_hearAll (lines : List String) (awaiting : Awaiting) :
    Adds (hearAll host settings savePath lines awaiting) (keptFrom awaiting lines)
      fun last => last = awaitedAfter awaiting lines := by
  induction lines generalizing awaiting with
  | nil =>
    have nothing : keptFrom awaiting [] = [] := by cases awaiting <;> rfl
    rw [nothing]
    exact adds_pure (by cases awaiting <;> rfl)
  | cons line later ih =>
    by_cases closed : awaiting = .nothing
    · subst closed
      rw [hearAll_nothing]
      exact adds_pure rfl
    · rw [keptFrom_cons closed, awaitedAfter_cons closed]
      refine adds_bind (adds_hear line awaiting) fun next same => ?_
      subst same
      exact ih _

theorem stopped_of_hearAll {lines : List String} {awaiting : Awaiting} {s t : Sitting σ η ν} {f : Fault}
    (stopped : hearAll host settings savePath lines awaiting s = .error f t) :
    ∃ heard line later next u, lines = heard ++ line :: later ∧
      hearAll host settings savePath heard awaiting s = .ok next u ∧
      hear host settings savePath line next u = .error f t := by
  induction lines generalizing awaiting s with
  | nil => cases stopped
  | cons line later ih =>
    rcases bind_eq_error.mp stopped with stopped | ⟨next, u, heard, stopped⟩
    · exact ⟨[], line, later, awaiting, s, rfl, rfl, stopped⟩
    · obtain ⟨before, other, others, last, v, rfl, led, stopped⟩ := ih stopped
      exact ⟨line :: before, other, others, last, v, rfl, (bind_of_ok heard).trans led, stopped⟩

theorem keep_eq (st : Statement) (u : Sitting σ η ν) :
    keep st u = .ok () { u with kept := u.kept.push st.display } := rfl

/-- What has been kept has no part in carrying out a statement. -/
theorem carryOut_keeping (st : Statement) (u : Sitting σ η ν) (kept : Array String) :
    carryOut host settings savePath st { u with kept } = match carryOut host settings savePath st u with
      | .ok failure v => .ok failure { v with kept }
      | .error f v => .error f { v with kept } := by
  unfold carryOut
  dsimp only
  split <;> rfl

theorem Spoils.of_keeping {u : Sitting σ η ν} {kept : Array String} {st : Statement} {f : Fault}
    (spoils : Spoils host settings savePath { u with kept } st f) : Spoils host settings savePath u st f := by
  cases spoils with
  | statement breaks => exact .statement breaks
  | screenshots carried unfiled =>
    rw [carryOut_keeping] at carried
    split at carried
    · next done =>
      cases carried
      exact .screenshots done unfiled
    · cases carried

theorem each_said (paths : List Path) (s : Sitting σ η ν) : ∃ t,
    (forIn paths PUnit.unit fun path _ => do
      say ("Saved screenshot " ++ path.text)
      pure (.yield PUnit.unit) : SittingM σ η ν PUnit) s = .ok PUnit.unit t := by
  induction paths generalizing s with
  | nil => exact ⟨s, rfl⟩
  | cons path later ih =>
    rw [List.forIn_cons]
    exact ih _

theorem unfiled_of_saveScreenshots {s t : Sitting σ η ν} {f : Fault}
    (stopped : saveScreenshots savePath s = .error f t) :
    Report.Unfiled savePath.parent s.run.memory.screenshots s.world.disk f := by
  rcases bind_eq_error.mp stopped with stopped | ⟨_, _, got, stopped⟩
  · cases stopped
  cases got
  rcases bind_eq_error.mp stopped with stopped | ⟨_, _, taken, stopped⟩
  · cases stopped
  cases taken
  rcases bind_eq_error.mp stopped with stopped | ⟨paths, u, -, stopped⟩
  · unfold inWorld World.onDisk at stopped
    dsimp only at stopped
    cases filed : Report.writeScreenshots savePath.parent s.run.memory.screenshots s.world.disk with
    | ok paths d => simp [filed] at stopped
    | error g d =>
      simp only [filed] at stopped
      cases stopped
      exact Report.unfiled_of_writeScreenshots filed
  · obtain ⟨v, said⟩ := each_said paths u
    rcases bind_eq_error.mp stopped with stopped | ⟨_, _, -, stopped⟩
    · cases said.symm.trans stopped
    · cases stopped

/-- A statement whose carrying out stops the sitting, with all that goes with it. -/
theorem spoils_of_attended {st : Statement} {rest : List Statement} {u t : Sitting σ η ν} {f : Fault}
    (spoken : st.isComment = false)
    (stopped : proceed host settings savePath (st :: rest) u = .error f t) : Spoils host settings savePath u st f := by
  unfold proceed at stopped
  rw [spoken, if_neg Bool.false_ne_true] at stopped
  rcases bind_eq_error.mp stopped with stopped | ⟨failure, v, carried, stopped⟩
  · unfold carryOut at stopped
    dsimp only at stopped
    split at stopped
    · cases stopped
    · cases stopped
    · next faulted =>
      cases stopped
      exact .statement (Setup.execute_eq_fault.mp ⟨_, faulted⟩)
  · have filing (text : Text.Units) (stopped : (say text >>= fun _ => saveScreenshots savePath >>= fun _ => do
          prompt "Keep this statement? [y/N] "
          return .keeping st rest : SittingM σ η ν Awaiting) v = .error f t) :
        Report.Unfiled savePath.parent v.run.memory.screenshots v.world.disk f := by
      rcases bind_eq_error.mp stopped with stopped | ⟨_, w, said, stopped⟩
      · cases stopped
      cases said
      rcases bind_eq_error.mp stopped with stopped | ⟨_, _, -, stopped⟩
      · have unfiled := unfiled_of_saveScreenshots stopped
        exact unfiled
      · cases stopped
    refine .screenshots carried ?_
    cases failure <;> exact filing _ stopped

theorem spoils_of_proceed {sts : List Statement} {u t : Sitting σ η ν} {f : Fault}
    (stopped : proceed host settings savePath sts u = .error f t) :
    ∃ st rest, (commentsOf sts).2 = .keeping st rest ∧ Spoils host settings savePath u st f := by
  induction sts generalizing u with
  | nil => cases stopped
  | cons s later ih =>
    unfold commentsOf
    cases spoken : s.isComment with
    | true =>
      unfold proceed at stopped
      rw [spoken, if_pos rfl, bind_of_ok (keep_eq s u)] at stopped
      obtain ⟨st, rest, next, spoils⟩ := ih stopped
      exact ⟨st, rest, next, spoils.of_keeping⟩
    | false => exact ⟨s, later, rfl, spoils_of_attended spoken stopped⟩

theorem spoils_of_consider {text : String} {u t : Sitting σ η ν} {f : Fault}
    (stopped : consider host settings savePath text u = .error f t) :
    ∃ st rest, (keptOf text).2 = .keeping st rest ∧ Spoils host settings savePath u st f := by
  unfold consider at stopped
  unfold keptOf
  split at stopped
  · cases stopped
  · split at stopped
    · cases stopped
    · split at stopped
      · cases stopped
      · cases read : Script.parse text with
        | error e =>
          rw [read] at stopped
          cases stopped
        | ok script =>
          rw [read] at stopped
          simpa [*] using spoils_of_proceed stopped

theorem spoils_of_hear {line : String} {awaiting : Awaiting} {u t : Sitting σ η ν} {f : Fault}
    (stopped : hear host settings savePath line awaiting u = .error f t) :
    ∃ st rest, (keptBy line awaiting).2 = .keeping st rest ∧ Spoils host settings savePath u st f := by
  cases awaiting with
  | statement => exact spoils_of_consider stopped
  | continuation text => exact spoils_of_consider stopped
  | nothing => cases stopped
  | keeping s later =>
    have heard : hear host settings savePath line (.keeping s later) =
        if isYes line then keep s >>= fun _ => proceed host settings savePath later
        else proceed host settings savePath later := rfl
    have next : (keptBy line (.keeping s later)).2 = (commentsOf later).2 := by rw [keptBy]
    rw [heard] at stopped
    rw [next]
    by_cases yes : isYes line = true
    · rw [if_pos yes, bind_of_ok (keep_eq s u)] at stopped
      obtain ⟨st, rest, next, spoils⟩ := spoils_of_proceed stopped
      exact ⟨st, rest, next, spoils.of_keeping⟩
    · rw [if_neg yes] at stopped
      exact spoils_of_proceed stopped

theorem not_stopped_of_say {text : Text.Units} {s t : Sitting σ η ν} {f : Fault} : say text s ≠ .error f t := by
  intro stopped
  cases stopped

theorem unsaved_of_save {u t : Sitting σ η ν} {f : Fault} (stopped : save savePath u = .error f t) :
    Unsaved savePath u f := by
  have unfolded : save savePath u = (if !u.kept.toList.isEmpty then do
      inWorld (World.onDisk (DiskM.change (·.makeDirectories savePath.parent)))
      inWorld (World.onDisk (DiskM.change
        (·.write savePath ("\n".intercalate u.kept.toList ++ "\n").toUTF8)))
      say (s!"Saved {u.kept.toList.length} statements to " ++ savePath.text)
    else pure ()) u := rfl
  rw [unfolded] at stopped
  split at stopped
  · next some =>
    have some : u.kept.toList ≠ [] := by simpa using some
    rcases bind_eq_error.mp stopped with stopped | ⟨_, v, made, stopped⟩
    · exact .directory some (refused_of_change stopped)
    · obtain ⟨made, -⟩ := change_eq_ok made
      rcases bind_eq_error.mp stopped with stopped | ⟨_, _, -, stopped⟩
      · exact .file some made (refused_of_change stopped)
      · exact absurd stopped not_stopped_of_say
  · cases stopped

/-- A sitting ends in one of three ways. All lines have been heard, and the file holds what was kept; or the input
has ended at a question, and what was kept is not saved; or the sitting came upon a fault in what it did. -/
theorem hold_ends (host : Host σ η ν) (settings : Settings) (savePath : Path) (lines : List String)
    (s : Sitting σ η ν) :
    (∃ t, hold host settings savePath lines s = .ok () t ∧ ¬(awaitedAfter .statement lines).IsQuestion ∧
      t.kept.toList = s.kept.toList ++ (keptFrom .statement lines).map Statement.display ∧
      (t.kept.toList ≠ [] →
        t.world.disk.read savePath = .ok ("\n".intercalate t.kept.toList ++ "\n").toUTF8)) ∨
    (∃ t, hold host settings savePath lines s = .error .endOfInput t ∧
      (awaitedAfter .statement lines).IsQuestion ∧
      t.kept.toList = s.kept.toList ++ (keptFrom .statement lines).map Statement.display) ∨
    ∃ f t, hold host settings savePath lines s = .error f t ∧ Founders host settings savePath lines s f := by
  rw [hold_eq, converse_eq]
  cases heard : hearAll host settings savePath lines .statement (greeted s) with
  | error f t =>
    obtain ⟨before, line, later, awaiting, u, typed, led, stopped⟩ := stopped_of_hearAll heard
    obtain ⟨st, rest, next, spoils⟩ := spoils_of_hear stopped
    exact Or.inr (Or.inr ⟨f, t, bind_eq_error.mpr (Or.inl heard), .hearing typed led next spoils⟩)
  | ok last u =>
    obtain ⟨kept, awaited⟩ := adds_hearAll lines .statement (greeted s) last u heard
    rw [bind_of_ok heard, ← awaited]
    by_cases asked : last.IsQuestion
    · cases last with
      | keeping st rest => exact Or.inr (Or.inl ⟨u, rfl, trivial, kept⟩)
      | _ => cases asked
    · rw [conclude_of_unasked asked]
      cases saved : save savePath u with
      | ok _ t =>
        obtain ⟨same, content⟩ := read_of_save saved
        rw [← same] at kept content
        exact Or.inl ⟨t, rfl, asked, kept, content⟩
      | error f t => exact Or.inr (Or.inr ⟨f, t, rfl, .saving heard asked (unsaved_of_save saved)⟩)

/-- A comment, and a statement that is carried out; the answer whether to keep it never comes. -/
def openLines : List String := ["# colours", "save \"red\" as colour"]

def coloursPath : Path := Path.ofString "colours.txt"

/-- Has the input ended, with a comment kept, on a disk without the file? -/
def endsUnsaved : EStateM.Result Fault (Sitting Unit Unit Unit) Unit → Bool
  | .error .endOfInput t =>
    t.kept == #["# colours"] &&
      match t.world.disk.find? coloursPath with
      | .ok none => true
      | _ => false
  | _ => false

/-- What was kept is not saved where the input ends at a question, though there is no fault with any file. -/
theorem not_always_saved :
    (keptFrom .statement openLines).map (·.form) = [.comment "# colours"] ∧
    ∃ t, hold deafHost {} coloursPath openLines
        { world := { disk := {} }, run := { session := { page := () } } } = .error .endOfInput t ∧
      t.kept = #["# colours"] ∧ t.world.disk.find? coloursPath = .ok none := by
  refine ⟨by decide +kernel, ?_⟩
  have ends : endsUnsaved (hold deafHost {} coloursPath openLines
      { world := { disk := {} }, run := { session := { page := () } } }) = true := by decide +kernel
  cases held : hold deafHost {} coloursPath openLines
      { world := { disk := {} }, run := { session := { page := () } } } with
  | ok _ t => simp [held, endsUnsaved] at ends
  | error f t =>
    rw [held] at ends
    unfold endsUnsaved at ends
    split at ends
    · rename_i same
      cases same
      rw [Bool.and_eq_true, beq_iff_eq] at ends
      refine ⟨_, rfl, ends.1, ?_⟩
      have missing := ends.2
      split at missing
      · assumption
      · cases missing
    · cases ends

end Sitting
end Walkthrough
