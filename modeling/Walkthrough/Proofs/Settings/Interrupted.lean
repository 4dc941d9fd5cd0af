import Walkthrough.Proofs.File.Faults
import Walkthrough.Proofs.File.Temporary
import Walkthrough.Settings.Saving

/-!
Saves that are interrupted. A save comes to its steps one after the other (`Comes`). Where one of them fails, for
whatever reason, this is reported and every file is as before; a stop there can leave the file for the new text as
well (`save_settles`). In each case the path of the settings leads to what it held before or to the whole new text.
Only a path that cannot be used is not reported: that ends the program.
-/
namespace Walkthrough

open Text (Units spell)

theorem FileName.octets_of_dot {u : Units} {name : FileName} (named : ofUnits? ("." ++ u) = some name) :
    ∃ back, ofUnits? u = some back ∧ name.octets = 0x2E :: back.octets := by
  have symbols : (Units.ofString "." ++ u).symbols = .char '.' :: u.symbols := by
    have whole : (Units.ofString "." ++ u).symbols = spell 0x2E u.symbols := rfl
    rw [whole]
    unfold spell
    split
    · rename_i starts
      rw [starts]
      rfl
    · rfl
  obtain ⟨octets, spelt, joined⟩ := ofUnits?_eq_some.mp named
  rw [symbols, List.mapM_cons] at spelt
  obtain ⟨first, dot, spelt⟩ := Option.bind_eq_some_iff.mp spelt
  obtain ⟨later, rest, done⟩ := Option.bind_eq_some_iff.mp spelt
  cases dot
  cases done
  exact ⟨⟨later.flatten⟩, ofUnits?_eq_some.mpr ⟨later, rest, rfl⟩, joined⟩

namespace Settings

theorem name_temporary (here : Place) (p : Path) (token : String) :
    (temporary here p token).name = "." ++ p.name ++ Units.ofString ("." ++ token ++ ".tmp") := by
  rw [Units.ofString_append, Units.ofString_append]
  simp [temporary, Path.name, Path.join, Path.isAbsolute]

theorem octets_temporary {here : Place} {p : Path} {token : String} {name : FileName}
    (named : FileName.ofUnits? (temporary here p token).name = some name) :
    ∃ own, FileName.ofUnits? p.name = some own ∧
      name.octets = 0x2E :: own.octets ++ (FileName.ofString ("." ++ token ++ ".tmp")).octets := by
  rw [name_temporary] at named
  have begins : (Units.ofString ("." ++ token ++ ".tmp")).symbols =
      .char '.' :: (token ++ ".tmp").toList.map .char := by
    rw [Units.symbols_ofString, String.append_assoc, String.toList_append]
    rfl
  obtain ⟨front, back, first, second, octets⟩ := FileName.octets_append begins named
  obtain ⟨own, spelt, dotted⟩ := FileName.octets_of_dot first
  rw [FileName.ofUnits?_ofString] at second
  cases second
  exact ⟨own, spelt, octets.trans (by rw [dotted])⟩

/-- The file for the new text is none that the path can lead to. -/
theorem differ_temporary {here : Place} {p : Path} {token : String} {name : FileName}
    (named : FileName.ofUnits? (temporary here p token).name = some name) :
    name ≠ .ofString ".." ∧ FileName.ofUnits? p.name ≠ some name := by
  obtain ⟨own, spelt, octets⟩ := octets_temporary named
  have long : 2 ≤ (FileName.ofString ("." ++ token ++ ".tmp")).octets.length := by
    rw [FileName.ofString, String.append_assoc, String.toList_append, String.toList_append, List.flatMap_append,
      List.flatMap_append, List.length_append, List.length_append]
    have dot : (".".toList.flatMap String.utf8EncodeChar).length = 1 := by decide
    have ending : (".tmp".toList.flatMap String.utf8EncodeChar).length = 4 := by decide
    omega
  have longer : own.octets.length + 2 < name.octets.length := by
    rw [octets, List.length_append, List.length_cons]
    omega
  constructor
  · rintro rfl
    have short : (FileName.ofString "..").octets.length = 2 := by decide
    omega
  · rw [spelt]
    intro same
    cases same
    omega

/-- Where a file for the new text can be made, the path itself can be used. -/
theorem names_of_temporary {d : Disk} {here : Place} {p : Path} {token : String} {made : Disk} {names : List FileName}
    (making : d.makeDirectories p.parent = .ok made) (named : (temporary here p token).names = .ok names) :
    ∃ names, p.names = .ok names := by
  obtain ⟨parents, parent, -⟩ := Except.bind_eq_ok.mp making
  obtain ⟨front, step, steps⟩ : ∃ front step, (temporary here p token).steps = front ++ [step] := ⟨_, _, rfl⟩
  obtain ⟨before, name, rfl, -, -, clean⟩ := (Disk.names_of_concat steps).mp named
  obtain ⟨own, spelt, octets⟩ := octets_temporary (Disk.name_of_names named)
  refine Disk.names_of_parent parent spelt fun null => clean ?_
  rw [octets]
  exact List.mem_append_left _ (List.mem_cons_of_mem _ null)

/-- What a save leaves on a disk, by how it ends. -/
inductive Leaves (d : Disk) (p : Path) (new : ByteArray) (e : Disk) : SaveEnd → Prop where
  | saved {place : Place} (leads : e.place p = .ok place) (whole : e.file? place = some new)
      (others : ∀ other, other ≠ place → e.file? other = d.file? other) : Leaves d p new e .saved
  | failed {error : SystemError} (files : ∀ place, e.file? place = d.file? place) : Leaves d p new e (.failed error)
  | stopped (files : ∀ place, e.file? place = d.file? place) : Leaves d p new e .stopped
  /-- A stop can leave the file for the new text, which is none that was there. -/
  | torn {spot : Place} {n : Nat} (free : d.item? spot = none) (part : e.file? spot = some (new.extract 0 n))
      (apart : e.place p ≠ .ok spot) (others : ∀ other, other ≠ spot → e.file? other = d.file? other) :
      Leaves d p new e .stopped

/-- What a step of a save does, with the new text and the path of the file for it. -/
def SaveStep.act (p spot : Path) (new : ByteArray) : SaveStep → Disk → Except Fault Disk
  | .makeDirectory, d => d.makeDirectories p.parent
  | .create, d => d.create spot
  | .write, d => d.write spot new
  | .replace, d => d.replace spot p

def SaveStep.before : SaveStep → List SaveStep
  | .makeDirectory => []
  | .create => [.makeDirectory]
  | .write => [.makeDirectory, .create]
  | .replace => [.makeDirectory, .create, .write]

/-- A save comes to a step, on this disk: nothing went wrong at the steps before. -/
structure Comes (m : Option Mishap) (d : Disk) (p : Path) (token : String) (new : ByteArray) (step : SaveStep)
    (e : Disk) : Prop where
  unharmed : ∀ mishap, m = some mishap → mishap.step ∉ step.before
  done : step.before.foldlM (fun disk earlier => earlier.act p (temporary d.here p token) new disk) d = .ok e

/-- A step fails: an error is met there, or else the disk gives reason for one. -/
inductive Errs (m : Option Mishap) (step : SaveStep) (result : Except Fault Disk) (error : SystemError) : Prop where
  | met {mishap : Mishap} (met : m = some mishap) (here : mishap.step = step) (given : mishap.error = some error)
  | disk (unmet : ∀ mishap, m = some mishap → mishap.step ≠ step) (refused : result = .error (.system error))

/-- Why a save ends as it does. -/
inductive Reason (m : Option Mishap) (d : Disk) (p : Path) (token : String) (new : ByteArray) : SaveEnd → Prop where
  | saved {e done : Disk} (calm : m = none) (comes : Comes m d p token new .replace e)
      (moved : SaveStep.replace.act p (temporary d.here p token) new e = .ok done) : Reason m d p token new .saved
  | failed {step : SaveStep} {e : Disk} {error : SystemError} (comes : Comes m d p token new step e)
      (errs : Errs m step (step.act p (temporary d.here p token) new e) error) :
      Reason m d p token new (.failed error)
  | stopped {step : SaveStep} {e : Disk} {mishap : Mishap} (comes : Comes m d p token new step e)
      (met : m = some mishap) (here : mishap.step = step) (stops : mishap.error = none) :
      Reason m d p token new .stopped

structure Ends (m : Option Mishap) (d : Disk) (p : Path) (token : String) (new : ByteArray) (e : Disk)
    (ending : SaveEnd) : Prop where
  reason : Reason m d p token new ending
  leads : ∀ place, d.place p = .ok place → e.place p = .ok place
  holds : ∀ place, e.place p = .ok place → e.file? place = d.file? place ∨ e.file? place = some new
  leaves : Leaves d p new e ending

/-- The path cannot be used: no names are spelt, or too many directories are missing. -/
def Unusable (d : Disk) (p : Path) (token : String) (fault : Fault) : Prop :=
  d.makeDirectories p.parent = .error fault ∨ (temporary d.here p token).names = .error fault

inductive Settles (m : Option Mishap) (d : Disk) (p : Path) (token : String) (s : Settings) :
    Except Fault (Disk × SaveEnd) → Prop where
  | ends {e : Disk} {ending : SaveEnd} (ends : Ends m d p token s.text.toUTF8 e ending) :
      Settles m d p token s (.ok (e, ending))
  | unusable {step : SaveStep} {e : Disk} {fault : Fault} (comes : Comes m d p token s.text.toUTF8 step e)
      (unmet : ∀ mishap, m = some mishap → mishap.step ≠ step)
      (faulted : step.act p (temporary d.here p token) s.text.toUTF8 e = .error fault)
      (other : ∀ error, fault ≠ .system error) (unusable : Unusable d p token fault) :
      Settles m d p token s (.error fault)

variable {m : Option Mishap} {d e : Disk} {p : Path} {token : String} {s : Settings} {new : ByteArray}

theorem Leaves.holds {ending : SaveEnd} {place : Place} (leaves : Leaves d p new e ending)
    (placed : e.place p = .ok place) : e.file? place = d.file? place ∨ e.file? place = some new := by
  cases leaves with
  | saved leads whole others =>
    cases leads.symm.trans placed
    exact Or.inr whole
  | failed files | stopped files => exact Or.inl (files place)
  | torn free part apart others =>
    refine Or.inl (others place ?_)
    rintro rfl
    exact apart placed

theorem Leaves.ends {ending : SaveEnd} (leaves : Leaves d p new e ending) (keeps : d.Keeps e)
    (reason : Reason m d p token new ending) : Ends m d p token new e ending :=
  ⟨reason, fun _ => keeps.place, fun _ => leaves.holds, leaves⟩

/-- A step fails, or the program stops there, or the names are at fault, or it goes on. -/
theorem attempt_rule {step : SaveStep} {back stopped : Disk} {act : Except Fault Disk}
    {next : Disk → Except Fault (Disk × SaveEnd)} {Q : Except Fault (Disk × SaveEnd) → Prop}
    (failed : ∀ error, Errs m step act error → Q (.ok (back, .failed error)))
    (halted : ∀ mishap, m = some mishap → mishap.step = step → mishap.error = none → Q (.ok (stopped, .stopped)))
    (faulty : ∀ fault, (∀ mishap, m = some mishap → mishap.step ≠ step) → act = .error fault →
      (∀ error, fault ≠ .system error) → Q (.error fault))
    (goes : ∀ d, (∀ mishap, m = some mishap → mishap.step ≠ step) → act = .ok d → Q (next d)) :
    Q (attempt m step back stopped act next) := by
  unfold attempt
  split
  · next found =>
    obtain ⟨met, here⟩ := Option.filter_eq_some_iff.mp found
    exact failed _ (.met met (of_decide_eq_true here) rfl)
  · next found =>
    obtain ⟨met, here⟩ := Option.filter_eq_some_iff.mp found
    exact halted _ met (of_decide_eq_true here) rfl
  · next found =>
    have unmet (mishap : Mishap) (met : m = some mishap) : mishap.step ≠ step := by
      simpa [met] using found
    split
    · exact goes _ unmet rfl
    · exact failed _ (.disk unmet rfl)
    · next fault other => exact faulty fault unmet rfl other

theorem widens_makeSome (sound : d.Sound) (p : Path) (n : Nat) : d.Widens (makeSome d p n) := by
  unfold makeSome
  cases made : d.makeDirectories { p with steps := p.steps.take n } with
  | ok wider => exact Disk.widens_of_makeDirectories sound made
  | error fault => exact .same

section

variable {step : SaveStep} {at' : Disk} (comes : Comes m d p token s.text.toUTF8 step at')
include comes

/-- A save that fails has only made directories by then. -/
theorem settles_of_failed (keeps : d.Keeps e) (files : ∀ place, e.file? place = d.file? place) (error : SystemError)
    (errs : Errs m step (step.act p (temporary d.here p token) s.text.toUTF8 at') error) :
    Settles m d p token s (.ok (e, .failed error)) :=
  .ends ((Leaves.failed files).ends keeps (.failed comes errs))

theorem settles_of_stopped (keeps : d.Keeps e) (files : ∀ place, e.file? place = d.file? place) (mishap : Mishap)
    (met : m = some mishap) (here : mishap.step = step) (stops : mishap.error = none) :
    Settles m d p token s (.ok (e, .stopped)) :=
  .ends ((Leaves.stopped files).ends keeps (.stopped comes met here stops))

variable {made : Disk} {spot : Place}
variable (sound : d.Sound) (wider : d.Widens made)
variable (placed : made.place (temporary d.here p token) = .ok spot) (free : made.item? spot = none)

omit comes in
include wider free in
theorem free_before : d.item? spot = none := by
  cases found : d.item? spot with
  | none => rfl
  | some there => cases free.symm.trans (wider.item? found)

include wider free

/-- Once the file for the new text is removed, the disk is as before. -/
theorem settles_of_removed (beside : Disk.Beside made spot none e) (error : SystemError)
    (errs : Errs m step (step.act p (temporary d.here p token) s.text.toUTF8 at') error) :
    Settles m d p token s (.ok (e, .failed error)) := by
  refine settles_of_failed comes (wider.keeps.trans (beside.keeps (by simp [free]))) (fun place => ?_) error errs
  rw [beside.file?_of_none free, wider.file?]

include sound placed

/-- Until it takes its place, the new text is in a file of its own. -/
theorem settles_of_torn {n : Nat} (beside : Disk.Beside made spot (some (.file (s.text.toUTF8.extract 0 n))) e)
    (mishap : Mishap) (met : m = some mishap) (here : mishap.step = step) (stops : mishap.error = none) :
    Settles m d p token s (.ok (e, .stopped)) := by
  refine .ends (Leaves.ends (.torn (free_before wider free) (Disk.file?_of_item beside.own) ?_ fun other apart => ?_)
    (wider.keeps.trans (beside.keeps (by simp [free]))) (.stopped comes met here stops))
  · intro leads
    have reaches := (beside.keeps_back (by simp)).place leads
    exact Disk.apart_of_names (wider.sound sound) placed free reaches (fun _ => differ_temporary) rfl
  · rw [Disk.file?_congr (beside.others other apart), wider.file?]

end

namespace Comes

variable {one other : SaveStep} {reached reached' : Disk}

/-- What a save comes to after a step that went well. -/
theorem next (comes : Comes m d p token new one reached) (other : SaveStep)
    (unmet : ∀ mishap, m = some mishap → mishap.step ≠ one)
    (done : one.act p (temporary d.here p token) new reached = .ok e)
    (onward : other.before = one.before ++ [one]) : Comes m d p token new other e := by
  constructor
  · intro mishap met listed
    rw [onward, List.mem_append, List.mem_singleton] at listed
    exact listed.elim (comes.unharmed mishap met) (unmet mishap met)
  · rw [onward, List.foldlM_append]
    exact Except.bind_eq_ok.mpr ⟨reached, comes.done, Except.bind_eq_ok.mpr ⟨e, done, rfl⟩⟩

/-- The save does not go on from the step. -/
def Blocked (m : Option Mishap) (step : SaveStep) (result : Except Fault Disk) : Prop :=
  (∃ mishap, m = some mishap ∧ mishap.step = step) ∨ ∃ fault, result = .error fault

theorem not_before (comes : Comes m d p token new one reached) (later : Comes m d p token new other reached')
    (blocked : Blocked m one (one.act p (temporary d.here p token) new reached)) : one ∉ other.before := by
  intro listed
  rcases blocked with ⟨mishap, met, rfl⟩ | ⟨fault, failed⟩
  · exact later.unharmed mishap met listed
  · obtain ⟨rest, split⟩ : ∃ rest, other.before = one.before ++ one :: rest := by
      cases one <;> cases other <;> simp [SaveStep.before] at listed ⊢
    have done := later.done
    rw [split, List.foldlM_append] at done
    obtain ⟨_, passed, done⟩ := Except.bind_eq_ok.mp done
    cases passed.symm.trans comes.done
    obtain ⟨_, done, -⟩ := Except.bind_eq_ok.mp done
    cases done.symm.trans failed

/-- A save is blocked at one step only. -/
theorem unique (comes : Comes m d p token new one reached) (comes' : Comes m d p token new other reached')
    (blocked : Blocked m one (one.act p (temporary d.here p token) new reached))
    (blocked' : Blocked m other (other.act p (temporary d.here p token) new reached')) :
    one = other ∧ reached = reached' := by
  have ordered : one ∈ other.before ∨ other ∈ one.before ∨ one = other := by
    cases one <;> cases other <;> simp [SaveStep.before]
  rcases ordered with earlier | earlier | rfl
  · exact absurd earlier (comes.not_before comes' blocked)
  · exact absurd earlier (comes'.not_before comes blocked')
  · exact ⟨rfl, Except.ok.inj (comes.done.symm.trans comes'.done)⟩

end Comes

theorem Errs.blocked {step : SaveStep} {result : Except Fault Disk} {error : SystemError}
    (errs : Errs m step result error) : Comes.Blocked m step result := by
  cases errs with
  | met met here given => exact Or.inl ⟨_, met, here⟩
  | disk unmet refused => exact Or.inr ⟨_, refused⟩

theorem Errs.unique {step : SaveStep} {result : Except Fault Disk} {error error' : SystemError}
    (errs : Errs m step result error) (errs' : Errs m step result error') : error = error' := by
  cases errs with
  | met met here given =>
    cases errs' with
    | met met' here' given' =>
      cases met.symm.trans met'
      exact Option.some.inj (given.symm.trans given')
    | disk unmet refused => exact absurd here (unmet _ met)
  | disk unmet refused =>
    cases errs' with
    | met met here given => exact absurd here (unmet _ met)
    | disk unmet' refused' =>
      cases refused.symm.trans refused'
      rfl

/-- A step that fails is reported, and every file is as before. -/
theorem Settles.failed {step : SaveStep} {reached : Disk} {error : SystemError}
    {result : Except Fault (Disk × SaveEnd)} (settles : Settles m d p token s result)
    (comes : Comes m d p token s.text.toUTF8 step reached)
    (errs : Errs m step (step.act p (temporary d.here p token) s.text.toUTF8 reached) error) :
    ∃ e, result = .ok (e, .failed error) ∧ ∀ place, e.file? place = d.file? place := by
  cases settles with
  | unusable comes' unmet faulted other =>
    obtain ⟨rfl, rfl⟩ := comes.unique comes' errs.blocked (Or.inr ⟨_, faulted⟩)
    cases errs with
    | met met here given => exact absurd here (unmet _ met)
    | disk unmet' refused =>
      cases faulted.symm.trans refused
      exact absurd rfl (other error)
  | @ends e ending ends =>
    obtain ⟨reason, -, -, leaves⟩ := ends
    cases reason with
    | saved calm comes' moved =>
      -- All steps went well, that one too.
      have among : step ∈ SaveStep.replace.before ∨ step = .replace := by cases step <;> simp [SaveStep.before]
      rcases among with earlier | rfl
      · exact absurd earlier (comes.not_before comes' errs.blocked)
      · cases Except.ok.inj (comes.done.symm.trans comes'.done)
        cases errs with
        | met met here given => cases calm.symm.trans met
        | disk unmet refused => cases moved.symm.trans refused
    | failed comes' errs' =>
      obtain ⟨rfl, rfl⟩ := comes.unique comes' errs.blocked errs'.blocked
      cases errs.unique errs'
      cases leaves with
      | failed files => exact ⟨e, rfl, files⟩
    | stopped comes' met here stops =>
      obtain ⟨rfl, rfl⟩ := comes.unique comes' errs.blocked (Or.inl ⟨_, met, here⟩)
      cases errs with
      | met met' here' given =>
        cases met.symm.trans met'
        cases given.symm.trans stops
      | disk unmet refused => exact absurd here (unmet _ met)

theorem settles_of_save (sound : d.Sound) (m : Option Mishap) (p : Path) (token : String) (s : Settings) :
    Settles m d p token s (save m d p token s) := by
  have begun : d.Widens ((m.map fun mishap => makeSome d p.parent mishap.made).getD d) := by
    cases m with
    | none => exact .same
    | some mishap => exact widens_makeSome sound p.parent mishap.made
  have first : Comes m d p token s.text.toUTF8 .makeDirectory d := ⟨fun _ _ listed => (List.not_mem_nil listed).elim, rfl⟩
  refine attempt_rule (settles_of_failed first begun.keeps begun.file?) (settles_of_stopped first begun.keeps begun.file?)
    (fun fault unmet stopped other => .unusable first unmet stopped other (Or.inl stopped)) fun made unmet making => ?_
  have second := first.next .create unmet making rfl
  have wider := Disk.widens_of_makeDirectories sound making
  refine attempt_rule (settles_of_failed second wider.keeps wider.file?) (settles_of_stopped second wider.keeps wider.file?)
    (fun fault unmet stopped other =>
      .unusable second unmet stopped other (Or.inr ((Disk.create_eq_error stopped).names other)))
    fun created unmade creating => ?_
  have third := second.next .write unmade creating rfl
  obtain ⟨spot, placed, free, beside⟩ := Disk.beside_of_create creating
  have removed {e : Disk} {item : Option Item} (beside : Disk.Beside made spot item e) :=
    Disk.beside_of_remove placed free beside
  refine attempt_rule (settles_of_removed third wider free (removed beside)) ?_
    (fun fault unmet stopped other =>
      .unusable third unmet stopped other (Or.inr ((Disk.write_eq_error stopped).names other)))
    fun written uncreated writing => ?_
  · -- The octets that were written by then are the first ones of the text.
    obtain ⟨n, partly⟩ : ∃ n, ((m.map (·.written)).map fun n => s.text.toUTF8.extract 0 n).getD .empty =
        s.text.toUTF8.extract 0 n := by
      cases m with
      | none => exact ⟨0, by simp⟩
      | some mishap => exact ⟨mishap.written, rfl⟩
    rw [partly]
    cases writing : created.write (temporary d.here p token) (s.text.toUTF8.extract 0 n) with
    | ok torn => exact settles_of_torn third sound wider placed free (Disk.beside_of_write placed free beside writing)
    | error fault =>
      have nothing : ByteArray.empty = s.text.toUTF8.extract 0 0 := by simp
      rw [nothing] at beside
      exact settles_of_torn third sound wider placed free beside
  · have whole := Disk.beside_of_write placed free beside writing
    have all : s.text.toUTF8 = s.text.toUTF8.extract 0 s.text.toUTF8.size := ByteArray.extract_zero_size.symm
    have fourth := third.next .replace uncreated writing rfl
    refine attempt_rule (settles_of_removed fourth wider free (removed whole))
      (settles_of_torn fourth sound wider placed free (all ▸ whole)) (fun fault unmet stopped other => ?_)
      fun done unwritten moving => ?_
    · obtain unnamed | unnamed := Disk.replace_eq_error stopped other
      · exact .unusable fourth unmet stopped other (Or.inr unnamed)
      · obtain ⟨_, named, -⟩ := Disk.place_eq_ok.mp placed
        obtain ⟨names, usable⟩ := names_of_temporary making named
        cases unnamed.symm.trans usable
    · -- A mishap would have been met at one of the four steps.
      have calm : m = none := by
        cases m with
        | none => rfl
        | some mishap =>
          cases step : mishap.step with
          | makeDirectory => exact absurd step (unmet mishap rfl)
          | create => exact absurd step (unmade mishap rfl)
          | write => exact absurd step (uncreated mishap rfl)
          | replace => exact absurd step (unwritten mishap rfl)
      obtain ⟨keeps, place, leads, held, others⟩ := Disk.moved_of_replace placed free whole moving
      refine .ends (Leaves.ends (.saved leads held fun other apart => ?_) (wider.keeps.trans keeps)
        (.saved calm fourth moving))
      rw [others other apart, wider.file?]

/-- However a save is interrupted, the path leads to what it held before or to the new text, and all other files are
as before, but for the file of the new text where the program was stopped. Where a step fails, whichever it is, the
error is reported and all files are as before. -/
theorem save_settles (sound : d.Sound) (m : Option Mishap) (p : Path) (token : String) (s : Settings) :
    Settles m d p token s (save m d p token s) ∧
      ∀ step reached error, Comes m d p token s.text.toUTF8 step reached →
        Errs m step (step.act p (temporary d.here p token) s.text.toUTF8 reached) error →
          ∃ e, save m d p token s = .ok (e, .failed error) ∧ ∀ place, e.file? place = d.file? place := by
  have settles := settles_of_save sound m p token s
  exact ⟨settles, fun _ _ _ comes errs => settles.failed comes errs⟩

/-- A disk with settings on it. -/
def oldDisk : Disk := { items := [(#[.ofString "c.json"], .file ⟨#[0x7B, 0x7D]⟩)] }

theorem sound_old : oldDisk.Sound where
  here := rfl
  inside place item found := by
    by_cases file : place = #[.ofString "c.json"]
    · rw [file]
      rfl
    · by_cases root : place = #[]
      · rw [root]
        rfl
      · have other : (place == #[.ofString "c.json"]) = false := by simpa using file
        simp [Disk.item?, oldDisk, root, other, List.lookup_cons] at found

def busyError : SystemError := { number := .busy, path := "c.json" }

/-- The program stops when three octets are written, or else that is an error. -/
theorem save_settles_torn : oldDisk.Sound ∧
    Settles (some { step := .write, written := 3 }) oldDisk (Path.ofString "c.json") "x" {}
      (save (some { step := .write, written := 3 }) oldDisk (Path.ofString "c.json") "x" {}) ∧
    ∃ e, save (some { step := .write, written := 3, error := some busyError }) oldDisk (Path.ofString "c.json") "x" {} =
        .ok (e, .failed busyError) ∧ ∀ place, e.file? place = oldDisk.file? place := by
  refine ⟨sound_old, (save_settles sound_old _ _ _ _).1, ?_⟩
  obtain ⟨made, making⟩ : ∃ made, oldDisk.makeDirectories (Path.ofString "c.json").parent = .ok made := ⟨_, rfl⟩
  obtain ⟨created, creating⟩ : ∃ created,
      made.create (temporary oldDisk.here (Path.ofString "c.json") "x") = .ok created := by
    cases making
    exact ⟨_, rfl⟩
  refine (save_settles sound_old _ _ _ _).2 .write created _ ⟨?_, ?_⟩ (.met rfl rfl rfl)
  · rintro mishap ⟨⟩
    decide
  · exact Except.bind_eq_ok.mpr ⟨made, making, Except.bind_eq_ok.mpr ⟨created, creating, rfl⟩⟩

/-- A null character in a path is not reported as what keeps the settings from being saved. -/
theorem not_always_complained : ¬∀ (d : Disk) (p : Path) (token : String) (s : Settings), d.Sound →
    ∃ e ending, save none d p token s = .ok (e, ending) := by
  intro always
  obtain ⟨e, ending, saved⟩ := always oldDisk (Path.ofString "a\x00b") "x" {} sound_old
  have faulty : save none oldDisk (Path.ofString "a\x00b") "x" {} = .error .invalidValue := by rfl
  cases faulty.symm.trans saved

end Settings
end Walkthrough
