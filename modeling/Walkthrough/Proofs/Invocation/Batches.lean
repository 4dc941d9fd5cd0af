import Walkthrough.Invocation.Batch
import Walkthrough.Proofs.File.Faults
import Walkthrough.Proofs.File.Written
import Walkthrough.Proofs.Run.Faults

/-!
The course of a batch. Each of its runs has a log and a session of its own, and its report is on the disk before
the next run begins (`Passage.Took`). The runs take place one after the other, however they end, up to one for which
no browser can be launched (`Course`, `course_of_run`); what a browser does at a launch depends on the world by then.
-/
namespace Walkthrough

open Walkthrough.Action

variable {σ η ν : Type}

theorem World.onDisk_eq_ok {α : Type} {x : DiskM α} {a : α} {w w' : World ν} :
    World.onDisk x w = .ok a w' ↔ ∃ disk, x w.disk = .ok a disk ∧ w' = { w with disk } := by
  unfold World.onDisk
  cases x w.disk with
  | ok b disk =>
    constructor
    · rintro ⟨⟩
      exact ⟨disk, rfl, rfl⟩
    · rintro ⟨_, ⟨⟩, rfl⟩
      rfl
  | error fault disk =>
    constructor
    · rintro ⟨⟩
    · rintro ⟨_, ⟨⟩, -⟩

theorem Setup.name_of_run {setup : Setup σ η ν} {script : Script} {row : Bindings} {startedAt : Moment}
    {session : Session σ ν} {record : RunRecord} {t : RunState σ η ν}
    (ran : setup.run script row startedAt session = .ok record t) : record.name = setup.runName := by
  obtain ⟨_, _, -, ran⟩ := bind_eq_ok.mp ran
  obtain ⟨turn, _, -, ran⟩ := bind_eq_ok.mp ran
  dsimp only at ran
  split at ran
  all_goals
    obtain ⟨_, _, -, ran⟩ := bind_eq_ok.mp ran
    cases ran
    rfl

namespace Batch

/-- A script that is to be run, with a row and the place of this row. -/
abbrev Task := SourceFile × Bindings × Nat

/-- What a batch has to do: every script in order, once or for every row in order. -/
def wanted (rows : Option (List Bindings)) (sources : List SourceFile) : List Task :=
  sources.flatMap fun source => (rows.getD [[]]).zipIdx.map (source, ·)

/-- A run of a batch: the session launched for it, its record, and its report. -/
structure Passage (σ η ν : Type) where
  source : SourceFile
  row : Bindings
  /-- Which of the rows this is. -/
  place : Nat
  name : String
  /-- The world with the log of the run. -/
  logged : World ν
  session : Session σ ν
  record : RunRecord
  left : RunState σ η ν
  report : Path
  /-- The disk with the report. -/
  filed : Disk

namespace Passage

variable (host : Host σ η ν) (settings : Settings) (rows : Option (List Bindings)) (p : Passage σ η ν)

def task : Task := (p.source, p.row, p.place)

def begun : World ν := p.logged.absorb (.notice (.running p.source.path p.name))

/-- The world when the session has been closed. -/
def closed : World ν := (host.launcher.finish p.left.session).journal.foldl World.absorb p.begun

def after : World ν :=
  let w := { p.closed host with disk := p.filed }.absorb (.notice (.reported p.record.name p.report))
  { w with said := w.said.push (.line (p.name ++ ": " ++ outcomeText p.record)) }

/-- The run took place from this world on. -/
structure Took (w : World ν) : Prop where
  named : ∃ all, jobs p.source.path rows = .ok all ∧ all[p.place]? = some (p.name, p.row)
  opened : World.openLog ((settings.reportDir p.source.path).child (p.name ++ ".log")) w = .ok () p.logged
  launched : host.launcher.start p.begun settings = .ok (.ok p.session)
  ran : (host.setup settings p.name p.begun.disk).run p.source.script p.row (host.now p.begun) p.session =
    .ok p.record p.left
  reported : Report.write (settings.reportDir p.source.path) p.record (p.closed host).disk = .ok p.report p.filed

end Passage

variable {host : Host σ η ν} {settings : Settings} {rows : Option (List Bindings)}

/-- No browser could be launched for a run: only its log was begun. -/
structure Cut (host : Host σ η ν) (settings : Settings) (rows : Option (List Bindings)) (task : Task)
    (failure : LaunchFailure) (w w' : World ν) : Prop where
  logged : ∃ all name opened, jobs task.1.path rows = .ok all ∧ all[task.2.2]? = some (name, task.2.1) ∧
    World.openLog ((settings.reportDir task.1.path).child (name ++ ".log")) w = .ok () opened ∧
    w' = opened.absorb (.notice (.running task.1.path name))
  refused : host.launcher.start w' settings = .ok (.error failure)

/-- What comes of the runs that a batch has to do, one after the other. -/
inductive Course (host : Host σ η ν) (settings : Settings) (rows : Option (List Bindings)) :
    World ν → List Task → List (Passage σ η ν) → Except LaunchFailure Bool → World ν → Prop where
  | done (w : World ν) : Course host settings rows w [] [] (.ok false) w
  | next {w w' : World ν} {p : Passage σ η ν} {tasks : List Task} {passages : List (Passage σ η ν)}
      {result : Except LaunchFailure Bool} (took : p.Took host settings rows w)
      (later : Course host settings rows (p.after host) tasks passages result w') :
      Course host settings rows w (p.task :: tasks) (p :: passages) (result.map (p.record.exitedEarly || ·)) w'
  | cut {w w' : World ν} {task : Task} {tasks : List Task} {failure : LaunchFailure}
      (cut : Cut host settings rows task failure w w') :
      Course host settings rows w (task :: tasks) [] (.error failure) w'

/-- The world when these runs are over. -/
def reached (host : Host σ η ν) (w : World ν) (passages : List (Passage σ η ν)) : World ν :=
  passages.foldl (fun _ p => p.after host) w

namespace Course

variable {w mid w' : World ν} {tasks more : List Task} {passages passages' : List (Passage σ η ν)}

theorem map_early (early : Bool) (result : Except LaunchFailure Bool) (b : Bool) :
    (result.map (early || ·)).map (b || ·) = result.map ((b || early) || ·) := by
  cases result with
  | error failure => rfl
  | ok rest => exact congrArg Except.ok (Bool.or_assoc _ _ _).symm

theorem append {result : Except LaunchFailure Bool} {early : Bool}
    (earlier : Course host settings rows w tasks passages (.ok early) mid)
    (later : Course host settings rows mid more passages' result w') :
    Course host settings rows w (tasks ++ more) (passages ++ passages') (result.map (early || ·)) w' := by
  generalize ended : Except.ok early = result' at earlier
  induction earlier generalizing early with
  | done w =>
    cases ended
    have same : result.map (false || ·) = result := by cases result <;> rfl
    rwa [same]
  | @next w _ p tasks passages rest took following ih =>
    cases rest with
    | error failure => cases ended
    | ok early' =>
      cases ended
      rw [← map_early]
      exact .next took (ih later rfl)
  | cut => cases ended

end Course

theorem runInSession_eq_ok {script : Script} {name : String} {row : Bindings} {w w' : World ν}
    {result : Except LaunchFailure RunRecord}
    (ended : runInSession host settings script name row w = .ok result w') :
    (∃ failure, result = .error failure ∧ host.launcher.start w settings = .ok (.error failure) ∧ w' = w) ∨
      ∃ session record left, result = .ok record ∧ host.launcher.start w settings = .ok (.ok session) ∧
        (host.setup settings name w.disk).run script row (host.now w) session = .ok record left ∧
        w' = (host.launcher.finish left.session).journal.foldl World.absorb w := by
  obtain ⟨_, _, got, ended⟩ := bind_eq_ok.mp ended
  cases got
  obtain ⟨outcome, _, started, ended⟩ := bind_eq_ok.mp ended
  cases launched : host.launcher.start w settings with
  | error fault =>
    rw [launched] at started
    cases started
  | ok outcome' =>
    rw [launched] at started
    cases started
    cases outcome with
    | error failure =>
      cases ended
      exact Or.inl ⟨failure, rfl, rfl, rfl⟩
    | ok session =>
      cases ran : (host.setup settings name w.disk).run script row (host.now w) session with
      | ok record left =>
        simp only [ran] at ended
        cases ended
        exact Or.inr ⟨session, record, left, rfl, rfl, ran, rfl⟩
      | error fault left =>
        simp only [ran] at ended
        cases ended

theorem took_of_runJob {source : SourceFile} {all : List (String × Bindings)} (named : jobs source.path rows = .ok all)
    {place : Nat} {name : String} {row : Bindings} (here : all[place]? = some (name, row)) {w w' : World ν}
    {result : Except LaunchFailure RunRecord} (ended : runJob host settings source name row w = .ok result w') :
    (∃ failure, result = .error failure ∧ Cut host settings rows (source, row, place) failure w w') ∨
      ∃ p : Passage σ η ν, result = .ok p.record ∧ p.task = (source, row, place) ∧ p.Took host settings rows w ∧
        w' = p.after host := by
  obtain ⟨_, opened, logged, ended⟩ := bind_eq_ok.mp ended
  obtain ⟨_, begun, noted, ended⟩ := bind_eq_ok.mp ended
  cases noted
  obtain ⟨outcome, closed, inSession, ended⟩ := bind_eq_ok.mp ended
  rcases runInSession_eq_ok inSession with
    ⟨failure, rfl, refused, rfl⟩ | ⟨session, record, left, rfl, launched, ran, rfl⟩
  · cases ended
    exact Or.inl ⟨failure, rfl, ⟨all, name, opened, named, here, logged, rfl⟩, refused⟩
  · obtain ⟨report, filed, reported, ended⟩ := bind_eq_ok.mp ended
    obtain ⟨disk, written, rfl⟩ := World.onDisk_eq_ok.mp reported
    cases ended
    let p : Passage σ η ν := ⟨source, row, place, name, opened, session, record, left, report, disk⟩
    exact Or.inr ⟨p, rfl, rfl, ⟨⟨all, named, here⟩, logged, launched, ran, written⟩, rfl⟩

/-- The record has the name of the run, and its report stands on the disk under that name. -/
structure Passage.Filed (settings : Settings) (p : Passage σ η ν) : Prop where
  name : p.record.name = p.name
  path : p.report = (settings.reportDir p.source.path).child (p.name ++ ".html")
  report : p.filed.read p.report = .ok (Report.html p.record).toUTF8

theorem Passage.Took.filed {p : Passage σ η ν} {w : World ν} (took : p.Took host settings rows w) : p.Filed settings := by
  have name : p.record.name = p.name := Setup.name_of_run took.ran
  obtain ⟨_, _, -, written⟩ := bind_eq_ok.mp took.reported
  obtain ⟨_, _, -, written⟩ := bind_eq_ok.mp written
  obtain ⟨_, before, -, written⟩ := bind_eq_ok.mp written
  obtain ⟨_, after, page, written⟩ := bind_eq_ok.mp written
  obtain ⟨path, same⟩ := pure_eq_ok.mp written
  refine ⟨name, path.symm.trans (by rw [name]), ?_⟩
  have stands := Disk.read_of_write (DiskM.change_eq_ok.mp page)
  rw [← path, ← same]
  exact stands

namespace Course

variable {w w' : World ν} {tasks : List Task} {passages : List (Passage σ η ν)}
  {result : Except LaunchFailure Bool}

theorem filed (course : Course host settings rows w tasks passages result w') : ∀ p ∈ passages, p.Filed settings := by
  induction course with
  | done w => exact List.forall_mem_nil _
  | next took later ih => exact List.forall_mem_cons.mpr ⟨took.filed, ih⟩
  | cut lost => exact List.forall_mem_nil _

/-- Where no browser failed, everything has been done, and it is known whether a run exited early. -/
theorem complete {early : Bool} (course : Course host settings rows w tasks passages (.ok early) w') :
    passages.map Passage.task = tasks ∧ early = passages.any (·.record.exitedEarly) := by
  generalize ended : Except.ok early = result at course
  induction course generalizing early with
  | done w =>
    cases ended
    exact ⟨rfl, rfl⟩
  | @next _ _ p tasks passages rest took later ih =>
    cases rest with
    | error failure => cases ended
    | ok early' =>
      cases ended
      obtain ⟨all, same⟩ := ih rfl
      exact ⟨congrArg _ all, congrArg _ same⟩
  | cut lost => cases ended

end Course

section Faults

/-- What a batch stops with has nothing to do with what files hold. -/
abbrev FilesAside {S α : Type} (x : EStateM Fault S α) : Prop := StopsOnly (· ≠ Fault.undecodable) x

theorem filesAside_ofExcept {S α : Type} {x : Except Fault α} (aside : ∀ fault, x = .error fault → fault ≠ .undecodable) :
    FilesAside (MonadExcept.ofExcept x : EStateM Fault S α) := by
  intro s fault t stopped
  cases x with
  | ok a => cases stopped
  | error e =>
    cases stopped
    exact aside _ rfl

theorem filesAside_openLog (path : Path) : FilesAside (World.openLog path : WorldM ν Unit) := by
  intro w fault t stopped
  unfold World.openLog at stopped
  dsimp only at stopped
  split at stopped
  · cases stopped
  · cases stopped
  · rename_i failed
    cases stopped
    rcases Except.bind_eq_error.mp failed with made | ⟨disk, -, failed⟩
    · exact Disk.ne_undecodable_of_makeDirectories made
    · rcases Except.bind_eq_error.mp failed with added | ⟨after, -, done⟩
      · exact (Disk.append_eq_error added).ne_undecodable
      · cases done

theorem filesAside_change {f : Disk → Except Fault Disk} (aside : ∀ d fault, f d = .error fault → fault ≠ .undecodable) :
    FilesAside (DiskM.change f) := fun d fault _ stopped => aside d fault (DiskM.change_eq_error.mp stopped).1

theorem filesAside_makeDirectories (p : Path) : FilesAside (DiskM.change (·.makeDirectories p)) :=
  filesAside_change fun _ _ => Disk.ne_undecodable_of_makeDirectories

theorem filesAside_writeFile (p : Path) (content : ByteArray) : FilesAside (DiskM.change (·.write p content)) :=
  filesAside_change fun _ _ refused => (Disk.write_eq_error refused).ne_undecodable

theorem filesAside_writeScreenshots (output : Path) (shots : List Screenshot) :
    FilesAside (Report.writeScreenshots output shots) := by
  have writing (dir : Path) : FilesAside (Report.writeAll dir shots) := by
    induction shots with
    | nil => exact stopsOnly_pure _
    | cons shot later ih =>
      refine stopsOnly_bind (filesAside_writeFile _ _) fun _ => ?_
      exact stopsOnly_bind ih fun _ => stopsOnly_pure _
  unfold Report.writeScreenshots
  split
  · exact stopsOnly_pure _
  · exact stopsOnly_bind (filesAside_makeDirectories _) fun _ => writing _

theorem filesAside_write (output : Path) (record : RunRecord) : FilesAside (Report.write output record) := by
  refine stopsOnly_bind (filesAside_makeDirectories _) fun _ => ?_
  refine stopsOnly_bind (filesAside_writeScreenshots _ _) fun _ => ?_
  refine stopsOnly_bind (filesAside_writeFile _ _) fun _ => ?_
  exact stopsOnly_bind (filesAside_writeFile _ _) fun _ => stopsOnly_pure _

theorem filesAside_onDisk {α : Type} {x : DiskM α} (aside : FilesAside x) :
    FilesAside (World.onDisk x : WorldM ν α) := by
  intro w fault u stopped
  unfold World.onDisk at stopped
  split at stopped
  · cases stopped
  · next failed =>
    cases stopped
    exact aside _ _ _ failed

theorem ne_undecodable_of_refusal (refusal : PauseFault) : refusal.fault ≠ .undecodable := by
  cases refusal <;> exact Fault.noConfusion

/-- A run stops at a pause or at the path of an upload. -/
theorem ne_undecodable_of_run {name : String} {d : Disk} {script : Script} {row : Bindings} {startedAt : Moment}
    {session : Session σ ν} {f : Fault} {t : RunState σ η ν}
    (stopped : (host.setup settings name d).run script row startedAt session = .error f t) : f ≠ .undecodable := by
  obtain ⟨_, _, _, _, _, -, breaks⟩ := Setup.run_eq_fault.mp ⟨t, stopped⟩
  cases breaks with
  | anchor under searched searching =>
    obtain ⟨refusal, -, rfl⟩ := searching
    exact ne_undecodable_of_refusal refusal
  | command shape reaches performed hinders =>
    cases hinders with
    | delay | chill | search => exact ne_undecodable_of_refusal _
    | upload verb given value path => exact Disk.ne_undecodable_of_uploadPath path

theorem filesAside_start (l : Launcher σ η ν) (w : World ν) (settings : Settings) :
    ∀ fault, l.start w settings = .error fault → fault ≠ .undecodable := by
  intro fault stopped
  unfold Launcher.start at stopped
  split at stopped
  · cases stopped
    exact Fault.noConfusion
  · cases stopped

theorem filesAside_runInSession (script : Script) (name : String) (row : Bindings) :
    FilesAside (runInSession host settings script name row) := by
  refine stopsOnly_bind stopsOnly_get fun w => ?_
  refine stopsOnly_bind (filesAside_ofExcept (filesAside_start _ _ _)) fun outcome => ?_
  cases outcome with
  | error failure => exact stopsOnly_pure _
  | ok session =>
    dsimp only
    cases ran : (host.setup settings name w.disk).run script row (host.now w) session with
    | ok record left => exact stopsOnly_bind (stopsOnly_modify _) fun _ => stopsOnly_pure _
    | error fault left =>
      exact stopsOnly_bind (stopsOnly_modify _) fun _ => stopsOnly_throw (ne_undecodable_of_run ran)

theorem filesAside_runJob (source : SourceFile) (name : String) (row : Bindings) :
    FilesAside (runJob host settings source name row) := by
  refine stopsOnly_bind (filesAside_openLog _) fun _ => stopsOnly_bind (stopsOnly_modify _) fun _ => ?_
  refine stopsOnly_bind (filesAside_runInSession _ _ _) fun outcome => ?_
  cases outcome with
  | error failure => exact stopsOnly_pure _
  | ok record =>
    refine stopsOnly_bind (filesAside_onDisk (filesAside_write _ _)) fun page => ?_
    refine stopsOnly_bind (stopsOnly_modify _) fun _ => ?_
    exact stopsOnly_bind (stopsOnly_modify _) fun _ => stopsOnly_pure _

theorem filesAside_runJobs (source : SourceFile) (todo : List (String × Bindings)) :
    FilesAside (runJobs host settings source todo) := by
  induction todo with
  | nil => exact stopsOnly_pure _
  | cons job later ih =>
    refine stopsOnly_bind (filesAside_runJob _ _ _) fun outcome => ?_
    cases outcome with
    | error failure => exact stopsOnly_pure _
    | ok record => exact stopsOnly_bind ih fun _ => stopsOnly_pure _

theorem filesAside_jobs (path : Path) (rows : Option (List Bindings)) :
    ∀ fault, jobs path rows = .error fault → fault ≠ .undecodable := by
  intro fault stopped
  rcases Except.bind_eq_error.mp stopped with unnamed | ⟨name, -, listed⟩
  · unfold scriptName at unnamed
    split at unnamed
    · cases unnamed
    · cases unnamed
      exact Fault.noConfusion
  · cases rows <;> cases listed

theorem filesAside_run (sources : List SourceFile) : FilesAside (run host settings rows sources) := by
  induction sources with
  | nil => exact stopsOnly_pure _
  | cons source later ih =>
    refine stopsOnly_bind (filesAside_ofExcept (filesAside_jobs _ _)) fun todo => ?_
    refine stopsOnly_bind (filesAside_runJobs _ _) fun outcome => ?_
    cases outcome with
    | error failure => exact stopsOnly_pure _
    | ok early => exact stopsOnly_bind ih fun _ => stopsOnly_pure _

end Faults

end Batch
end Walkthrough
