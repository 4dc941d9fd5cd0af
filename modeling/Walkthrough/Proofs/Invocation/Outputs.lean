import Walkthrough.Proofs.Invocation.ExitCodes
import Walkthrough.Proofs.Invocation.RunNames
import Walkthrough.Proofs.Session.Secures

/-!
The files of runs. Whatever a run writes is called after it (`CalledAfter`), and what is called after one run is not
called after another (`CalledAfter.unique`). So what a path reads that leads to no file of the run is the same when
the run has come to an end, whichever that is (`Batch.runJob_apart`). Main statement: of the scripts in one directory,
no two runs have the same name, no two screenshots the same identifier, and no run changes what the files of another
one hold (`Batch.runs_apart`).
-/
namespace Walkthrough

open Walkthrough.Action
open Text (eq_of_last not_mem_append not_mem_toString)

/-- What the files of a run are called. -/
inductive CalledAfter (run : String) : String → Prop
  | log : CalledAfter run (run ++ ".log")
  | data : CalledAfter run (run ++ ".json")
  | page : CalledAfter run (run ++ ".html")
  | screenshot (number : Nat) : CalledAfter run (run ++ "_screenshot_" ++ toString number ++ ".png")

/-- The files that a run leaves: its log, its report, and its screenshots in a directory beside them. -/
inductive Output (dir : Path) (run : String) : Path → Prop
  | log : Output dir run (dir.child (run ++ ".log"))
  | data : Output dir run (dir.child (run ++ ".json"))
  | page : Output dir run (dir.child (run ++ ".html"))
  | screenshot (number : Nat) : Output dir run
      ((dir.child Report.screenshotDir).child (run ++ "_screenshot_" ++ toString number ++ ".png"))

namespace CalledAfter

variable {run other s : String}

/-- The ending stands behind the last dot; before it stands the name of the run, with the number of a screenshot. -/
theorem shape (called : CalledAfter run s) :
    ∃ front ending, s = front ++ String.singleton '.' ++ ending ∧ '.' ∉ ending.toList ∧
      (ending ≠ "png" ∧ front = run ∨ ending = "png" ∧ ∃ number : Nat, front = run ++ "_screenshot_" ++ toString number) := by
  have parts (front ending : String) : front ++ ("." ++ ending) = front ++ String.singleton '.' ++ ending :=
    String.append_assoc.symm
  cases called with
  | log => exact ⟨run, "log", parts run "log", by decide, Or.inl ⟨by decide, rfl⟩⟩
  | data => exact ⟨run, "json", parts run "json", by decide, Or.inl ⟨by decide, rfl⟩⟩
  | page => exact ⟨run, "html", parts run "html", by decide, Or.inl ⟨by decide, rfl⟩⟩
  | screenshot number => exact ⟨_, "png", parts _ "png", by decide, Or.inr ⟨rfl, number, rfl⟩⟩

/-- What is called after one run is not called after another. -/
theorem unique (first : CalledAfter run s) (second : CalledAfter other s) : run = other := by
  obtain ⟨front, ending, rfl, plain, whose⟩ := first.shape
  obtain ⟨front', ending', same, plain', whose'⟩ := second.shape
  obtain ⟨rfl, rfl⟩ := eq_of_last same plain plain'
  rcases whose with ⟨text, rfl⟩ | ⟨picture, number, front⟩
  · rcases whose' with ⟨-, rfl⟩ | ⟨picture, -⟩
    · rfl
    · exact absurd picture text
  · rcases whose' with ⟨text, -⟩ | ⟨-, number', front'⟩
    · exact absurd picture text
    · exact (identifier_inj (congrArg (· ++ ".png") (front.symm.trans front'))).1

theorem slashless (after : CalledAfter run s) (plain : '/' ∉ run.toList) : '/' ∉ s.toList := by
  cases after with
  | log => exact not_mem_append plain (by decide)
  | data => exact not_mem_append plain (by decide)
  | page => exact not_mem_append plain (by decide)
  | screenshot number =>
    have digits : '/' ∉ (toString number).toList := not_mem_toString (by decide) number
    exact not_mem_append (not_mem_append (not_mem_append plain (by decide)) digits) (by decide)

/-- There is more than a dot or two dots. -/
theorem long (after : CalledAfter run s) : 4 ≤ s.toList.length := by
  have behind (t u : String) (long : 4 ≤ u.toList.length) : 4 ≤ (t ++ u).toList.length := by
    rw [String.toList_append, List.length_append]
    omega
  cases after with
  | log => exact behind _ ".log" (by decide)
  | data => exact behind _ ".json" (by decide)
  | page => exact behind _ ".html" (by decide)
  | screenshot number => exact behind _ ".png" (by decide)

/-- A file of a run is one step on from the directory it is in. -/
theorem called (after : CalledAfter run s) (plain : '/' ∉ run.toList) (dir : Path) : (dir.child s).Called s := by
  have short {t : String} (short : t.toList.length < 4) : s ≠ t := by
    rintro rfl
    exact absurd after.long (Nat.not_le.mpr short)
  exact Path.called_child dir (after.slashless plain) (short (by decide)) (short (by decide)) (short (by decide))

end CalledAfter

theorem Output.called {dir file : Path} {run : String} (output : Output dir run file) (plain : '/' ∉ run.toList) :
    ∃ s, CalledAfter run s ∧ file.Called s := by
  cases output with
  | log => exact ⟨_, .log, CalledAfter.log.called plain _⟩
  | data => exact ⟨_, .data, CalledAfter.data.called plain _⟩
  | page => exact ⟨_, .page, CalledAfter.page.called plain _⟩
  | screenshot number => exact ⟨_, .screenshot number, (CalledAfter.screenshot number).called plain _⟩

theorem Path.called_absolute {p : Path} {s : String} (called : p.Called s) (here : Place) : (p.absolute here).Called s := by
  obtain ⟨front, steps⟩ := List.getLast?_eq_some_iff.mp called.last
  have onward : Text.Units.ofString s ≠ ".." := fun back => called.onward (Text.Units.ofString_inj.mp back)
  have collapsed (before : List Text.Units) :
      ((before ++ [Text.Units.ofString s]).foldl collapse []).getLast? = some (.ofString s) := by
    rw [List.foldl_concat]
    unfold collapse
    rw [if_neg onward, List.getLast?_concat]
  refine ⟨?_, called.onward⟩
  unfold absolute join
  dsimp only
  split
  · rw [steps]
    exact collapsed front
  · rw [steps, ← List.append_assoc]
    exact collapsed _

variable {σ η ν α : Type}

namespace World

/-- The path reads this content, and lines of the log go to files with other names. -/
structure Unlogged (p : Path) (s : String) (content : ByteArray) (w : World ν) : Prop where
  read : w.disk.read p = .ok content
  log : ∀ q, w.log = .file q → ∃ t, q.Called t ∧ s ≠ t

variable {p q : Path} {s t : String} {content : ByteArray} (called : p.Called s)
include called

theorem writeLog_unlogged {w : World ν} (apart : Unlogged p s content w) (n : Notice) :
    Unlogged p s content (w.writeLog n) := by
  unfold writeLog
  dsimp only
  split
  · exact apart
  · split
    · exact apart
    · next complaints => exact ⟨apart.read, apart.log⟩
    · next path log =>
      split
      · next disk line =>
        obtain ⟨text, -, added⟩ := Option.map_eq_some_iff.mp line
        obtain ⟨t, other, differ⟩ := apart.log path log
        exact ⟨Disk.read_of_append_apart called other differ added apart.read, apart.log⟩
      · exact apart

theorem absorb_unlogged {w : World ν} (apart : Unlogged p s content w) (e : Entry ν) :
    Unlogged p s content (w.absorb e) := by
  have recorded : Unlogged p s content { w with journal := w.journal.push e } := ⟨apart.read, apart.log⟩
  cases e with
  | notice n => exact writeLog_unlogged called recorded n
  | _ => exact recorded

theorem note_unlogged (n : Notice) : Maintains (Unlogged p s content) (World.note n : WorldM ν Unit) :=
  fun _ apart => ⟨absorb_unlogged called apart (.notice n), fun _ _ _ => trivial⟩

theorem absorbAll_unlogged (entries : Array (Entry ν)) :
    Maintains (Unlogged p s content) (World.absorbAll entries : WorldM ν Unit) := by
  refine fun w apart => ⟨?_, fun _ _ _ => trivial⟩
  change Unlogged p s content (entries.foldl absorb w)
  exact Array.foldl_induction (fun _ world => Unlogged p s content world) apart fun i world holds =>
    absorb_unlogged called holds entries[i]

omit called in
theorem onDisk_unlogged {x : DiskM α} (keeps : Maintains (fun d => d.read p = .ok content) x) :
    Maintains (Unlogged p s content) (World.onDisk x : WorldM ν α) := by
  intro w apart
  obtain ⟨read, -⟩ := keeps w.disk apart.read
  unfold onDisk
  cases done : x w.disk with
  | ok a disk =>
    rw [done] at read
    exact ⟨⟨read, apart.log⟩, fun _ _ _ => trivial⟩
  | error fault disk =>
    rw [done] at read
    exact ⟨⟨read, apart.log⟩, fun _ _ _ => trivial⟩

/-- Once another log has been opened, the lines of the log go there. -/
theorem unlogged_of_openLog (other : q.Called t) (differ : s ≠ t) {w : World ν} (read : w.disk.read p = .ok content) :
    (final (World.openLog q w)).disk.read p = .ok content ∧
      ∀ a w', World.openLog q w = .ok a w' → Unlogged p s content w' := by
  unfold openLog
  dsimp only
  split
  · next disk file opened =>
    obtain ⟨made, directories, opened⟩ := Except.bind_eq_ok.mp opened
    obtain ⟨added, appended, same⟩ := Except.bind_eq_ok.mp opened
    cases same
    have logs : (q.absolute made.here).Called t := Path.called_absolute other made.here
    have reads := Disk.read_of_append_apart called logs differ appended (Disk.read_of_makeDirectories directories read)
    refine ⟨reads, ?_⟩
    rintro a w' ⟨⟩
    refine ⟨reads, ?_⟩
    rintro path ⟨⟩
    exact ⟨t, logs, differ⟩
  · refine ⟨read, ?_⟩
    rintro a w' ⟨⟩
    exact ⟨read, nofun⟩
  · exact ⟨read, nofun⟩

end World

namespace Report

theorem change_reads {f : Disk → Except Fault Disk} {p : Path} {content : ByteArray}
    (keeps : ∀ d e, f d = .ok e → d.read p = .ok content → e.read p = .ok content) :
    Maintains (fun d => d.read p = .ok content) (DiskM.change f) := by
  intro d read
  unfold DiskM.change
  cases changed : f d with
  | ok e => exact ⟨keeps d e changed read, fun _ _ _ => trivial⟩
  | error fault => exact ⟨read, fun _ _ _ => trivial⟩

variable {p : Path} {s run : String} {content : ByteArray} (called : p.Called s) (plain : '/' ∉ run.toList)
  (foreign : ¬ CalledAfter run s)
include called plain foreign

/-- A file of the run is written. -/
theorem write_reads {t : String} (own : CalledAfter run t) (dir : Path) (octets : ByteArray) :
    Maintains (fun d => d.read p = .ok content) (DiskM.change (·.write (dir.child t) octets)) := by
  refine change_reads fun d e written read => ?_
  have differ : s ≠ t := fun same => foreign (same ▸ own)
  exact Disk.read_of_write_apart called (own.called plain dir) differ written read

theorem writeAll_reads (dir : Path) {shots : List Screenshot} (own : ∀ shot ∈ shots, CalledAfter run shot.identifier) :
    Maintains (fun d => d.read p = .ok content) (writeAll dir shots) := by
  induction shots with
  | nil => exact secures_pure trivial
  | cons shot later ih =>
    obtain ⟨first, rest⟩ := List.forall_mem_cons.mp own
    refine maintains_bind (write_reads called plain foreign first dir shot.png) fun _ => ?_
    exact maintains_bind (ih rest) fun _ => secures_pure trivial

/-- A report is written, and with it nothing but files of the run. -/
theorem report_reads (output : Path) {record : RunRecord} (name : record.name = run)
    (own : ∀ shot ∈ record.screenshots, CalledAfter run shot.identifier) :
    Maintains (fun d => d.read p = .ok content) (write output record) := by
  have making (dir : Path) : Maintains (fun d => d.read p = .ok content) (DiskM.change (·.makeDirectories dir)) :=
    change_reads fun d e made read => Disk.read_of_makeDirectories made read
  have filming : Maintains (fun d => d.read p = .ok content) (writeScreenshots output record.screenshots) := by
    refine secures_ite (secures_pure trivial) ?_
    exact maintains_bind (making _) fun _ => writeAll_reads called plain foreign _ own
  unfold write
  rw [name]
  refine maintains_bind (making output) fun _ => maintains_bind filming fun _ => ?_
  refine maintains_bind (write_reads called plain foreign .data output _) fun _ => ?_
  exact maintains_bind (write_reads called plain foreign .page output _) fun _ => secures_pure trivial

end Report

namespace Batch

open Report World

variable {host : Host σ η ν} {settings : Settings} {rows : Option (List Bindings)} {p : Path} {s name : String}
  {content : ByteArray}

/-- The record is that of a run of this name: its screenshots are numbered behind the name. -/
structure RecordOf (run : String) (record : RunRecord) : Prop where
  name : record.name = run
  screenshots : ∃ pngs, record.screenshots = numbered run 0 pngs

theorem RecordOf.own {record : RunRecord} (tells : RecordOf name record) :
    ∀ shot ∈ record.screenshots, CalledAfter name shot.identifier := by
  intro shot among
  obtain ⟨pngs, same⟩ := tells.screenshots
  rw [same] at among
  obtain ⟨number, identifier⟩ := mem_numbered among
  rw [identifier]
  exact .screenshot number

theorem recordOf_run {setup : Setup σ η ν} {script : Script} {row : Bindings} {startedAt : Moment} {session : Session σ ν}
    {record : RunRecord} {t : RunState σ η ν} (ran : setup.run script row startedAt session = .ok record t) :
    RecordOf setup.runName record := ⟨Setup.name_of_run ran, Setup.screenshots_numbered ran⟩

theorem recordOf_runJob {source : SourceFile} {row : Bindings} {w w' : World ν} {record : RunRecord}
    (ended : runJob host settings source name row w = .ok (.ok record) w') : RecordOf name record := by
  obtain ⟨_, opened, -, ended⟩ := bind_eq_ok.mp ended
  obtain ⟨_, begun, -, ended⟩ := bind_eq_ok.mp ended
  obtain ⟨outcome, closed, inSession, ended⟩ := bind_eq_ok.mp ended
  rcases runInSession_eq_ok inSession with ⟨failure, rfl, -⟩ | ⟨session, told, left, rfl, -, ran, -⟩
  · cases ended
  · obtain ⟨page, _, -, ended⟩ := bind_eq_ok.mp ended
    obtain ⟨_, _, -, ended⟩ := bind_eq_ok.mp ended
    obtain ⟨_, _, -, ended⟩ := bind_eq_ok.mp ended
    cases ended
    exact recordOf_run ran

section Reads

variable (called : p.Called s) (plain : '/' ∉ name.toList) (foreign : ¬ CalledAfter name s)
include called

theorem runInSession_unlogged (script : Script) (name : String) (row : Bindings) :
    Secures (Unlogged p s content) (runInSession host settings script name row)
      fun outcome => ∀ record, outcome = .ok record → RecordOf name record := by
  refine secures_get_bind fun w _ => secures_bind secures_ofExcept fun outcome _ => ?_
  cases outcome with
  | error failure => exact secures_pure fun record none => by cases none
  | ok session =>
    dsimp only
    cases ran : (host.setup settings name w.disk).run script row (host.now w) session with
    | ok record left =>
      refine maintains_bind (absorbAll_unlogged called _) fun _ => secures_pure ?_
      rintro _ ⟨⟩
      exact recordOf_run ran
    | error fault left => exact maintains_bind (absorbAll_unlogged called _) fun _ => secures_throw fault

include plain foreign

/-- A path that leads to no file of the run reads the same when the run has come to an end, whichever that is. -/
theorem runJob_apart (source : SourceFile) (row : Bindings) :
    Maintains (fun w => w.disk.read p = .ok content) (runJob host settings source name row) := by
  have log : (((settings.reportDir source.path).child (name ++ ".log")).Called (name ++ ".log")) :=
    CalledAfter.log.called plain _
  have differ : s ≠ name ++ ".log" := fun same => foreign (same ▸ .log)
  have reporting (record : RunRecord) (tells : RecordOf name record) : Maintains (Unlogged p s content)
      (World.onDisk (Report.write (settings.reportDir source.path) record) : WorldM ν Path) :=
    onDisk_unlogged (report_reads called plain foreign _ tells.name tells.own)
  have saying (u : Utterance) : Maintains (Unlogged p s content) (World.say u : WorldM ν Unit) :=
    fun _ apart => ⟨⟨apart.read, apart.log⟩, fun _ _ _ => trivial⟩
  unfold runJob
  -- Until the log of the run has been opened, lines may go to any file.
  refine secures_enter (fun w read => unlogged_of_openLog called log differ read) (fun _ apart => apart.read) fun _ => ?_
  refine maintains_bind (note_unlogged called _) fun _ => ?_
  refine secures_bind (runInSession_unlogged called _ _ _) fun outcome tells => ?_
  cases outcome with
  | error failure => exact secures_pure trivial
  | ok record =>
    refine maintains_bind (reporting record (tells record rfl)) fun page => ?_
    refine maintains_bind (note_unlogged called _) fun _ => ?_
    exact maintains_bind (saying _) fun _ => secures_pure trivial

omit plain foreign

theorem runJobs_apart (source : SourceFile) {todo : List (String × Bindings)}
    (foreign : ∀ job ∈ todo, '/' ∉ job.1.toList ∧ ¬ CalledAfter job.1 s) :
    Maintains (fun w => w.disk.read p = .ok content) (runJobs host settings source todo) := by
  induction todo with
  | nil => exact secures_pure trivial
  | cons job later ih =>
    obtain ⟨⟨plain, first⟩, rest⟩ := List.forall_mem_cons.mp foreign
    refine maintains_bind (runJob_apart called plain first source job.2) fun outcome => ?_
    cases outcome with
    | error failure => exact secures_pure trivial
    | ok record => exact maintains_bind (ih rest) fun _ => secures_pure trivial

theorem run_apart {sources : List SourceFile}
    (foreign : ∀ source ∈ sources, ∀ name ∈ runNames rows source.path, '/' ∉ name.toList ∧ ¬ CalledAfter name s) :
    Maintains (fun w => w.disk.read p = .ok content) (run host settings rows sources) := by
  induction sources with
  | nil => exact secures_pure trivial
  | cons source later ih =>
    obtain ⟨first, rest⟩ := List.forall_mem_cons.mp foreign
    refine secures_bind secures_ofExcept fun todo named => ?_
    have each : ∀ job ∈ todo, '/' ∉ job.1.toList ∧ ¬ CalledAfter job.1 s := by
      intro job among
      refine first job.1 ?_
      rw [runNames_of_jobs named]
      exact List.mem_map_of_mem among
    refine maintains_bind (runJobs_apart called source each) fun outcome => ?_
    cases outcome with
    | error failure => exact secures_pure trivial
    | ok early => exact maintains_bind (ih rest) fun _ => secures_pure trivial

end Reads

/-- What the files of the run hold remains, however the action ends. -/
def Spares (output : Path) (run : String) (x : WorldM ν α) : Prop :=
  ∀ file, Output output run file → ∀ content w, w.disk.read file = .ok content →
    (final (x w)).disk.read file = .ok content

theorem spares_of_maintains {output : Path} {run : String} {x : WorldM ν α} (plain : '/' ∉ run.toList)
    (keeps : ∀ file s content, file.Called s → CalledAfter run s → Maintains (fun w => w.disk.read file = .ok content) x) :
    Spares output run x := by
  intro file own content w read
  obtain ⟨s, after, called⟩ := own.called plain
  exact (keeps file s content called after w read).1

/-- Where no two runs have the same name, those that come after a run have other names. -/
theorem runNames_behind {before later : List SourceFile} {source : SourceFile} {done rest : List (String × Bindings)}
    {row : Bindings} (names : ((before ++ source :: later).flatMap fun source => runNames rows source.path).Nodup)
    (named : jobs source.path rows = .ok (done ++ (name, row) :: rest)) :
    (∀ job ∈ rest, job.1 ∈ runNames rows source.path ∧ job.1 ≠ name) ∧
      ∀ other ∈ later, ∀ name' ∈ runNames rows other.path, name' ≠ name := by
  have own : runNames rows source.path = done.map (·.1) ++ name :: rest.map (·.1) := by
    rw [runNames_of_jobs named, List.map_append, List.map_cons]
  rw [List.flatMap_append, List.flatMap_cons, own] at names
  obtain ⟨-, onward, -⟩ := List.nodup_append.mp names
  obtain ⟨here, -, apart⟩ := List.nodup_append.mp onward
  obtain ⟨-, fresh, -⟩ := List.nodup_append.mp here
  rw [own]
  refine ⟨fun job listed => ?_, fun other listed name' named' => ?_⟩
  · have among : job.1 ∈ rest.map (·.1) := List.mem_map_of_mem listed
    refine ⟨List.mem_append_right _ (List.mem_cons_of_mem _ among), fun same => (List.nodup_cons.mp fresh).1 ?_⟩
    rwa [← same]
  · have among : name' ∈ later.flatMap fun source => runNames rows source.path := List.mem_flatMap.mpr ⟨other, listed, named'⟩
    exact (apart name (List.mem_append_right _ List.mem_cons_self) name' among).symm

/-- Of the scripts in one directory, which are run once or once for each row, no two runs have the same name, and no two
screenshots have the same identifier. The reports stand in one directory, in which no run changes what the files of
another one hold; so those of a run remain as they are while the rest of the batch takes place. No name on a disk has
a slash in it. -/
theorem runs_apart {d : Disk} {dir : Path} {found paths : List Path} (slashless : d.Slashless)
    (collected : Invocation.scriptsIn d dir = .ok found) (among : ∀ p ∈ paths, p ∈ found) (distinct : paths.Nodup)
    (rows : Option (List Bindings)) (host : Host σ η ν) (settings : Settings) :
    (paths.flatMap (runNames rows)).Nodup ∧
      (∀ p ∈ paths, ∀ script, p.stem = .ofString script → (runNames rows p).length = (rows.map List.length).getD 1) ∧
      (∀ records : List RunRecord, (records.map (·.name)).Sublist (paths.flatMap (runNames rows)) →
        (∀ r ∈ records, ∃ source row w w', runJob host settings source r.name row w = .ok (.ok r) w') →
        ((records.flatMap (·.screenshots)).map (·.identifier)).Nodup) ∧
      ∃ output, (∀ p ∈ paths, settings.reportDir p = output) ∧
        (∀ source row, source.path ∈ paths → ∀ name ∈ runNames rows source.path,
          ∀ other ∈ paths.flatMap (runNames rows), name ≠ other →
            Spares output other (runJob host settings source name row)) ∧
        ∀ before source later, (before ++ source :: later).map SourceFile.path = paths →
          ∀ done name row rest, jobs source.path rows = .ok (done ++ (name, row) :: rest) →
            Spares output name (runJobs host settings source rest) ∧ Spares output name (run host settings rows later) := by
  have scripts (p : Path) (listed : p ∈ paths) : Invocation.ScriptIn dir p :=
    Invocation.scriptIn_of_scriptsIn slashless collected p (among p listed)
  have names := runNames_nodup scripts distinct rows
  have plain {name : String} {p : Path} (listed : p ∈ paths) (named : name ∈ runNames rows p) : '/' ∉ name.toList :=
    plain_of_mem_runNames (scripts p listed) named
  refine ⟨names, fun p _ script stem => length_runNames rows stem, fun records present returned => ?_,
    if settings.outputDir.isEmpty then dir else .ofUnits settings.outputDir, fun p listed => ?_, ?_, ?_⟩
  · refine identifiers_nodup (names.sublist present) fun r listed => ?_
    obtain ⟨source, row, w, w', ended⟩ := returned r listed
    exact (recordOf_runJob ended).screenshots
  · unfold Settings.reportDir
    rw [(scripts p listed).parent]
  · intro source row listed name named other others differ
    obtain ⟨p, listed', named'⟩ := List.mem_flatMap.mp others
    refine spares_of_maintains (plain listed' named') fun file s content called after => ?_
    exact runJob_apart called (plain listed named) (fun own => differ (own.unique after)) source row
  · rintro before source later rfl done name row rest named
    have listed : ∀ other ∈ before ++ source :: later, other.path ∈ (before ++ source :: later).map SourceFile.path :=
      fun other => List.mem_map_of_mem
    have here := listed source (List.mem_append_right _ List.mem_cons_self)
    have mine : '/' ∉ name.toList := plain here (by simp [runNames_of_jobs named])
    rw [List.flatMap_map] at names
    obtain ⟨runs, others⟩ := runNames_behind names named
    constructor
    · refine spares_of_maintains mine fun file s content called after => runJobs_apart called source fun job among => ?_
      obtain ⟨present, differ⟩ := runs job among
      exact ⟨plain here present, fun own => differ (own.unique after)⟩
    · refine spares_of_maintains mine fun file s content called after => run_apart called fun other among name' named' => ?_
      have there := listed other (List.mem_append_right _ (List.mem_cons_of_mem _ among))
      exact ⟨plain there named', fun own => others other among name' named' (own.unique after)⟩

/-- A script is called like the run of another one for its first row. -/
def alikeDisk : Disk where
  items :=
    [(#[.ofString "t"], .directory), (#[.ofString "t", .ofString "a.txt"], .file "refresh".toUTF8),
      (#[.ofString "t", .ofString "a_1.txt"], .file "refresh".toUTF8)]

def alikeScripts : List Path := [.ofString "t/a.txt", .ofString "t/a_1.txt"]

def alikeRows : List Bindings := [[("town", "Ulm")], [("town", "Bonn")]]

theorem scriptsIn_alike : Invocation.scriptsIn alikeDisk (.ofString "t") = .ok alikeScripts := by
  have names : alikeDisk.names (.ofString "t") = .ok [.ofString "a.txt", .ofString "a_1.txt"] := by
    have placed : alikeDisk.place (.ofString "t") = .ok #[.ofString "t"] := rfl
    have there : alikeDisk.item? #[.ofString "t"] = some .directory := rfl
    have inside : (alikeDisk.items.filterMap fun entry =>
        if !entry.1.isEmpty && entry.1.pop == #[.ofString "t"] then entry.1.back?.map (·.text) else none) =
        [(FileName.ofString "a.txt").text, (FileName.ofString "a_1.txt").text] := rfl
    unfold Disk.names
    rw [placed]
    simp only [bind, Except.bind, there, pure, Except.pure]
    rw [inside, FileName.text_ofString, FileName.text_ofString, List.mergeSort_of_pairwise]
    decide
  unfold Invocation.scriptsIn
  rw [names]
  rfl

/-- The log of the first run of the second script is on the disk. -/
def alikeWorld : World Unit where
  disk := alikeDisk.put #[.ofString "t", .ofString "a_1_1.log"] (.file "begun".toUTF8)

/-- The first run of the first script, which is called like the second script, leaves this log as it is. -/
theorem runs_apart_alike :
    alikeScripts.flatMap (runNames (some alikeRows)) = ["a_1", "a_2", "a_1_1", "a_1_2"] ∧
      (alikeScripts.flatMap (runNames (some alikeRows))).Nodup ∧
      (final (runJob Invocation.quietHost {} ⟨.ofString "t/a.txt", .ofStatements [⟨.run [{ verb := .refresh }], 1⟩]⟩ "a_1"
        [("town", "Ulm")] alikeWorld)).disk.read ((Path.ofString "t").child ("a_1_1" ++ ".log")) = .ok "begun".toUTF8 := by
  have slashless : alikeDisk.Slashless := by
    unfold Disk.Slashless
    decide
  have names : alikeScripts.flatMap (runNames (some alikeRows)) = ["a_1", "a_2", "a_1_1", "a_1_2"] := rfl
  obtain ⟨distinct, -, -, output, shared, apart, -⟩ := runs_apart slashless scriptsIn_alike (fun p listed => listed) (by decide)
    (some alikeRows) Invocation.quietHost {}
  obtain rfl : output = .ofString "t" := (shared (.ofString "t/a.txt") (by decide)).symm
  refine ⟨names, distinct, ?_⟩
  exact apart _ _ (by decide) "a_1" (by decide) "a_1_1" (by decide) (by decide) _ .log _ alikeWorld rfl

end Batch
end Walkthrough
