import Mathlib.Data.List.Forall2
import Walkthrough.Invocation.Basic
import Walkthrough.Proofs.Invocation.Batches
import Walkthrough.Proofs.Sitting.Kept

/-!
What a batch reads before its first run: the scripts of its source, and its table. Everything that is wrong with
them is reported, and then nothing is run, except that a file which is no UTF-8 is a fault (`inputs_settle`,
`not_always_reported`).
-/
namespace Walkthrough

open Walkthrough.Action

variable {σ η ν : Type}

/-- The scripts come from a file or a directory. -/
def Source.IsBatch (source : Source) : Prop := ∀ path, source ≠ .interactive path

namespace Datatable

theorem Content.broken_iff {octets : ByteArray} :
    (∃ lines, ofOctets octets = .broken lines) ↔
      String.fromUTF8? octets = none ∧ octets.toList.isPrefixOf byteOrderMark = false := by
  unfold ofOctets
  cases String.fromUTF8? octets with
  | some s => simp
  | none => cases octets.toList.isPrefixOf byteOrderMark <;> simp

/-- What a file gives as a table. -/
inductive Read (d : Disk) (p : Path) : Except Fault (Except TableError (List Bindings)) → Prop where
  | text {content : ByteArray} {s : List Char} (read : d.read p = .ok content)
      (octets : Content.ofOctets content = .text s) : Read d p (.ok (ofText p s))
  | unreadable {e : SystemError} (read : d.read p = .error (.system e)) : Read d p (.ok (.error (.unreadable p e)))
  | malformed {content : ByteArray} {lines : List Char} {e : Csv.Error} (read : d.read p = .ok content)
      (octets : Content.ofOctets content = .broken lines) (rows : Csv.rows lines = .error e) :
      Read d p (.ok (.error (.malformed p e)))
  | undecodable {content : ByteArray} {lines : List Char} {rows : List Csv.Row} (read : d.read p = .ok content)
      (octets : Content.ofOctets content = .broken lines) (rows : Csv.rows lines = .ok rows) :
      Read d p (.error .undecodable)
  | unnameable {fault : Fault} (named : p.names = .error fault) : Read d p (.error fault)

theorem read_iff {d : Disk} {p : Path} {result : Except Fault (Except TableError (List Bindings))} :
    Read d p result ↔ load d p = result := by
  constructor
  · intro given
    unfold load
    cases given with
    | text read octets => simp only [read, octets]
    | unreadable read => simp only [read]
    | malformed read octets rows => simp only [read, octets, rows]
    | undecodable read octets rows => simp only [read, octets, rows]
    | unnameable named =>
      rw [d.read_of_unnamed named]
      rcases Disk.names_eq_error named with rfl | rfl <;> rfl
  · rintro rfl
    unfold load
    split
    · exact .unreadable ‹_›
    · rename_i foreign stopped
      cases Disk.read_eq_error stopped with
      | unnamed named => exact .unnameable named
      | refused number => exact absurd rfl (foreign _)
    · split
      · exact .text ‹_› ‹_›
      · split
        · exact .undecodable ‹_› ‹_› ‹_›
        · exact .malformed ‹_› ‹_› ‹_›

end Datatable

namespace Invocation

/-- What a file gives as a script. -/
inductive ScriptRead (d : Disk) (p : Path) : Except Fault (Except LoadError SourceFile) → Prop where
  | script {content : ByteArray} {source : String} {script : Script} (read : d.read p = .ok content)
      (decoded : String.fromUTF8? content = some source) (parsed : Script.parse source = .ok script) :
      ScriptRead d p (.ok (.ok ⟨p, script⟩))
  | unreadable {e : SystemError} (read : d.read p = .error (.system e)) : ScriptRead d p (.ok (.error (.unreadable e)))
  | malformed {content : ByteArray} {source : String} {e : SyntaxError} (read : d.read p = .ok content)
      (decoded : String.fromUTF8? content = some source) (parsed : Script.parse source = .error e) :
      ScriptRead d p (.ok (.error (.malformed e)))
  | undecodable {content : ByteArray} (read : d.read p = .ok content) (decoded : String.fromUTF8? content = none) :
      ScriptRead d p (.error .undecodable)
  | unnameable {fault : Fault} (named : p.names = .error fault) : ScriptRead d p (.error fault)

theorem scriptRead_iff {d : Disk} {p : Path} {result : Except Fault (Except LoadError SourceFile)} :
    ScriptRead d p result ↔ readScript d p = result := by
  constructor
  · intro given
    unfold readScript
    cases given with
    | script read decoded parsed => simp only [read, decoded, parsed]
    | unreadable read => simp only [read]
    | malformed read decoded parsed => simp only [read, decoded, parsed]
    | undecodable read decoded => simp only [read, decoded]
    | unnameable named =>
      rw [d.read_of_unnamed named]
      rcases Disk.names_eq_error named with rfl | rfl <;> rfl
  · rintro rfl
    unfold readScript
    split
    · exact .unreadable ‹_›
    · rename_i foreign stopped
      cases Disk.read_eq_error stopped with
      | unnamed named => exact .unnameable named
      | refused number => exact absurd rfl (foreign _)
    · split
      · exact .undecodable ‹_› ‹_›
      · split
        · exact .malformed ‹_› ‹_› ‹_›
        · exact .script ‹_› ‹_› ‹_›

/-- A file that is a script, and can be run. -/
def Sound (d : Disk) (p : Path) : Prop := ∃ source, ScriptRead d p (.ok (.ok source))

/-- What files give as scripts. It is the first of them that cannot be run which matters. -/
inductive ScriptsRead (d : Disk) : List Path → Except Fault (Except LoadError (List SourceFile)) → Prop where
  | scripts {paths : List Path} {sources : List SourceFile}
      (each : List.Forall₂ (fun p source => ScriptRead d p (.ok (.ok source))) paths sources) :
      ScriptsRead d paths (.ok (.ok sources))
  | rejected {earlier later : List Path} {p : Path} {e : LoadError} (sound : ∀ p ∈ earlier, Sound d p)
      (flawed : ScriptRead d p (.ok (.error e))) : ScriptsRead d (earlier ++ p :: later) (.ok (.error e))
  | stopped {earlier later : List Path} {p : Path} {fault : Fault} (sound : ∀ p ∈ earlier, Sound d p)
      (stops : ScriptRead d p (.error fault)) : ScriptsRead d (earlier ++ p :: later) (.error fault)

theorem scriptsRead_cons {d : Disk} {p : Path} {source : SourceFile} {later : List Path}
    {result : Except Fault (Except LoadError (List SourceFile))} (first : ScriptRead d p (.ok (.ok source)))
    (rest : ScriptsRead d later result) :
    ScriptsRead d (p :: later) (result.map fun sources => sources.map (source :: ·)) := by
  have sound {earlier : List Path} (among : ∀ p ∈ earlier, Sound d p) : ∀ q ∈ p :: earlier, Sound d q :=
    List.forall_mem_cons.mpr ⟨⟨source, first⟩, among⟩
  cases rest with
  | scripts each => exact .scripts (.cons first each)
  | rejected among flawed => exact .rejected (sound among) flawed
  | stopped among stops => exact .stopped (sound among) stops

theorem scriptsRead_iff {d : Disk} {paths : List Path} {result : Except Fault (Except LoadError (List SourceFile))} :
    ScriptsRead d paths result ↔ readScripts d paths = result := by
  constructor
  · intro read
    cases read with
    | scripts each =>
      induction each with
      | nil => rfl
      | cons first _ ih => simp only [readScripts, scriptRead_iff.mp first, ih, bind, Except.bind, pure, Except.pure, Except.map]
    | @rejected earlier later p e sound flawed =>
      induction earlier with
      | nil => simp only [List.nil_append, readScripts, scriptRead_iff.mp flawed, bind, Except.bind, pure, Except.pure]
      | cons q earlier ih =>
        obtain ⟨⟨source, first⟩, sound⟩ := List.forall_mem_cons.mp sound
        simp only [List.cons_append, readScripts, scriptRead_iff.mp first, ih sound, bind, Except.bind, pure, Except.pure,
          Except.map]
    | @stopped earlier later p e sound stops =>
      induction earlier with
      | nil => simp only [List.nil_append, readScripts, scriptRead_iff.mp stops, bind, Except.bind]
      | cons q earlier ih =>
        obtain ⟨⟨source, first⟩, sound⟩ := List.forall_mem_cons.mp sound
        simp only [List.cons_append, readScripts, scriptRead_iff.mp first, ih sound, bind, Except.bind]
  · rintro rfl
    induction paths with
    | nil => exact .scripts .nil
    | cons p later ih =>
      unfold readScripts
      cases first : readScript d p with
      | error fault => exact @ScriptsRead.stopped d [] later p fault (List.forall_mem_nil _) (scriptRead_iff.mpr first)
      | ok result =>
        cases result with
        | error e => exact @ScriptsRead.rejected d [] later p e (List.forall_mem_nil _) (scriptRead_iff.mpr first)
        | ok source =>
          have both := scriptsRead_cons (scriptRead_iff.mpr first) ih
          cases rest : readScripts d later <;> rw [rest] at both <;> exact both

theorem sound_iff {d : Disk} {paths : List Path} :
    (∃ sources, ScriptsRead d paths (.ok (.ok sources))) ↔ ∀ p ∈ paths, Sound d p := by
  constructor
  · rintro ⟨sources, read⟩
    cases read with
    | scripts each =>
      induction each with
      | nil => exact List.forall_mem_nil _
      | cons first _ ih => exact List.forall_mem_cons.mpr ⟨⟨_, first⟩, ih⟩
  · intro sound
    induction paths with
    | nil => exact ⟨[], .scripts .nil⟩
    | cons p later ih =>
      obtain ⟨⟨source, first⟩, sound⟩ := List.forall_mem_cons.mp sound
      obtain ⟨sources, rest⟩ := ih sound
      exact ⟨source :: sources, scriptsRead_cons first rest⟩

/-- The scripts that a source names, if the source is there. -/
inductive Listed (d : Disk) : Source → Except Fault (Except Text.Units (List Path)) → Prop where
  | file (p : Path) : Listed d (.file (some p)) (.ok (.ok [p]))
  | directory {p : Path} {paths : List Path} (there : d.isDirectory p = .ok true)
      (found : scriptsIn d p = .ok paths) : Listed d (.dir (some p)) (.ok (.ok paths))
  | noDirectory {p : Path} (missing : d.isDirectory p = .ok false) :
      Listed d (.dir (some p)) (.ok (.error ("Error: " ++ p.text ++ " is not a directory")))
  | unlisted {p : Path} {e : SystemError} (there : d.isDirectory p = .ok true)
      (lost : scriptsIn d p = .error (.system e)) :
      Listed d (.dir (some p)) (.ok (.error (LoadError.unreadable e).message))
  | unasked {p : Path} {fault : Fault} (stopped : d.isDirectory p = .error fault) :
      Listed d (.dir (some p)) (.error fault)
  | unnamed {p : Path} {fault : Fault} (there : d.isDirectory p = .ok true) (lost : scriptsIn d p = .error fault)
      (foreign : ∀ e, fault ≠ .system e) : Listed d (.dir (some p)) (.error fault)
  | noFile : Listed d (.file none) (.error .pathMissing)
  | noPath : Listed d (.dir none) (.error .pathMissing)

/-- What a batch runs. -/
structure Inputs where
  sources : List SourceFile
  rows : Option (List Bindings)

/-- What the files of a batch give: all that it runs, a complaint about the first thing that is wrong, or a fault. -/
inductive InputsRead (d : Disk) (settings : Settings) (source : Source) :
    Except Fault (Except Text.Units Inputs) → Prop where
  | scripts {paths : List Path} {sources : List SourceFile} (listed : Listed d source (.ok (.ok paths)))
      (read : ScriptsRead d paths (.ok (.ok sources))) (bare : settings.tablePath? = none) :
      InputsRead d settings source (.ok (.ok ⟨sources, none⟩))
  | rows {paths : List Path} {sources : List SourceFile} {p : Path} {rows : List Bindings}
      (listed : Listed d source (.ok (.ok paths))) (read : ScriptsRead d paths (.ok (.ok sources)))
      (given : settings.tablePath? = some p) (table : Datatable.Read d p (.ok (.ok rows))) :
      InputsRead d settings source (.ok (.ok ⟨sources, some rows⟩))
  | noSource {text : Text.Units} (listed : Listed d source (.ok (.error text))) :
      InputsRead d settings source (.ok (.error text))
  | flawedScript {paths : List Path} {e : LoadError} (listed : Listed d source (.ok (.ok paths)))
      (read : ScriptsRead d paths (.ok (.error e))) : InputsRead d settings source (.ok (.error e.message))
  | flawedTable {paths : List Path} {sources : List SourceFile} {p : Path} {e : TableError}
      (listed : Listed d source (.ok (.ok paths))) (read : ScriptsRead d paths (.ok (.ok sources)))
      (given : settings.tablePath? = some p) (table : Datatable.Read d p (.ok (.error e))) :
      InputsRead d settings source (.ok (.error ("Error: " ++ e.message)))
  | lostSource {fault : Fault} (listed : Listed d source (.error fault)) : InputsRead d settings source (.error fault)
  | lostScript {paths : List Path} {fault : Fault} (listed : Listed d source (.ok (.ok paths)))
      (read : ScriptsRead d paths (.error fault)) : InputsRead d settings source (.error fault)
  | lostTable {paths : List Path} {sources : List SourceFile} {p : Path} {fault : Fault}
      (listed : Listed d source (.ok (.ok paths))) (read : ScriptsRead d paths (.ok (.ok sources)))
      (given : settings.tablePath? = some p) (table : Datatable.Read d p (.error fault)) :
      InputsRead d settings source (.error fault)

variable {host : Host σ η ν} {settings : Settings}

/-- Runs what has been read, and tells the exit code. -/
def Inputs.run (host : Host σ η ν) (settings : Settings) (inputs : Inputs) : WorldM ν Outcome := do
  match ← Batch.run host settings inputs.rows inputs.sources with
  | .error failure => giveUp .early ("Error: " ++ failure.message)
  | .ok anyEarly => return .exited (if anyEarly then .early else .success)

/-- Goes on with what the files of a batch gave. -/
def answer (host : Host σ η ν) (settings : Settings) : Except Fault (Except Text.Units Inputs) → WorldM ν Outcome
  | .error fault => throw fault
  | .ok (.error text) => giveUp .usage text
  | .ok (.ok inputs) => inputs.run host settings

theorem inputsRead_of_listed {d : Disk} {source : Source} {paths : List Path}
    (listed : Listed d source (.ok (.ok paths))) : ∃ result, InputsRead d settings source result := by
  obtain ⟨read, scripts⟩ : ∃ read, ScriptsRead d paths read := ⟨_, scriptsRead_iff.mpr rfl⟩
  rcases read with fault | e | sources
  · exact ⟨_, .lostScript listed scripts⟩
  · exact ⟨_, .flawedScript listed scripts⟩
  · cases given : settings.tablePath? with
    | none => exact ⟨_, .scripts listed scripts given⟩
    | some p =>
      obtain ⟨loaded, table⟩ : ∃ loaded, Datatable.Read d p loaded := ⟨_, Datatable.read_iff.mpr rfl⟩
      rcases loaded with fault | e | rows
      · exact ⟨_, .lostTable listed scripts given table⟩
      · exact ⟨_, .flawedTable listed scripts given table⟩
      · exact ⟨_, .rows listed scripts given table⟩

theorem inputsRead_exists (d : Disk) (settings : Settings) {source : Source} (batch : source.IsBatch) :
    ∃ result, InputsRead d settings source result := by
  cases source with
  | file path =>
    cases path with
    | none => exact ⟨_, .lostSource .noFile⟩
    | some p => exact inputsRead_of_listed (.file p)
  | dir path =>
    cases path with
    | none => exact ⟨_, .lostSource .noPath⟩
    | some p =>
      cases there : d.isDirectory p with
      | error fault => exact ⟨_, .lostSource (.unasked there)⟩
      | ok found =>
        cases found with
        | false => exact ⟨_, .noSource (.noDirectory there)⟩
        | true =>
          cases found : scriptsIn d p with
          | ok paths => exact inputsRead_of_listed (.directory there found)
          | error fault =>
            by_cases foreign : ∀ e, fault ≠ .system e
            · exact ⟨_, .lostSource (.unnamed there found foreign)⟩
            · obtain ⟨e, rfl⟩ := not_forall_not.mp foreign
              exact ⟨_, .noSource (.unlisted there found)⟩
  | interactive path => exact absurd rfl (batch path)

theorem runBatch_eq (paths : List Path) (w : World ν) :
    runBatch host settings (.ok paths) w =
      match readScripts w.disk paths with
      | .error fault => .error fault w
      | .ok (.error e) => giveUp .usage e.message w
      | .ok (.ok sources) =>
        match readRows w.disk settings with
        | .error fault => .error fault w
        | .ok (.error e) => giveUp .usage ("Error: " ++ e.message) w
        | .ok (.ok rows) => Inputs.run host settings ⟨sources, rows⟩ w := by
  unfold runBatch
  refine (bind_of_ok rfl).trans ?_
  rcases readScripts w.disk paths with fault | e | sources
  · rfl
  · rfl
  · rcases readRows w.disk settings with fault | e | rows <;> rfl

section Act

variable {a : Arguments} {source : Source} {w : World ν} (given : a.source = some source) (lines : List String)
include given

theorem act_of_listed {paths : List Path} (listed : Listed w.disk source (.ok (.ok paths))) :
    act host a settings lines w = runBatch host settings (.ok paths) w := by
  unfold act
  rw [given]
  cases listed with
  | file p => rfl
  | directory there found =>
    refine (bind_of_ok rfl).trans ?_
    rw [there, found]
    rfl

theorem act_of_unlisted {result : Except Fault (Except Text.Units (List Path))} (listed : Listed w.disk source result) :
    (∀ text, result = .ok (.error text) → act host a settings lines w = giveUp .usage text w) ∧
      ∀ fault, result = .error fault → act host a settings lines w = .error fault w := by
  unfold act
  rw [given]
  cases listed with
  | file p => exact ⟨nofun, nofun⟩
  | directory there found => exact ⟨nofun, nofun⟩
  | noDirectory missing =>
    refine ⟨fun text same => ?_, nofun⟩
    rw [← Except.error.inj (Except.ok.inj same)]
    refine (bind_of_ok rfl).trans ?_
    rw [missing]
    rfl
  | unlisted there lost =>
    refine ⟨fun text same => ?_, nofun⟩
    rw [← Except.error.inj (Except.ok.inj same)]
    refine (bind_of_ok rfl).trans ?_
    rw [there, lost]
    rfl
  | unasked stopped =>
    refine ⟨nofun, ?_⟩
    rintro _ ⟨⟩
    refine (bind_of_ok rfl).trans ?_
    rw [stopped]
    rfl
  | @unnamed p fault there lost foreign =>
    refine ⟨nofun, ?_⟩
    rintro _ ⟨⟩
    refine (bind_of_ok rfl).trans ?_
    rw [there, lost]
    cases fault with
    | system e => exact absurd rfl (foreign e)
    | _ => rfl
  | noFile => exact ⟨nofun, by rintro _ ⟨⟩; rfl⟩
  | noPath => exact ⟨nofun, by rintro _ ⟨⟩; rfl⟩

theorem act_of_read {result : Except Fault (Except Text.Units Inputs)} (read : InputsRead w.disk settings source result) :
    act host a settings lines w = answer host settings result w := by
  have rows_of {p : Path} (table : settings.tablePath? = some p) :
      readRows w.disk settings = (Datatable.load w.disk p >>= fun rows => pure (rows.map some)) := by
    unfold readRows
    rw [table]
  cases read with
  | scripts listed read bare =>
    rw [act_of_listed given lines listed, runBatch_eq, scriptsRead_iff.mp read]
    simp only [readRows, bare]
    rfl
  | rows listed read there table =>
    rw [act_of_listed given lines listed, runBatch_eq, scriptsRead_iff.mp read, rows_of there, Datatable.read_iff.mp table]
    rfl
  | noSource listed => exact (act_of_unlisted given lines listed).1 _ rfl
  | flawedScript listed read =>
    rw [act_of_listed given lines listed, runBatch_eq, scriptsRead_iff.mp read]
    rfl
  | flawedTable listed read there table =>
    rw [act_of_listed given lines listed, runBatch_eq, scriptsRead_iff.mp read, rows_of there, Datatable.read_iff.mp table]
    rfl
  | lostSource listed => exact (act_of_unlisted given lines listed).2 _ rfl
  | lostScript listed read =>
    rw [act_of_listed given lines listed, runBatch_eq, scriptsRead_iff.mp read]
    rfl
  | lostTable listed read there table =>
    rw [act_of_listed given lines listed, runBatch_eq, scriptsRead_iff.mp read, rows_of there, Datatable.read_iff.mp table]
    rfl

end Act

/-- The command line has been read, the settings are there, and they have been saved if that was asked for. -/
structure Readied (host : Host σ η ν) (commandLine : List String) (w : World ν) (a : Arguments) (settings : Settings)
    (begun : World ν) : Prop where
  arguments : Arguments.read commandLine = .ok (some a)
  effective : ∃ stored, Settings.load none w.disk (a.config.getD host.settingsPath) = .ok stored ∧
    settings = stored.override a.overrides
  saved : if a.saveConfig then saveSettings host settings (a.config.getD host.settingsPath) w = .ok none begun
    else begun = w

theorem run_eq {commandLine : List String} {a : Arguments} (arguments : Arguments.read commandLine = .ok (some a))
    (lines : List String) (w : World ν) :
    run host commandLine lines w =
      match Settings.load none w.disk (a.config.getD host.settingsPath) with
      | .error fault => .error fault w
      | .ok stored =>
        let settings := stored.override a.overrides
        if a.saveConfig then
          match saveSettings host settings (a.config.getD host.settingsPath) w with
          | .error fault u => .error fault u
          | .ok (some outcome) u => .ok outcome u
          | .ok none u => act host a settings lines u
        else act host a settings lines w := by
  unfold run
  rw [arguments]
  have here : (get : WorldM ν (World ν)) w = .ok w w := rfl
  refine (bind_of_ok here).trans ?_
  cases Settings.load none w.disk (a.config.getD host.settingsPath) with
  | error fault => rfl
  | ok stored =>
    have loaded : (MonadExcept.ofExcept (.ok stored) : WorldM ν Settings) w = .ok stored w := rfl
    refine (bind_of_ok loaded).trans ?_
    dsimp only
    cases a.saveConfig with
    | true =>
      simp only [if_true, bind, EStateM.bind]
      rcases saveSettings host (stored.override a.overrides) (a.config.getD host.settingsPath) w with
        ⟨_ | outcome, u⟩ | ⟨fault, u⟩ <;> rfl
    | false => rfl

theorem run_of_readied {commandLine : List String} {a : Arguments} {w begun : World ν}
    (readied : Readied host commandLine w a settings begun) (lines : List String) :
    run host commandLine lines w = act host a settings lines begun := by
  obtain ⟨arguments, ⟨stored, loaded, rfl⟩, saved⟩ := readied
  rw [run_eq arguments, loaded]
  dsimp only
  cases asked : a.saveConfig with
  | true =>
    rw [asked, if_pos rfl] at saved
    rw [if_pos rfl, saved]
  | false =>
    rw [asked, if_neg Bool.false_ne_true] at saved
    rw [if_neg Bool.false_ne_true, saved]

theorem filterAuxM_eq_error {α ε : Type} {f : α → Except ε Bool} {e : ε} {items done : List α}
    (stopped : items.filterAuxM f done = .error e) : ∃ item, f item = .error e := by
  induction items generalizing done with
  | nil => cases stopped
  | cons item later ih =>
    rcases Except.bind_eq_error.mp stopped with here | ⟨kept, -, stopped⟩
    · exact ⟨item, here⟩
    · exact ih stopped

theorem ne_undecodable_of_scriptsIn {d : Disk} {dir : Path} {fault : Fault} (stopped : scriptsIn d dir = .error fault) :
    fault ≠ .undecodable := by
  rcases Except.bind_eq_error.mp stopped with lost | ⟨names, -, stopped⟩
  · exact (Disk.listing_eq_error lost).ne_undecodable
  · rcases Except.bind_eq_error.mp stopped with stopped | ⟨kept, -, done⟩
    · obtain ⟨p, stopped⟩ := filterAuxM_eq_error stopped
      rcases Except.bind_eq_error.mp stopped with lost | ⟨there, -, done⟩
      · exact (Disk.isFile_eq_error lost).ne_undecodable
      · cases done
    · cases done

theorem Listed.ne_undecodable {d : Disk} {source : Source} {fault : Fault} (listed : Listed d source (.error fault)) :
    fault ≠ .undecodable := by
  cases listed with
  | unasked stopped => exact (Disk.isDirectory_eq_error stopped).ne_undecodable
  | unnamed there lost foreign => exact ne_undecodable_of_scriptsIn lost
  | noFile | noPath => exact Fault.noConfusion

/-- A file is not UTF-8: a script, where those before it are all sound, or else the table, where nothing is wrong
with its lines before. -/
inductive Undecodable (d : Disk) (settings : Settings) (source : Source) : Prop where
  | script {earlier later : List Path} {p : Path} {content : ByteArray}
      (listed : Listed d source (.ok (.ok (earlier ++ p :: later)))) (sound : ∀ q ∈ earlier, Sound d q)
      (read : d.read p = .ok content) (decoded : String.fromUTF8? content = none)
  | table {paths : List Path} {p : Path} {content : ByteArray} {lines : List Char} {rows : List Csv.Row}
      (listed : Listed d source (.ok (.ok paths))) (sound : ∀ q ∈ paths, Sound d q) (given : settings.tablePath? = some p)
      (read : d.read p = .ok content) (octets : Datatable.Content.ofOctets content = .broken lines)
      (rows : Csv.rows lines = .ok rows)

theorem undecodable_iff {d : Disk} {source : Source} :
    InputsRead d settings source (.error .undecodable) ↔ Undecodable d settings source := by
  constructor
  · intro read
    cases read with
    | lostSource listed => exact absurd rfl listed.ne_undecodable
    | lostScript listed scripts =>
      cases scripts with
      | stopped sound stops =>
        cases stops with
        | undecodable read decoded => exact .script listed sound read decoded
        | unnameable named => exact absurd rfl (Disk.Lost.unnamed named).ne_undecodable
    | lostTable listed scripts given table =>
      cases table with
      | undecodable read octets rows => exact .table listed (sound_iff.mp ⟨_, scripts⟩) given read octets rows
      | unnameable named => exact absurd rfl (Disk.Lost.unnamed named).ne_undecodable
  · intro broken
    cases broken with
    | script listed sound read decoded => exact .lostScript listed (.stopped sound (.undecodable read decoded))
    | table listed sound given read octets rows =>
      obtain ⟨sources, scripts⟩ := sound_iff.mpr sound
      exact .lostTable listed scripts given (.undecodable read octets rows)

theorem filesAside_inputs (inputs : Inputs) : Batch.FilesAside (inputs.run host settings) := by
  refine stopsOnly_bind (Batch.filesAside_run _) fun outcome => ?_
  cases outcome with
  | error failure => exact stopsOnly_bind (stopsOnly_modify _) fun _ => stopsOnly_pure _
  | ok early => exact stopsOnly_pure _

/-- What a batch has to read is either all there, and is run; or there is a complaint about it, and the exit code is
that of wrong usage; or there is a fault. It ends the program with a fault of decoding exactly when a file is not
UTF-8. A table by itself, whatever it holds, gives rows or an error, or such a fault. -/
theorem inputs_settle (host : Host σ η ν) {commandLine : List String} {a : Arguments} {settings : Settings}
    {source : Source} {w begun : World ν} (readied : Readied host commandLine w a settings begun)
    (given : a.source = some source) (batch : source.IsBatch) (lines : List String) :
    (∃ result, InputsRead begun.disk settings source result) ∧
    (∀ inputs, InputsRead begun.disk settings source (.ok (.ok inputs)) →
      run host commandLine lines w = inputs.run host settings begun) ∧
    (∀ text, InputsRead begun.disk settings source (.ok (.error text)) → run host commandLine lines w =
      .ok (.exited .usage) { begun with complaints := begun.complaints.push text }) ∧
    (∀ fault, InputsRead begun.disk settings source (.error fault) → run host commandLine lines w = .error fault begun) ∧
    ((∃ t, run host commandLine lines w = .error .undecodable t) ↔ Undecodable begun.disk settings source) ∧
    ∀ p, (∃ rows, Datatable.load begun.disk p = .ok (.ok rows)) ∨ (∃ e, Datatable.load begun.disk p = .ok (.error e)) ∨
      (Datatable.load begun.disk p = .error .undecodable ∧
        ∃ content, begun.disk.read p = .ok content ∧ String.fromUTF8? content = none) ∨
      ∃ fault, Datatable.load begun.disk p = .error fault ∧ p.names = .error fault := by
  have answered {result : Except Fault (Except Text.Units Inputs)} (read : InputsRead begun.disk settings source result) :
      run host commandLine lines w = answer host settings result begun := by
    rw [run_of_readied readied, act_of_read given lines read]
  refine ⟨inputsRead_exists begun.disk settings batch, fun _ read => answered read, fun _ read => answered read,
    fun _ read => answered read, ?_, fun p => ?_⟩
  · rw [← undecodable_iff]
    constructor
    · rintro ⟨t, stopped⟩
      obtain ⟨result, read⟩ := inputsRead_exists begun.disk settings batch
      rw [answered read] at stopped
      rcases result with fault | text | inputs
      · cases stopped
        exact read
      · cases stopped
      · exact absurd rfl (filesAside_inputs inputs begun _ t stopped)
    · exact fun read => ⟨begun, answered read⟩
  · obtain ⟨result, read⟩ : ∃ result, Datatable.Read begun.disk p result := ⟨_, Datatable.read_iff.mpr rfl⟩
    have loaded := Datatable.read_iff.mp read
    rcases result with fault | e | rows
    · cases read with
      | undecodable found octets rows =>
        exact Or.inr (Or.inr (Or.inl ⟨loaded, _, found, (Datatable.Content.broken_iff.mp ⟨_, octets⟩).1⟩))
      | unnameable named => exact Or.inr (Or.inr (Or.inr ⟨fault, loaded, named⟩))
    · exact Or.inr (Or.inl ⟨e, loaded⟩)
    · exact Or.inl ⟨rows, loaded⟩

/-- A disk whose script and whose table are not UTF-8. -/
def latinDisk : Disk where
  items := [(#[.ofString "s.txt"], .file ⟨#[0xFF, 0x0A]⟩), (#[.ofString "t.csv"], .file ⟨#[0xE9, 0x0A]⟩)]

def latinSource : Source := .file (some (Path.ofString "s.txt"))

theorem readied_latin : Readied Sitting.deafHost ["--file", "s.txt"] { disk := latinDisk } { source := some latinSource } {}
    { disk := latinDisk } where
  arguments := by
    have parts : Argument.ofStrings ["--file", "s.txt"] = .ok [.flag .file .nothing, .plain "s.txt"] := rfl
    unfold Arguments.read
    rw [parts]
    simp [bind, Except.bind, Arguments.readAll, Arguments.take, Arguments.takeNext, Flag.arity, Arguments.setAll,
      Arguments.set, Arguments.setSource, latinSource]
  effective := ⟨{}, rfl, rfl⟩
  saved := rfl

theorem undecodable_latin : Undecodable latinDisk {} latinSource := by
  have read : latinDisk.read (Path.ofString "s.txt") = .ok ⟨#[0xFF, 0x0A]⟩ := rfl
  have listed : Listed latinDisk latinSource (.ok (.ok ([] ++ [Path.ofString "s.txt"]))) := .file _
  exact .script listed (List.forall_mem_nil _) read (by decide)

theorem load_latin : Datatable.load latinDisk (Path.ofString "t.csv") = .error .undecodable := by
  have octets : (ByteArray.mk #[0xE9, 0x0A]).toList = [0xE9, 0x0A] := by
    rw [ByteArray.toList, ByteArray.toList.loop, if_pos (by decide), ByteArray.toList.loop, if_pos (by decide),
      ByteArray.toList.loop, if_neg (by decide)]
    rfl
  have nothing (limit : Nat) : Datatable.Content.charactersFrom ⟨#[0xE9, 0x0A]⟩ limit 0 [] = ([], 0) := by
    unfold Datatable.Content.charactersFrom
    have none : (ByteArray.mk #[0xE9, 0x0A]).utf8DecodeChar? 0 = none := by decide
    rw [none]
  have broken : Datatable.Content.ofOctets ⟨#[0xE9, 0x0A]⟩ = .broken [] := by
    have decoded : String.fromUTF8? ⟨#[0xE9, 0x0A]⟩ = none := by decide
    unfold Datatable.Content.ofOctets
    simp only [decoded, octets, nothing]
    rfl
  have read : latinDisk.read (Path.ofString "t.csv") = .ok ⟨#[0xE9, 0x0A]⟩ := rfl
  exact Datatable.read_iff.mp (.undecodable read broken rfl)

/-- The fault is one of decoding, whatever else the program may do with the script. -/
theorem inputs_settle_latin :
    (∃ t, run Sitting.deafHost ["--file", "s.txt"] [] { disk := latinDisk } = .error .undecodable t) ∧
      Datatable.load latinDisk (Path.ofString "t.csv") = .error .undecodable := by
  obtain ⟨-, -, -, -, decoding, -⟩ := inputs_settle Sitting.deafHost readied_latin rfl nofun []
  exact ⟨decoding.mpr undecodable_latin, load_latin⟩

/-- Neither of the two is reported. -/
theorem not_always_reported :
    (¬∃ code t, run Sitting.deafHost ["--file", "s.txt"] [] { disk := latinDisk } = .ok (.exited code) t) ∧
      ¬∃ result, Datatable.load latinDisk (Path.ofString "t.csv") = .ok result := by
  constructor
  · rintro ⟨code, t, ended⟩
    rw [run_of_readied readied_latin, act_of_read rfl [] (undecodable_iff.mpr undecodable_latin)] at ended
    cases ended
  · rintro ⟨result, loaded⟩
    cases load_latin.symm.trans loaded

end Invocation
end Walkthrough
