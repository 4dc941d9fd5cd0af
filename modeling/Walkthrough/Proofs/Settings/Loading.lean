import Walkthrough.Proofs.Decimal.Binary
import Walkthrough.Settings.Reading

/-!
What stored settings are read as. A field that means something gives its meaning, any other field its
default, whatever the other fields are (`ReadFrom`). No settings at all come of a number that is too large
for its field (`Overflows`), of a file that is no text, and of a text that is too long or too deep to be
read; those are all the faults that there are (`load_settles`).
-/
namespace Walkthrough

open Text (Units)

namespace Settings

variable {α β : Type}

/-- A field gives what its entry means, or else its default. -/
structure FallsBack (entry : Option Json) (means : Json → α → Prop) (standard value : α) : Prop where
  meant : ∀ j a, entry = some j → means j a → value = a
  otherwise : (∀ j a, entry = some j → ¬means j a) → value = standard

inductive MeansWhole : Json → Int → Prop where
  | integer (n : Int) : MeansWhole (.integer n) n
  | bool (b : Bool) : MeansWhole (.bool b) (if b then 1 else 0)
  | numeral {units : Units} {s : String} {n : Int} (spelt : units.string? = some s)
      (read : Decimal.Numeral.int? s.toList = some n) : MeansWhole (.string units) n
  | real {x : Float} {b : Decimal.Binary} (finite : Decimal.Binary.ofFloat? x = some b) :
      MeansWhole (.real x) b.truncate

inductive MeansReal : Json → Float → Prop where
  | integer {n : Int} {x : Float} (finite : Decimal.ofInt? n = some x) : MeansReal (.integer n) x
  | bool (b : Bool) : MeansReal (.bool b) (if b then 1 else 0)
  | numeral {units : Units} {s : String} {x : Float} (spelt : units.string? = some s)
      (read : Decimal.Numeral.float? s.toList = some x) : MeansReal (.string units) x
  | real (x : Float) : MeansReal (.real x) x

def MeansBrowser (j : Json) (browser : Option String) : Prop :=
  ∃ s, j.isGiven = true ∧ j.shown.string? = some s ∧ Text.lower s ∈ supportedBrowsers ∧
    browser = some (Text.lower s)

def MeansFlag (j : Json) (flag : Bool) : Prop := flag = j.isGiven

def MeansText (j : Json) (text : Units) : Prop := j.isGiven = true ∧ text = j.shown

def MeansViewport (j : Json) (viewport : Int × Int) : Prop :=
  ∃ width height, j = .list [width, height] ∧ MeansWhole width viewport.1 ∧ MeansWhole height viewport.2 ∧
    0 < viewport.1 ∧ 0 < viewport.2

/-- Numbers of which none is below zero; not-a-number is not below zero. -/
def MeansDelays (items : List Json) (delays : List Float) : Prop :=
  List.Forall₂ (fun item delay => MeansReal item delay ∧ ¬delay < 0) items delays

def MeansRetryDelays (j : Json) (delays : List Float) : Prop :=
  ∃ items, j = .list items ∧ items ≠ [] ∧ MeansDelays items delays

def MeansDelay (j : Json) (delay : Float) : Prop := MeansReal j delay ∧ 0 ≤ delay

structure ReadFrom (j : Json) (s : Settings) : Prop where
  browser : FallsBack (j.field? "browser") MeansBrowser (some "chromium") s.browser
  headless : FallsBack (j.field? "headless") MeansFlag false s.headless
  outputDir : FallsBack (j.field? "output_dir") MeansText (.ofString "") s.outputDir
  datatable : FallsBack (j.field? "datatable") MeansText (.ofString "") s.datatable
  viewport : FallsBack (j.field? "viewport") MeansViewport (1280, 720) s.viewport
  retryDelays : FallsBack (j.field? "locate_retry_delays") MeansRetryDelays [0, 1, 2, 4] s.retryDelays
  commandDelay : FallsBack (j.field? "command_delay") MeansDelay 1 s.commandDelay
  demo : FallsBack (j.field? "demo") MeansFlag false s.demo

def Infinite (j : Json) : Prop := ∃ x, j = .real x ∧ x.isInf = true

/-- A whole number beyond the doubles. -/
def Huge (j : Json) : Prop := ∃ n, j = .integer n ∧ Decimal.ofInt? n = none

/-- The numbers before the first one that makes no sense are read. -/
def DelaysOverflow (items : List Json) : Prop :=
  ∃ before item after delays, items = before ++ item :: after ∧ MeansDelays before delays ∧ Huge item

inductive Overflows (j : Json) : Prop where
  | width {width height : Json} (given : j.field? "viewport" = some (.list [width, height]))
      (infinite : Infinite width)
  | height {width height : Json} {n : Int} (given : j.field? "viewport" = some (.list [width, height]))
      (whole : MeansWhole width n) (infinite : Infinite height)
  | retryDelays {items : List Json} (given : j.field? "locate_retry_delays" = some (.list items))
      (huge : DelaysOverflow items)
  | commandDelay {item : Json} (given : j.field? "command_delay" = some item) (huge : Huge item)

/-- What a file at a path gives, unless the system refuses to read it. -/
inductive Loads (refusal : Option SystemError) (d : Disk) (p : Path) : Settings → Prop where
  | absent {item : Option Item} (found : d.find? p = .ok item)
      (file : ∀ content, item ≠ some (.file content)) : Loads refusal d p {}
  | refused {content : ByteArray} {e : SystemError} (found : d.find? p = .ok (some (.file content)))
      (refused : refusal = some e) : Loads refusal d p {}
  | malformed {content : ByteArray} {s : String} (found : d.find? p = .ok (some (.file content)))
      (granted : refusal = none) (decoded : String.fromUTF8? content = some s)
      (read : Json.parse s.toList = .error .malformed) : Loads refusal d p {}
  | foreign {content : ByteArray} {s : String} {j : Json} (found : d.find? p = .ok (some (.file content)))
      (granted : refusal = none) (decoded : String.fromUTF8? content = some s)
      (read : Json.parse s.toList = .ok j) (other : ∀ fields, j ≠ .object fields) : Loads refusal d p {}
  | stored {content : ByteArray} {s : String} {fields : List (Units × Json)} {settings : Settings}
      (found : d.find? p = .ok (some (.file content))) (granted : refusal = none)
      (decoded : String.fromUTF8? content = some s) (read : Json.parse s.toList = .ok (.object fields))
      (bounded : ¬Overflows (.object fields)) (given : ReadFrom (.object fields) settings) :
      Loads refusal d p settings

inductive Faults (refusal : Option SystemError) (d : Disk) (p : Path) : Fault → Prop where
  | unreachable {fault : Fault} (found : d.find? p = .error fault) : Faults refusal d p fault
  | undecodable {content : ByteArray} (found : d.find? p = .ok (some (.file content)))
      (granted : refusal = none) (decoded : String.fromUTF8? content = none) : Faults refusal d p .undecodable
  | tooLong {content : ByteArray} {s : String} (found : d.find? p = .ok (some (.file content)))
      (granted : refusal = none) (decoded : String.fromUTF8? content = some s)
      (read : Json.parse s.toList = .error .tooLong) : Faults refusal d p .invalidValue
  | tooDeep {content : ByteArray} {s : String} (found : d.find? p = .ok (some (.file content)))
      (granted : refusal = none) (decoded : String.fromUTF8? content = some s)
      (read : Json.parse s.toList = .error .tooDeep) : Faults refusal d p .tooDeep
  | overflow {content : ByteArray} {s : String} {fields : List (Units × Json)}
      (found : d.find? p = .ok (some (.file content))) (granted : refusal = none)
      (decoded : String.fromUTF8? content = some s) (read : Json.parse s.toList = .ok (.object fields))
      (overflows : Overflows (.object fields)) : Faults refusal d p .overflow

/-- A reader gives what is meant, if anything is, unless a number is too large. -/
structure Reads (read : Except Fault (Option α)) (means : α → Prop) (overflows : Prop) : Prop where
  value : ∀ a, read = .ok (some a) ↔ means a
  fault : ∀ f, read = .error f ↔ f = .overflow ∧ overflows

theorem Reads.settles {read : Except Fault (Option α)} {means : α → Prop} {overflows : Prop}
    (reads : Reads read means overflows) :
    (∃ found, read = .ok found ∧ (∀ a, found = some a ↔ means a) ∧ ¬overflows) ∨
      read = .error .overflow ∧ (∀ a, ¬means a) ∧ overflows := by
  obtain ⟨value, fault⟩ := reads
  cases read with
  | ok found =>
    refine Or.inl ⟨found, rfl, fun a => ?_, fun large => ?_⟩
    · rw [← value a, Except.ok.injEq]
    · cases (fault .overflow).mpr ⟨rfl, large⟩
  | error f =>
    obtain ⟨rfl, large⟩ := (fault f).mp rfl
    refine Or.inr ⟨rfl, fun a meant => ?_, large⟩
    cases (value a).mpr meant

theorem reads_ok {found : Option α} {means : α → Prop} {overflows : Prop} (value : ∀ a, found = some a ↔ means a)
    (fine : ¬overflows) : Reads (.ok found) means overflows :=
  ⟨fun a => by rw [← value a, Except.ok.injEq], fun f => by simp [fine]⟩

theorem reads_overflow {means : α → Prop} {overflows : Prop} (nothing : ∀ a, ¬means a) (large : overflows) :
    Reads (.error .overflow) means overflows :=
  ⟨fun a => by simp [nothing], fun f => by simp [large, eq_comm]⟩

theorem reads_congr {read : Except Fault (Option α)} {means means' : α → Prop} {overflows overflows' : Prop}
    (reads : Reads read means overflows) (same : ∀ a, means a ↔ means' a) (same' : overflows ↔ overflows') :
    Reads read means' overflows' :=
  ⟨fun a => (reads.value a).trans (same a), fun f => (reads.fault f).trans (and_congr_right fun _ => same')⟩

theorem reads_bind {x : Except Fault (Option α)} {next : Option α → Except Fault (Option β)} {means : α → Prop}
    {overflows : Prop} {meansNext : α → β → Prop} {overflowsNext : α → Prop} (first : Reads x means overflows)
    (stops : next none = .ok none) (goes : ∀ a, Reads (next (some a)) (meansNext a) (overflowsNext a)) :
    Reads (x >>= next) (fun b => ∃ a, means a ∧ meansNext a b) (overflows ∨ ∃ a, means a ∧ overflowsNext a) := by
  obtain ⟨found, rfl, value, fine⟩ | ⟨rfl, nothing, large⟩ := first.settles
  · have going : (Except.ok found : Except Fault (Option α)) >>= next = next found := rfl
    rw [going]
    cases found with
    | none =>
      rw [stops]
      exact reads_ok (by simp [← value]) (by simp [← value, fine])
    | some a => exact reads_congr (goes a) (by simp [← value]) (by simp [← value, fine])
  · exact reads_overflow (by simp [nothing]) (Or.inl large)

theorem reads_chosen {x : Except Fault (Option α)} {choose : Option α → Option β} {means : α → Prop}
    {overflows : Prop} {chosen : α → β → Prop} (reads : Reads x means overflows)
    (same : ∀ found b, choose found = some b ↔ ∃ a, found = some a ∧ chosen a b) :
    Reads (do return choose (← x)) (fun b => ∃ a, means a ∧ chosen a b) overflows := by
  obtain ⟨found, rfl, value, fine⟩ | ⟨rfl, nothing, large⟩ := reads.settles
  · refine reads_ok (fun b => ?_) fine
    simp only [same, value]
  · exact reads_overflow (by simp [nothing]) large

theorem reads_whole (j : Json) : Reads (readWhole j) (MeansWhole j) (Infinite j) := by
  have finite (plain : ∀ x, j ≠ .real x) : ¬Infinite j := fun ⟨x, same, _⟩ => plain x same
  cases j with
  | integer n =>
    refine reads_ok (fun m => ⟨?_, ?_⟩) (finite (by simp))
    · rintro ⟨⟩
      exact .integer n
    · rintro ⟨⟩
      rfl
  | bool b =>
    refine reads_ok (fun m => ⟨?_, ?_⟩) (finite (by simp))
    · rintro ⟨⟩
      exact .bool b
    · rintro ⟨⟩
      rfl
  | string units =>
    refine reads_ok (fun m => ?_) (finite (by simp))
    rw [Option.bind_eq_some_iff]
    constructor
    · rintro ⟨s, spelt, read⟩
      exact .numeral spelt read
    · rintro (_ | _ | ⟨spelt, read⟩)
      exact ⟨_, spelt, read⟩
  | real x =>
    cases found : Decimal.Binary.ofFloat? x with
    | some b =>
      have unfolded : readWhole (.real x) = .ok (some b.truncate) := by simp [readWhole, found]
      rw [unfolded]
      refine reads_ok (fun m => ⟨?_, ?_⟩) ?_
      · rintro ⟨⟩
        exact .real found
      · rintro (_ | _ | _ | same)
        rw [found] at same
        cases same
        rfl
      · rintro ⟨_, ⟨⟩, infinite⟩
        rw [Decimal.Binary.ofFloat?_eq_none.mpr (Or.inr infinite)] at found
        cases found
    | none =>
      have nothing (m : Int) : ¬MeansWhole (.real x) m := by
        rintro (_ | _ | _ | same)
        rw [found] at same
        cases same
      cases number : x.isNaN with
      | true =>
        have unfolded : readWhole (.real x) = .ok none := by simp only [readWhole, found, number, if_true]
        rw [unfolded]
        refine reads_ok (by simp [nothing]) ?_
        rintro ⟨_, ⟨⟩, infinite⟩
        rw [Decimal.Binary.isNaN_of_isInf infinite] at number
        cases number
      | false =>
        have infinite := (Decimal.Binary.ofFloat?_eq_none.mp found).resolve_left (by rw [number]; decide)
        have unfolded : readWhole (.real x) = .error .overflow := by
          simp only [readWhole, found, number, Bool.false_eq_true, if_false]
        rw [unfolded]
        exact reads_overflow nothing ⟨x, rfl, infinite⟩
  | null | list | object =>
    refine reads_ok (fun m => ?_) (finite (by simp))
    constructor <;> rintro ⟨⟩

theorem reads_real (j : Json) : Reads (readReal j) (MeansReal j) (Huge j) := by
  have small (plain : ∀ n, j ≠ .integer n) : ¬Huge j := fun ⟨n, same, _⟩ => plain n same
  cases j with
  | integer n =>
    cases found : Decimal.ofInt? n with
    | some x =>
      have unfolded : readReal (.integer n) = .ok (some x) := by simp only [readReal, found]
      rw [unfolded]
      refine reads_ok (fun y => ⟨?_, ?_⟩) ?_
      · rintro ⟨⟩
        exact .integer found
      · rintro (same | _)
        rw [← same, found]
      · rintro ⟨_, ⟨⟩, huge⟩
        rw [found] at huge
        cases huge
    | none =>
      have unfolded : readReal (.integer n) = .error .overflow := by simp only [readReal, found]
      rw [unfolded]
      refine reads_overflow (fun y => ?_) ⟨n, rfl, found⟩
      rintro (same | _)
      rw [found] at same
      cases same
  | bool b =>
    refine reads_ok (fun y => ⟨?_, ?_⟩) (small (by simp))
    · rintro ⟨⟩
      exact .bool b
    · rintro ⟨⟩
      rfl
  | string units =>
    refine reads_ok (fun y => ?_) (small (by simp))
    rw [Option.bind_eq_some_iff]
    constructor
    · rintro ⟨s, spelt, read⟩
      exact .numeral spelt read
    · rintro (_ | _ | ⟨spelt, read⟩)
      exact ⟨_, spelt, read⟩
  | real x =>
    refine reads_ok (fun y => ⟨?_, ?_⟩) (small (by simp))
    · rintro ⟨⟩
      exact .real x
    · rintro ⟨⟩
      rfl
  | null | list | object =>
    refine reads_ok (fun y => ?_) (small (by simp))
    constructor <;> rintro ⟨⟩

theorem reads_viewport (entry : Option Json) :
    Reads (readViewport entry) (fun viewport => ∃ j, entry = some j ∧ MeansViewport j viewport)
      (∃ width height, entry = some (.list [width, height]) ∧
        (Infinite width ∨ ∃ n, MeansWhole width n ∧ Infinite height)) := by
  by_cases pair : ∃ width height, entry = some (.list [width, height])
  · obtain ⟨width, height, rfl⟩ := pair
    have both : Reads (readViewport (some (.list [width, height])))
        (fun viewport => ∃ w, MeansWhole width w ∧ ∃ h, MeansWhole height h ∧ 0 < w ∧ 0 < h ∧ viewport = (w, h))
        (Infinite width ∨ ∃ w, MeansWhole width w ∧ (Infinite height ∨ ∃ h, MeansWhole height h ∧ False)) := by
      refine reads_bind (reads_whole width) rfl fun w => reads_bind (reads_whole height) rfl fun h => ?_
      refine (reads_ok (fun viewport => ?_) id : Reads (.ok (if w ≤ 0 || h ≤ 0 then none else some (w, h))) _ _)
      rw [Option.ite_none_left_eq_some, Bool.or_eq_true, decide_eq_true_eq, decide_eq_true_eq, not_or,
        Int.not_le, Int.not_le, and_assoc, Option.some.injEq, eq_comm (a := (w, h))]
    refine reads_congr both (fun viewport => ?_) (by simp)
    constructor
    · rintro ⟨w, whole, h, whole', wide, high, rfl⟩
      exact ⟨_, rfl, width, height, rfl, whole, whole', wide, high⟩
    · rintro ⟨_, ⟨⟩, _, _, ⟨⟩, whole, whole', wide, high⟩
      exact ⟨_, whole, _, whole', wide, high, rfl⟩
  · have nothing : readViewport entry = .ok none := by
      unfold readViewport
      split
      · exact absurd ⟨_, _, rfl⟩ pair
      · rfl
    rw [nothing]
    refine reads_ok (fun viewport => ⟨nofun, ?_⟩) fun ⟨width, height, same, _⟩ => pair ⟨width, height, same⟩
    rintro ⟨_, same, width, height, rfl, _⟩
    exact absurd ⟨width, height, same⟩ pair

theorem reads_delays (items : List Json) :
    Reads (readDelays items) (MeansDelays items) (DelaysOverflow items) := by
  induction items with
  | nil =>
    refine reads_ok (fun delays => ?_) ?_
    · simp [MeansDelays, eq_comm]
    · rintro ⟨_ | ⟨_, _⟩, item, after, delays, same, _⟩ <;> cases same
  | cons item later ih =>
    have one : Reads (readDelays (item :: later))
        (fun delays => ∃ delay, MeansReal item delay ∧ ¬delay < 0 ∧
          ∃ others, MeansDelays later others ∧ delays = delay :: others)
        (Huge item ∨ ∃ delay, MeansReal item delay ∧ ¬delay < 0 ∧ DelaysOverflow later) := by
      refine reads_bind (reads_real item) rfl fun delay => ?_
      by_cases below : delay < 0
      · simp only [below, if_true, not_true, false_and]
        exact reads_ok (by simp) id
      · simp only [below, if_false, not_false_eq_true, true_and]
        refine reads_chosen ih fun found delays => ?_
        rw [Option.map_eq_some_iff]
        simp only [eq_comm]
    refine reads_congr one (fun delays => ?_) ?_
    · constructor
      · rintro ⟨delay, real, above, others, meant, rfl⟩
        exact .cons ⟨real, above⟩ meant
      · rintro (_ | ⟨⟨real, above⟩, meant⟩)
        exact ⟨_, real, above, _, meant, rfl⟩
    · constructor
      · rintro (huge | ⟨delay, real, above, before, next, after, delays, rfl, meant, huge⟩)
        · exact ⟨[], item, later, [], rfl, .nil, huge⟩
        · exact ⟨item :: before, next, after, delay :: delays, rfl, .cons ⟨real, above⟩ meant, huge⟩
      · rintro ⟨_ | ⟨first, before⟩, next, after, delays, same, meant, huge⟩
        · cases same
          exact Or.inl huge
        · cases same
          rcases meant with _ | ⟨⟨real, above⟩, meant⟩
          exact Or.inr ⟨_, real, above, before, next, after, _, rfl, meant, huge⟩

theorem reads_retryDelays (entry : Option Json) :
    Reads (readRetryDelays entry) (fun delays => ∃ j, entry = some j ∧ MeansRetryDelays j delays)
      (∃ items, entry = some (.list items) ∧ DelaysOverflow items) := by
  by_cases some : ∃ item later, entry = some (.list (item :: later))
  · obtain ⟨item, later, rfl⟩ := some
    refine reads_congr (reads_delays (item :: later)) (fun delays => ?_) ?_
    · simp [MeansRetryDelays]
    · simp
  · have nothing : readRetryDelays entry = .ok none := by
      unfold readRetryDelays
      split
      · exact absurd ⟨_, _, rfl⟩ some
      · rfl
    rw [nothing]
    refine reads_ok (fun delays => ⟨nofun, ?_⟩) ?_
    · rintro ⟨_, same, _ | ⟨item, later⟩, rfl, filled, _⟩
      · exact absurd rfl filled
      · exact absurd ⟨item, later, same⟩ some
    · rintro ⟨_, same, _ | ⟨item, before⟩, next, after, delays, rfl, _⟩
      · exact some ⟨next, after, same⟩
      · exact some ⟨item, _, same⟩

theorem reads_delay (entry : Option Json) :
    Reads (readDelay entry) (fun delay => ∃ j, entry = some j ∧ MeansDelay j delay)
      (∃ item, entry = some item ∧ Huge item) := by
  cases entry with
  | none => exact reads_ok (by simp) (by simp)
  | some item =>
    have filtered : Reads (readDelay (some item)) (fun delay => ∃ x, MeansReal item x ∧ 0 ≤ x ∧ delay = x)
        (Huge item) := by
      refine reads_chosen (reads_real item) fun found delay => ?_
      rw [Option.filter_eq_some_iff]
      constructor
      · rintro ⟨rfl, above⟩
        exact ⟨delay, rfl, of_decide_eq_true above, rfl⟩
      · rintro ⟨_, rfl, above, rfl⟩
        exact ⟨rfl, decide_eq_true above⟩
    refine reads_congr filtered (fun delay => ?_) (by simp)
    constructor
    · rintro ⟨_, real, above, rfl⟩
      exact ⟨_, rfl, real, above⟩
    · rintro ⟨_, ⟨⟩, real, above⟩
      exact ⟨_, real, above, rfl⟩

theorem fallsBack_getD {read entry} {means : Json → α → Prop} {standard : α}
    (value : ∀ a, read = some a ↔ ∃ j, entry = some j ∧ means j a) :
    FallsBack entry means standard (read.getD standard) := by
  constructor
  · intro j a given meant
    rw [(value a).mpr ⟨j, given, meant⟩, Option.getD_some]
  · intro nothing
    cases found : read with
    | none => rfl
    | some a =>
      obtain ⟨j, given, meant⟩ := (value a).mp found
      exact absurd meant (nothing j a given)

theorem FallsBack.unique {entry : Option Json} {means : Json → α → Prop} {standard a b : α}
    (one : FallsBack entry means standard a) (other : FallsBack entry means standard b) : a = b := by
  by_cases some : ∃ j c, entry = some j ∧ means j c
  · obtain ⟨j, c, given, meant⟩ := some
    rw [one.meant j c given meant, other.meant j c given meant]
  · have nothing (j : Json) (c : α) (given : entry = .some j) : ¬means j c := fun meant => some ⟨j, c, given, meant⟩
    rw [one.otherwise nothing, other.otherwise nothing]

theorem readBrowser_eq_some (entry : Option Json) (browser : Option String) :
    (readBrowser entry).map some = some browser ↔ ∃ j, entry = some j ∧ MeansBrowser j browser := by
  unfold readBrowser readText
  simp only [Option.map_eq_some_iff, Option.filter_eq_some_iff, Option.bind_eq_some_iff, List.contains_iff_mem]
  constructor
  · rintro ⟨_, ⟨⟨s, ⟨_, ⟨j, ⟨rfl, given⟩, rfl⟩, spelt⟩, rfl⟩, supported⟩, rfl⟩
    exact ⟨j, rfl, s, given, spelt, supported, rfl⟩
  · rintro ⟨j, rfl, s, given, spelt, supported, rfl⟩
    exact ⟨_, ⟨⟨s, ⟨_, ⟨j, ⟨rfl, given⟩, rfl⟩, spelt⟩, rfl⟩, supported⟩, rfl⟩

theorem readText_eq_some (entry : Option Json) (text : Units) :
    readText entry = some text ↔ ∃ j, entry = some j ∧ MeansText j text := by
  unfold readText
  simp only [Option.map_eq_some_iff, Option.filter_eq_some_iff]
  constructor
  · rintro ⟨j, ⟨rfl, given⟩, rfl⟩
    exact ⟨j, rfl, given, rfl⟩
  · rintro ⟨j, rfl, given, rfl⟩
    exact ⟨j, ⟨rfl, given⟩, rfl⟩

theorem readFlag_eq_some (entry : Option Json) (flag : Bool) :
    entry.map Json.isGiven = some flag ↔ ∃ j, entry = some j ∧ MeansFlag j flag := by
  simp only [Option.map_eq_some_iff, MeansFlag, eq_comm (a := flag)]

theorem ReadFrom.unique {j : Json} {s t : Settings} (one : ReadFrom j s) (other : ReadFrom j t) : s = t := by
  obtain ⟨b, h, o, d, v, r, c, m⟩ := one
  obtain ⟨b', h', o', d', v', r', c', m'⟩ := other
  cases s
  cases t
  rw [Settings.mk.injEq]
  exact ⟨b.unique b', h.unique h', o.unique o', d.unique d', v.unique v', r.unique r', c.unique c', m.unique m'⟩

theorem overflows_iff (j : Json) : Overflows j ↔
    (∃ width height, j.field? "viewport" = some (.list [width, height]) ∧
      (Infinite width ∨ ∃ n, MeansWhole width n ∧ Infinite height)) ∨
    (∃ items, j.field? "locate_retry_delays" = some (.list items) ∧ DelaysOverflow items) ∨
    ∃ item, j.field? "command_delay" = some item ∧ Huge item := by
  constructor
  · rintro (⟨given, infinite⟩ | ⟨given, whole, infinite⟩ | ⟨given, huge⟩ | ⟨given, huge⟩)
    · exact Or.inl ⟨_, _, given, Or.inl infinite⟩
    · exact Or.inl ⟨_, _, given, Or.inr ⟨_, whole, infinite⟩⟩
    · exact Or.inr (Or.inl ⟨_, given, huge⟩)
    · exact Or.inr (Or.inr ⟨_, given, huge⟩)
  · rintro (⟨_, _, given, infinite | ⟨_, whole, infinite⟩⟩ | ⟨_, given, huge⟩ | ⟨_, given, huge⟩)
    · exact .width given infinite
    · exact .height given whole infinite
    · exact .retryDelays given huge
    · exact .commandDelay given huge

/-- An object is read field by field, unless a number in it is too large. -/
theorem ofJson_settles (fields : List (Units × Json)) :
    (∃ s, ofJson (.object fields) = .ok s ∧ ReadFrom (.object fields) s ∧ ¬Overflows (.object fields)) ∨
      ofJson (.object fields) = .error .overflow ∧ Overflows (.object fields) := by
  rw [overflows_iff]
  unfold ofJson
  -- Three fields can hold a number that is too large; the first of them that does stops the reading.
  obtain ⟨v, viewport, meant, fine⟩ | ⟨viewport, -, large⟩ :=
    (reads_viewport ((Json.object fields).field? "viewport")).settles
  · obtain ⟨r, retryDelays, meant', fine'⟩ | ⟨retryDelays, -, large⟩ :=
      (reads_retryDelays ((Json.object fields).field? "locate_retry_delays")).settles
    · obtain ⟨c, commandDelay, meant'', fine''⟩ | ⟨commandDelay, -, large⟩ :=
        (reads_delay ((Json.object fields).field? "command_delay")).settles
      · simp only [viewport, retryDelays, commandDelay]
        refine Or.inl ⟨_, rfl, ?_, not_or.mpr ⟨fine, not_or.mpr ⟨fine', fine''⟩⟩⟩
        have browser : (readBrowser ((Json.object fields).field? "browser") <|> some "chromium") =
            ((readBrowser ((Json.object fields).field? "browser")).map some).getD (some "chromium") := by
          cases readBrowser ((Json.object fields).field? "browser") <;> rfl
        constructor
        · exact browser ▸ fallsBack_getD (readBrowser_eq_some _)
        · exact fallsBack_getD (readFlag_eq_some _)
        · exact fallsBack_getD (readText_eq_some _)
        · exact fallsBack_getD (readText_eq_some _)
        · exact fallsBack_getD meant
        · exact fallsBack_getD meant'
        · exact fallsBack_getD meant''
        · exact fallsBack_getD (readFlag_eq_some _)
      · exact Or.inr ⟨by simp only [viewport, retryDelays, commandDelay]; rfl, Or.inr (Or.inr large)⟩
    · exact Or.inr ⟨by simp only [viewport, retryDelays]; rfl, Or.inr (Or.inl large)⟩
  · exact Or.inr ⟨by simp only [viewport]; rfl, Or.inl large⟩

theorem load_of_text {d : Disk} {p : Path} {content : ByteArray} {s : String}
    (found : d.find? p = .ok (some (.file content))) (decoded : String.fromUTF8? content = some s) :
    load none d p = ofText s := by
  simp only [load, found, bind, Except.bind, decoded]

theorem load_of_undecodable {d : Disk} {p : Path} {content : ByteArray}
    (found : d.find? p = .ok (some (.file content))) (decoded : String.fromUTF8? content = none) :
    load none d p = .error .undecodable := by
  simp only [load, found, bind, Except.bind, decoded]

theorem load_of_refused {d : Disk} {p : Path} {content : ByteArray}
    (found : d.find? p = .ok (some (.file content))) (e : SystemError) : load (some e) d p = .ok {} := by
  simp only [load, found, bind, Except.bind]
  rfl

variable {refusal : Option SystemError}

theorem load_of_absent {d : Disk} {p : Path} {item : Option Item} (found : d.find? p = .ok item)
    (file : ∀ content, item ≠ some (.file content)) : load refusal d p = .ok {} := by
  simp only [load, found, bind, Except.bind]
  split
  · exact absurd rfl (file _)
  · rfl

theorem load_of_unreachable {d : Disk} {p : Path} {f : Fault} (found : d.find? p = .error f) :
    load refusal d p = .error f := by
  simp only [load, found, bind, Except.bind]

theorem ofText_of_read {s : String} {j : Json} (read : Json.parse s.toList = .ok j) : ofText s = ofJson j := by
  simp only [ofText, read]

theorem ofJson_of_foreign {j : Json} (other : ∀ fields, j ≠ .object fields) : ofJson j = .ok {} := by
  cases j with
  | object fields => exact absurd rfl (other fields)
  | _ => rfl

theorem load_of_loads {d : Disk} {p : Path} {s : Settings} (loads : Loads refusal d p s) :
    load refusal d p = .ok s := by
  cases loads with
  | absent found file => exact load_of_absent found file
  | refused found refused => exact refused ▸ load_of_refused found _
  | malformed found granted decoded read =>
    rw [granted, load_of_text found decoded]
    simp only [ofText, read]
  | foreign found granted decoded read other =>
    rw [granted, load_of_text found decoded, ofText_of_read read, ofJson_of_foreign other]
  | stored found granted decoded read bounded given =>
    rw [granted, load_of_text found decoded, ofText_of_read read]
    obtain ⟨t, settled, given', -⟩ | ⟨-, large⟩ := ofJson_settles _
    · rw [settled, given.unique given']
    · exact absurd large bounded

theorem load_of_faults {d : Disk} {p : Path} {f : Fault} (faults : Faults refusal d p f) :
    load refusal d p = .error f := by
  cases faults with
  | unreachable found => exact load_of_unreachable found
  | undecodable found granted decoded => exact granted ▸ load_of_undecodable found decoded
  | tooLong found granted decoded read | tooDeep found granted decoded read =>
    rw [granted, load_of_text found decoded]
    simp only [ofText, read]
  | overflow found granted decoded read overflows =>
    rw [granted, load_of_text found decoded, ofText_of_read read]
    obtain ⟨_, -, -, fine⟩ | ⟨faulty, -⟩ := ofJson_settles _
    · exact absurd overflows fine
    · exact faulty

theorem loads_or_faults_of_text {d : Disk} {p : Path} {content : ByteArray} {s : String}
    (found : d.find? p = .ok (some (.file content))) (decoded : String.fromUTF8? content = some s) :
    (∃ s, Loads none d p s) ∨ ∃ f, Faults none d p f := by
  cases read : Json.parse s.toList with
  | error e =>
    cases e with
    | malformed => exact Or.inl ⟨_, .malformed found rfl decoded read⟩
    | tooLong => exact Or.inr ⟨_, .tooLong found rfl decoded read⟩
    | tooDeep => exact Or.inr ⟨_, .tooDeep found rfl decoded read⟩
  | ok j =>
    by_cases object : ∃ fields, j = .object fields
    · obtain ⟨fields, rfl⟩ := object
      obtain ⟨s, -, given, bounded⟩ | ⟨-, large⟩ := ofJson_settles fields
      · exact Or.inl ⟨s, .stored found rfl decoded read bounded given⟩
      · exact Or.inr ⟨_, .overflow found rfl decoded read large⟩
    · exact Or.inl ⟨_, .foreign found rfl decoded read fun fields same => object ⟨fields, same⟩⟩

theorem loads_or_faults (refusal : Option SystemError) (d : Disk) (p : Path) :
    (∃ s, Loads refusal d p s) ∨ ∃ f, Faults refusal d p f := by
  cases found : d.find? p with
  | error f => exact Or.inr ⟨f, .unreachable found⟩
  | ok item =>
    by_cases file : ∃ content, item = some (.file content)
    · obtain ⟨content, rfl⟩ := file
      cases refusal with
      | some e => exact Or.inl ⟨_, .refused found rfl⟩
      | none =>
        cases decoded : String.fromUTF8? content with
        | none => exact Or.inr ⟨_, .undecodable found rfl decoded⟩
        | some s => exact loads_or_faults_of_text found decoded
    · exact Or.inl ⟨_, .absent found fun content same => file ⟨content, same⟩⟩

theorem loads_of_load {d : Disk} {p : Path} {s : Settings} (loaded : load refusal d p = .ok s) :
    Loads refusal d p s := by
  obtain ⟨t, loads⟩ | ⟨f, faults⟩ := loads_or_faults refusal d p
  · rw [load_of_loads loads] at loaded
    cases loaded
    exact loads
  · rw [load_of_faults faults] at loaded
    cases loaded

theorem faults_of_load {d : Disk} {p : Path} {f : Fault} (failed : load refusal d p = .error f) :
    Faults refusal d p f := by
  obtain ⟨t, loads⟩ | ⟨g, faults⟩ := loads_or_faults refusal d p
  · rw [load_of_loads loads] at failed
    cases failed
  · rw [load_of_faults faults] at failed
    cases failed
    exact faults

/-- What a file holds, and whether the system lets it be read, settles what comes of loading it: the settings that
its fields mean, or one of the faults that there are. A file that cannot be read gives the defaults. -/
theorem load_settles (refusal : Option SystemError) (d : Disk) (p : Path) :
    (∀ s, load refusal d p = .ok s ↔ Loads refusal d p s) ∧
      ∀ f, load refusal d p = .error f ↔ Faults refusal d p f := by
  exact ⟨fun _ => ⟨loads_of_load, load_of_loads⟩, fun _ => ⟨faults_of_load, load_of_faults⟩⟩

/-- A disk with a file whose one octet is no text. -/
def octetDisk : Disk := { items := [(#[.ofString "c.json"], .file ⟨#[0xFF]⟩)] }

theorem not_always_loaded : ¬∀ (d : Disk) (p : Path), ∃ s, load none d p = .ok s := by
  intro always
  obtain ⟨s, loaded⟩ := always octetDisk (Path.ofString "c.json")
  have found : octetDisk.find? (Path.ofString "c.json") = .ok (some (.file ⟨#[0xFF]⟩)) := by rfl
  have undecodable := load_of_undecodable found (by decide)
  cases undecodable.symm.trans loaded

end Settings
end Walkthrough
