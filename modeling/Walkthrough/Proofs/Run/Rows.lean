import Walkthrough.Proofs.Run.Lasting
import Walkthrough.Proofs.Run.Reached

/-!
The row of a run. A run never changes the row that it is for, so whenever a statement begins and whenever a
command is reached, the memory still has that row (`row_at_work`). A text refers to names only
(`Piece.isName_of_mem_split`), and a name between angle brackets is one placeholder
(`Piece.split_bracketed`).
-/
namespace Walkthrough

open Walkthrough.Action

variable {σ η ν : Type}

namespace Piece

theorem isName_append {name : List Char} (filled : name ≠ []) (c : Char) :
    Name.isName (name ++ [c]) = (Name.isName name && Name.isRest c) := by
  cases name with
  | nil => exact absurd rfl filled
  | cons first rest => simp [Name.isName, Bool.and_assoc]

theorem isRest_of_isStart {c : Char} (start : Name.isStart c = true) : Name.isRest c = true := by
  simp only [Name.isStart, Name.isRest, Char.isAlphanum, Bool.or_eq_true] at start ⊢
  exact start.imp_left Or.inl

/-- What may become a name, read backwards. -/
def Begins (name : List Char) : Prop := name = [] ∨ Name.isName name.reverse = true

theorem begins_cons {name : List Char} {c : Char} (begins : Begins name) (fitting : fits name c = true) :
    Begins (c :: name) := by
  refine Or.inr ?_
  rw [List.reverse_cons]
  unfold fits at fitting
  rcases begins with rfl | named
  · simpa [Name.isName] using fitting
  · have filled : name ≠ [] := by
      rintro rfl
      simp [Name.isName] at named
    rw [if_neg (by simpa using filled)] at fitting
    rw [isName_append (by simpa using filled), named, fitting]
    rfl

theorem mem_putLiteral {read name : List Char} {later : List Piece}
    (among : placeholder name ∈ putLiteral read later) : placeholder name ∈ later := by
  unfold putLiteral at among
  split at among
  · exact among
  · simpa using among

theorem isName_of_mem_splitAfter (read : List Char) (begun : Option (List Char)) (text : List Char)
    (begins : ∀ name ∈ begun, Begins name) {name : List Char}
    (among : placeholder name ∈ splitAfter read begun text) : Name.isName name = true := by
  -- What was begun after an angle bracket stays the beginning of a name, character by character.
  fun_induction splitAfter read begun text with
  | case1 => exact absurd (mem_putLiteral among) (List.not_mem_nil)
  | case2 => exact absurd (mem_putLiteral among) (List.not_mem_nil)
  | case3 _ _ ih => exact ih (by simp [Begins]) among
  | case4 _ _ _ _ ih => exact ih (by simp) among
  | case5 read held c rest closed ih =>
    rcases List.mem_cons.mp (mem_putLiteral among) with same | later
    · cases same
      refine (begins held rfl).resolve_left ?_
      rintro rfl
      simp at closed
    · exact ih (by simp) later
  | case6 _ _ _ _ ih => exact ih (by simp [Begins]) among
  | case7 _ held c _ _ _ fitting ih =>
    refine ih ?_ among
    rintro _ ⟨⟩
    exact begins_cons (begins held rfl) fitting
  | case8 _ _ _ _ _ _ _ ih => exact ih (by simp) among

theorem isName_of_mem_split {text name : List Char} (among : placeholder name ∈ split text) :
    Name.isName name = true :=
  isName_of_mem_splitAfter [] none text (by simp) among

theorem isRest_ne {c d : Char} (rest : Name.isRest c = true) (other : Name.isRest d = false) : c ≠ d := by
  rintro rfl
  rw [other] at rest
  cases rest

theorem splitAfter_rest (read : List Char) {held : List Char} (filled : held ≠ []) {name : List Char}
    (rest : ∀ c ∈ name, Name.isRest c = true) (later : List Char) :
    splitAfter read (some held) (name ++ '>' :: later) =
      putLiteral read (placeholder (held.reverse ++ name) :: split later) := by
  induction name generalizing held with
  | nil => simp [splitAfter, split, filled]
  | cons c more ih =>
    obtain ⟨first, others⟩ := List.forall_mem_cons.mp rest
    have notClosing : c ≠ '>' := isRest_ne first (by decide)
    have notOpening : c ≠ '<' := isRest_ne first (by decide)
    have fitting : fits held c = true := by simp [fits, filled, first]
    have going := ih (List.cons_ne_nil c held) others
    simp only [List.cons_append, splitAfter, notClosing, notOpening, fitting, going]
    simp

/-- Behind an opening bracket a name and the closing one end a placeholder. -/
theorem splitAfter_name (read : List Char) {name : List Char} (named : Name.isName name = true)
    (later : List Char) :
    splitAfter read (some []) (name ++ '>' :: later) = putLiteral read (placeholder name :: split later) := by
  cases name with
  | nil => cases named
  | cons c rest =>
    simp only [Name.isName, Bool.and_eq_true, List.all_eq_true] at named
    obtain ⟨start, others⟩ := named
    have notClosing : c ≠ '>' := isRest_ne (isRest_of_isStart start) (by decide)
    have notOpening : c ≠ '<' := isRest_ne (isRest_of_isStart start) (by decide)
    have fitting : fits [] c = true := by simp [fits, start]
    have going := splitAfter_rest read (List.cons_ne_nil c []) others later
    simp only [List.cons_append, splitAfter, notClosing, notOpening, fitting, going]
    simp

/-- A name between angle brackets is one placeholder. -/
theorem split_bracketed {name : List Char} (named : Name.isName name = true) :
    split (source (placeholder name)) = [placeholder name] := by
  have read := splitAfter_name [] named []
  rw [split, source, List.cons_append, splitAfter, if_pos rfl, read]
  rfl

end Piece

theorem Memory.fillIn_bracketed {m : Memory η} {name : List Char} {value : String}
    (named : Name.isName name = true) (found : m.lookup (String.ofList name) = some value) :
    m.fillIn (String.ofList (Piece.source (.placeholder name))) = value := by
  unfold Memory.fillIn interpolate
  rw [String.toList_ofList, Piece.split_bracketed named]
  simp [Piece.fill, found]

namespace Setup

variable {setup : Setup σ η ν} {row : Bindings}

theorem row_lasting (setup : Setup σ η ν) (row : Bindings) :
    setup.Lasting (fun _ => True) fun m _ => m.row = row :=
  .of_memory setup (fun _ _ same => same) (fun _ _ _ _ same => same) (fun _ _ _ same => same) fun _ _ same => same

theorem row_stays (row : Bindings) : Stays fun (m : Memory η) (_ : Session σ ν) => m.row = row where
  save _ _ same := same
  confine _ same := same
  arm _ same := same

/-- A memory that texts of a visit are filled in from: the one that its statement began with, or one with which
a command of it was reached. -/
inductive AtWork (setup : Setup σ η ν) (v : Visit σ η ν) : Memory η → Prop where
  | begun : AtWork setup v v.begun.memory
  | reached {earlier later : List Command} {c : Command} {begun reached : RunState σ η ν}
      (shape : v.statement.form.commands = earlier ++ c :: later)
      (reaches : setup.Reaches v.phase v.statement.form earlier v.begun begun reached) :
      AtWork setup v reached.memory

variable {v : Visit σ η ν} {m : Memory η}

theorem enter_row {form : Form} {s t : RunState σ η ν} (kept : s.memory.row = row)
    (entered : setup.enter form s = .ok () t) : t.memory.row = row := by
  unfold enter at entered
  split at entered
  · rename_i anchor _
    obtain ⟨element, found, anchored, confined⟩ := bind_eq_ok.mp entered
    have same := (setup.row_lasting row).anchorElement anchor kept
    rw [anchored] at same
    cases confined
    exact same
  · cases entered
    exact kept

theorem AtWork.row_eq (work : AtWork setup v m) (kept : v.before.memory.row = row) : m.row = row := by
  have begins : v.begun.memory.row = row := by
    obtain ⟨armed, begun⟩ := v.begun_eq
    rw [begun]
    exact kept
  cases work with
  | begun => exact begins
  | @reached earlier _ _ begun reached _ reaches =>
    have entered := enter_row begins reaches.entered
    have performed := (setup.row_lasting row).performAll v.phase earlier (fun _ _ => trivial) entered
    rw [reaches.performed] at performed
    exact performed

/-- Between the visits of a run its memory has the row that the run is for. -/
theorem upholds_row (setup : Setup σ η ν) (script : Script) (row : Bindings) :
    Run.Upholds setup.conduct script fun visits s =>
      s.memory.row = row ∧ ∀ v ∈ visits, v.before.memory.row = row where
  note _ holds := holds
  forget holds := holds
  visit {_ _ v} noted holds before _ done := by
    subst before
    obtain ⟨same, earlier⟩ := holds
    refine ⟨?_, List.forall_mem_append.mpr ⟨earlier, List.forall_mem_singleton.mpr same⟩⟩
    have kept := (setup.row_lasting row).execute (row_stays row) v.phase v.statement v.upcoming
      (fun _ _ => trivial) same
    rw [done.final_eq] at kept
    exact kept

/-- In a run that returns, texts are filled in from memories with the row that the run is for. -/
theorem row_at_work {script : Script} {startedAt : Moment} {session : Session σ ν} {record : RunRecord}
    {t : RunState σ η ν} (returned : setup.run script row startedAt session = .ok record t) :
    ∃ u visits, setup.observedRun script row startedAt session = .ok record u ∧ u.inner = t ∧
      u.kept = visits.flatMap Visit.sightings ∧ Run.Filed setup.conduct script visits record.entries ∧
      ∀ v ∈ visits, ∀ m, AtWork setup v m → m.row = row := by
  obtain ⟨u, observed, same⟩ := observedRun_returns returned
  obtain ⟨visits, seen, filed, -, kept⟩ := (setup.upholds_row script row).run
    (s := { session := session.keeping [], memory := { row } }) rfl ⟨rfl, List.forall_mem_nil _⟩ observed
  exact ⟨u, visits, observed, same, seen, filed, fun v among m work => work.row_eq (kept v among)⟩

end Setup
end Walkthrough
