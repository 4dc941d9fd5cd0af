import Walkthrough.Proofs.File.Written

/-!
Directories that are made. A sound disk has a directory around everything on it. Directories are only made where
there is nothing yet, inside of others that are there (`widens_of_makeDirectories`), so no file changes, what leads
somewhere still leads there, and the disk stays sound.
-/
namespace Walkthrough.Disk

variable {d e : Disk}

/-- What the file at a place holds. -/
def file? (d : Disk) (place : Place) : Option ByteArray :=
  match d.item? place with
  | some (.file content) => some content
  | _ => none

theorem file?_congr {place : Place} (same : e.item? place = d.item? place) : e.file? place = d.file? place := by
  unfold file?
  rw [same]

theorem file?_of_item {place : Place} {content : ByteArray} (there : d.item? place = some (.file content)) :
    d.file? place = some content := by
  unfold file?
  rw [there]

/-- A disk whose files and directories stand in directories. -/
structure Sound (d : Disk) : Prop where
  here : d.item? d.here = some .directory
  inside : ∀ place item, d.item? place = some item → d.item? place.pop = some .directory

/-- A disk that came of another one by making directories. -/
inductive Widens (d : Disk) : Disk → Prop where
  | same : Widens d d
  | make {e : Disk} {place : Place} (wider : Widens d e) (free : e.item? place = none)
      (inside : e.item? place.pop = some .directory) : Widens d (e.put place .directory)

theorem below_of_free {place : Place} (free : d.item? place = none) : place.isEmpty = false := by
  cases root : place.isEmpty with
  | false => rfl
  | true => simp [item?, root] at free

/-- Nothing is lost where something is put at a free place. -/
theorem item?_put_of_free {place other : Place} {item there : Item} (free : d.item? place = none)
    (found : d.item? other = some there) : (d.put place item).item? other = some there := by
  rw [item?_put_of_ne _ item, found]
  rintro rfl
  cases free.symm.trans found

theorem Sound.put {place : Place} (sound : d.Sound) (item : Item) (free : d.item? place = none)
    (inside : d.item? place.pop = some .directory) : (d.put place item).Sound where
  here := item?_put_of_free free sound.here
  inside other there found := by
    by_cases new : other = place
    · rw [new]
      exact item?_put_of_free free inside
    · rw [item?_put_of_ne new] at found
      exact item?_put_of_free free (sound.inside other there found)

theorem Widens.sound (wider : Widens d e) (sound : d.Sound) : e.Sound := by
  induction wider with
  | same => exact sound
  | make _ free inside ih => exact ih.put .directory free inside

theorem Widens.here (wider : Widens d e) : e.here = d.here := by
  induction wider with
  | same => rfl
  | make _ _ _ ih => exact ih

theorem Widens.item? {place : Place} {item : Item} (wider : Widens d e) (found : d.item? place = some item) :
    e.item? place = some item := by
  induction wider with
  | same => exact found
  | make _ free _ ih => exact item?_put_of_free free ih

theorem Widens.file? (wider : Widens d e) (place : Place) : e.file? place = d.file? place := by
  induction wider with
  | same => rfl
  | @make e made _ free _ ih =>
    rw [← ih]
    by_cases new : place = made
    · rw [new, Disk.file?, Disk.file?, item?_put_self (below_of_free free), free]
    · exact file?_congr (item?_put_of_ne new _)

theorem Widens.trans {f : Disk} (one : Widens d e) (other : Widens e f) : Widens d f := by
  induction other with
  | same => exact one
  | make _ free inside ih => exact .make ih free inside

/-- Every directory of a disk is one of another disk, too. -/
structure Keeps (d e : Disk) : Prop where
  here : e.here = d.here
  directories : ∀ place, d.item? place = some .directory → e.item? place = some .directory

theorem Keeps.foldlM_step {names : List FileName} {place reached : Place} (keeps : Keeps d e)
    (walked : names.foldlM d.step place = .ok reached) : names.foldlM e.step place = .ok reached := by
  induction names generalizing place with
  | nil => exact walked
  | cons name later ih =>
    rw [List.foldlM_cons] at walked ⊢
    obtain ⟨next, stepped, walked⟩ := Except.bind_eq_ok.mp walked
    have there := item?_of_step stepped
    rw [step_congr (there.trans (keeps.directories place there).symm)] at stepped
    exact Except.bind_eq_ok.mpr ⟨next, stepped, ih walked⟩

theorem Keeps.walk {root : Root} {names : List FileName} {reached : Place} (keeps : Keeps d e)
    (walked : d.walk root names = .ok reached) : e.walk root names = .ok reached := by
  unfold Disk.walk at walked ⊢
  split
  · rename_i long
    rw [if_pos long] at walked
    cases walked
  · rename_i short
    rw [if_neg short] at walked
    unfold start at walked ⊢
    rw [keeps.here]
    exact keeps.foldlM_step walked

/-- What leads somewhere leads there on a disk with more directories. -/
theorem Keeps.place {p : Path} {reached : Place} (keeps : Keeps d e) (placed : d.place p = .ok reached) :
    e.place p = .ok reached := by
  obtain ⟨names, named, walked⟩ := place_eq_ok.mp placed
  exact place_eq_ok.mpr ⟨names, named, keeps.walk walked⟩

theorem Keeps.trans {f : Disk} (one : Keeps d e) (other : Keeps e f) : Keeps d f where
  here := other.here.trans one.here
  directories place there := other.directories place (one.directories place there)

theorem Widens.keeps (wider : Widens d e) : Keeps d e where
  here := wider.here
  directories _ := wider.item?

/-- A step leads out of a directory or into it. -/
theorem step_eq_ok {place next : Place} {name : FileName} (stepped : d.step place name = .ok next) :
    d.item? place = some .directory ∧
      (name = .ofString ".." ∧ next = place.pop ∨ name ≠ .ofString ".." ∧ next = place.push name) := by
  refine ⟨item?_of_step stepped, ?_⟩
  unfold step at stepped
  rw [item?_of_step stepped] at stepped
  dsimp only at stepped
  split at stepped
  · cases stepped
  · split at stepped
    · rename_i back
      cases stepped
      exact Or.inl ⟨back, rfl⟩
    · rename_i onward
      cases stepped
      exact Or.inr ⟨onward, rfl⟩

/-- A walk stays where it starts, or its last step is one out of a directory or into it. -/
theorem walk_eq_ok {root : Root} {names : List FileName} {reached : Place} (walked : d.walk root names = .ok reached) :
    names = [] ∧ reached = d.start root ∨ ∃ before name place, names = before ++ [name] ∧
      d.step place name = .ok reached := by
  unfold walk at walked
  split at walked
  · cases walked
  · rcases List.eq_nil_or_concat names with rfl | ⟨before, name, rfl⟩
    · cases walked
      exact Or.inl ⟨rfl, rfl⟩
    · rw [List.concat_eq_append, List.foldlM_append] at walked
      obtain ⟨place, -, walked⟩ := Except.bind_eq_ok.mp walked
      obtain ⟨next, stepped, done⟩ := Except.bind_eq_ok.mp walked
      cases done
      exact Or.inr ⟨before, name, place, List.concat_eq_append, stepped⟩

theorem Sound.start (sound : d.Sound) (root : Root) : d.item? (d.start root) = some .directory := by
  unfold Disk.start
  split
  · exact sound.here
  · rfl

/-- Where there is nothing yet, a step led into a directory. -/
theorem Sound.inside_of_step {place next : Place} {name : FileName} (sound : d.Sound)
    (stepped : d.step place name = .ok next) (free : d.item? next = none) : d.item? next.pop = some .directory := by
  obtain ⟨directory, ⟨-, rfl⟩ | ⟨-, rfl⟩⟩ := step_eq_ok stepped
  · cases free.symm.trans (sound.inside place _ directory)
  · rwa [Array.pop_push]

theorem Sound.inside_of_walk {root : Root} {names : List FileName} {reached : Place} (sound : d.Sound)
    (walked : d.walk root names = .ok reached) (free : d.item? reached = none) :
    d.item? reached.pop = some .directory := by
  obtain ⟨-, rfl⟩ | ⟨before, name, place, -, stepped⟩ := walk_eq_ok walked
  · cases free.symm.trans (sound.start root)
  · exact sound.inside_of_step stepped free

theorem widens_of_settle {p : Path} {found : Except ErrorNumber Place} {reached : Place}
    (inside : ∀ place, found = .ok place → d.item? place = none → d.item? place.pop = some .directory)
    (settled : d.settle p found = .ok (e, reached)) : Widens d e := by
  obtain ⟨place, placed, settled⟩ := Except.bind_eq_ok.mp settled
  split at settled
  · rename_i free
    cases settled
    exact .make .same free (inside _ (Except.mapError_eq_ok.mp placed) free)
  · cases settled
    exact .same
  · cases settled

theorem widens_of_makeUpTo {p : Path} {missing : Nat} {names : List FileName} {reached : Place} (sound : d.Sound)
    (made : d.makeUpTo p missing names = .ok (e, reached)) : Widens d e := by
  induction names generalizing p missing e reached with
  | nil =>
    unfold makeUpTo at made
    cases made
    exact .same
  | cons name before ih =>
    unfold makeUpTo at made
    split at made
    · cases made
    · obtain ⟨⟨above, place⟩, begun, settled⟩ := Except.bind_eq_ok.mp made
      have wider := ih begun
      exact wider.trans (widens_of_settle (fun _ stepped free => (wider.sound sound).inside_of_step stepped free) settled)
    · exact widens_of_settle (fun _ walked free => sound.inside_of_walk walked free) made

theorem widens_of_makeDirectories {p : Path} (sound : d.Sound) (made : d.makeDirectories p = .ok e) : Widens d e := by
  obtain ⟨names, -, made⟩ := Except.bind_eq_ok.mp made
  obtain ⟨⟨wider, place⟩, made, same⟩ := Except.bind_eq_ok.mp made
  cases same
  exact widens_of_makeUpTo sound made

end Walkthrough.Disk
