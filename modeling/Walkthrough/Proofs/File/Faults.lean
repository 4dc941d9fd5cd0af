import Walkthrough.File.Home
import Walkthrough.Proofs.File.Written

/-!
What keeps a file from being used. A path may spell no names, or the system refuses it (`read_eq_error`); what else
can go wrong has to do with directories, never with what a file holds (`ne_undecodable_of_write` and the like).
-/
namespace Walkthrough

namespace Disk

variable {α β : Type} {d : Disk} {p : Path} {fault : Fault}

theorem names_eq_error (unnamed : p.names = .error fault) : fault = .unencodable ∨ fault = .invalidValue := by
  unfold Path.names at unnamed
  split at unnamed
  · cases unnamed
    exact Or.inl rfl
  · split at unnamed
    · cases unnamed
      exact Or.inr rfl
    · cases unnamed

/-- The path spells no names, or the system refuses it. -/
inductive Lost (p : Path) : Fault → Prop where
  | unnamed {fault : Fault} (names : p.names = .error fault) : Lost p fault
  | refused (number : ErrorNumber) : Lost p (refusal p number)

theorem Lost.ne_undecodable (lost : Lost p fault) : fault ≠ .undecodable := by
  cases lost with
  | unnamed names => rcases names_eq_error names with rfl | rfl <;> exact Fault.noConfusion
  | refused number => exact Fault.noConfusion

/-- What is no error of the system has to do with the names alone. -/
theorem Lost.names (lost : Lost p fault) (other : ∀ e, fault ≠ .system e) : p.names = .error fault := by
  cases lost with
  | unnamed names => exact names
  | refused number => exact absurd rfl (other _)

theorem place_eq_error (stopped : d.place p = .error fault) : Lost p fault := by
  rcases Except.bind_eq_error.mp stopped with unnamed | ⟨names, -, refused⟩
  · exact .unnamed unnamed
  · obtain ⟨number, -, rfl⟩ := Except.mapError_eq_error.mp refused
    exact .refused number

theorem read_of_unnamed (d : Disk) (unnamed : p.names = .error fault) : d.read p = .error fault :=
  Except.bind_eq_error.mpr (Or.inl (Except.bind_eq_error.mpr (Or.inl unnamed)))

/-- At the place of the path, only a refusal of the path itself keeps it from being used. -/
theorem lost_of_place {f : Place → Except Fault α} (stopped : d.place p >>= f = .error fault)
    (missed : ∀ place, f place = .error fault → ∃ number, fault = refusal p number) : Lost p fault := by
  rcases Except.bind_eq_error.mp stopped with lost | ⟨place, -, stopped⟩
  · exact place_eq_error lost
  · obtain ⟨number, rfl⟩ := missed place stopped
    exact .refused number

theorem read_eq_error (stopped : d.read p = .error fault) : Lost p fault :=
  lost_of_place stopped fun place missed => by split at missed <;> cases missed <;> exact ⟨_, rfl⟩

theorem target_eq_error (stopped : d.target p = .error fault) : Lost p fault :=
  lost_of_place stopped fun place missed => by
    split at missed <;> cases missed
    exact ⟨_, rfl⟩

theorem write_eq_error {content : ByteArray} (stopped : d.write p content = .error fault) : Lost p fault := by
  rcases Except.bind_eq_error.mp stopped with lost | ⟨place, -, done⟩
  · exact target_eq_error lost
  · cases done

theorem create_eq_error (stopped : d.create p = .error fault) : Lost p fault :=
  lost_of_place stopped fun place missed => by
    split at missed <;> cases missed
    exact ⟨_, rfl⟩

theorem append_eq_error {content : ByteArray} (stopped : d.append p content = .error fault) : Lost p fault := by
  rcases Except.bind_eq_error.mp stopped with lost | ⟨place, -, done⟩
  · exact target_eq_error lost
  · cases done

theorem find?_eq_error (stopped : d.find? p = .error fault) : Lost p fault := by
  unfold find? at stopped
  split at stopped
  · cases stopped
  · rename_i lost
    split at stopped
    · cases stopped
      exact place_eq_error lost
    · cases stopped

theorem isFile_eq_error (stopped : d.isFile p = .error fault) : Lost p fault := by
  rcases Except.bind_eq_error.mp stopped with lost | ⟨item, -, done⟩
  · exact find?_eq_error lost
  · split at done <;> cases done

theorem isDirectory_eq_error (stopped : d.isDirectory p = .error fault) : Lost p fault := by
  rcases Except.bind_eq_error.mp stopped with lost | ⟨item, -, done⟩
  · exact find?_eq_error lost
  · split at done <;> cases done

theorem listing_eq_error (stopped : d.names p = .error fault) : Lost p fault :=
  lost_of_place stopped fun place missed => by split at missed <;> cases missed <;> exact ⟨_, rfl⟩

theorem settle_eq_error {place : Except ErrorNumber Place} (stopped : d.settle p place = .error fault) :
    ∃ number, fault = refusal p number := by
  rcases Except.bind_eq_error.mp stopped with refused | ⟨place, -, missed⟩
  · obtain ⟨number, -, rfl⟩ := Except.mapError_eq_error.mp refused
    exact ⟨number, rfl⟩
  · split at missed
    · cases missed
    · cases missed
    · cases missed
      exact ⟨_, rfl⟩

theorem makeUpTo_eq_error {missing : Nat} {names : List FileName}
    (stopped : d.makeUpTo p missing names = .error fault) : fault = .tooDeep ∨ ∃ q number, fault = refusal q number := by
  induction names generalizing p missing d with
  | nil =>
    unfold makeUpTo at stopped
    cases stopped
  | cons name before ih =>
    unfold makeUpTo at stopped
    split at stopped
    · cases stopped
      exact Or.inl rfl
    · rcases Except.bind_eq_error.mp stopped with above | ⟨made, -, refused⟩
      · exact ih above
      · exact Or.inr ⟨p, settle_eq_error refused⟩
    · exact Or.inr ⟨p, settle_eq_error stopped⟩

theorem ne_undecodable_of_makeDirectories (stopped : d.makeDirectories p = .error fault) : fault ≠ .undecodable := by
  rcases Except.bind_eq_error.mp stopped with unnamed | ⟨names, -, stopped⟩
  · exact (Lost.unnamed unnamed).ne_undecodable
  · rcases Except.bind_eq_error.mp stopped with stopped | ⟨made, -, done⟩
    · rcases makeUpTo_eq_error stopped with rfl | ⟨q, number, rfl⟩ <;> exact Fault.noConfusion
    · cases done

theorem replace_eq_error {q : Path} (stopped : d.replace p q = .error fault) (other : ∀ e, fault ≠ .system e) :
    p.names = .error fault ∨ q.names = .error fault := by
  rcases Except.bind_eq_error.mp stopped with unnamed | ⟨names, -, stopped⟩
  · exact Or.inl unnamed
  · rcases Except.bind_eq_error.mp stopped with refused | ⟨origin, -, stopped⟩
    · obtain ⟨number, -, rfl⟩ := Except.mapError_eq_error.mp refused
      exact absurd rfl (other _)
    · rcases Except.bind_eq_error.mp stopped with unnamed | ⟨names', -, stopped⟩
      · exact Or.inr unnamed
      · rcases Except.bind_eq_error.mp stopped with refused | ⟨place, -, stopped⟩
        · obtain ⟨number, -, rfl⟩ := Except.mapError_eq_error.mp refused
          exact absurd rfl (other _)
        · split at stopped
          · cases stopped
            exact absurd rfl (other _)
          · split at stopped <;> cases stopped <;> exact absurd rfl (other _)

theorem expanded_eq_error {homes : Homes} (homeless : p.expanded homes = .error fault) :
    fault = .invalidValue ∨ fault = .noHome := by
  unfold Path.expanded at homeless
  split at homeless
  · split at homeless
    · cases homeless
    · split at homeless
      · cases homeless
      · split at homeless
        · cases homeless
          exact Or.inl rfl
        · split at homeless
          · cases homeless
          · cases homeless
            exact Or.inr rfl
  · cases homeless

theorem ne_undecodable_of_uploadPath {homes : Homes} {raw : String} (stopped : d.uploadPath homes raw = .error fault) :
    fault ≠ .undecodable := by
  rcases Except.bind_eq_error.mp stopped with homeless | ⟨p, -, stopped⟩
  · rcases expanded_eq_error homeless with rfl | rfl <;> exact Fault.noConfusion
  · rcases Except.bind_eq_error.mp stopped with unnamed | ⟨names, -, stopped⟩
    · exact (Lost.unnamed unnamed).ne_undecodable
    · rcases Except.bind_eq_error.mp stopped with lost | ⟨there, -, done⟩
      · exact (isFile_eq_error lost).ne_undecodable
      · cases done

end Disk
end Walkthrough
