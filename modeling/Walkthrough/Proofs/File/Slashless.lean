import Walkthrough.Proofs.File.Undisturbed

/-!
Names without a slash. A name that a text spells is spelled by that text (`FileName.text_ofString`). Where no name on a
disk has a slash in it, no name that a directory lists has one (`Disk.Slashless.names`), and a text without a slash is
the name of what it leads to from any path (`Path.called_child`).
-/
namespace Walkthrough

open Text (Symbol Units unitsOf)

theorem Text.eq_slash_of_mem {c : Char} (listed : Path.slash ∈ unitsOf c) : c = '/' := by
  have toNat_eq {n : Nat} (small : n < 0x10000) (same : Path.slash = UInt16.ofNat n) : n = 0x2F := by
    have value := congrArg UInt16.toNat same
    rw [UInt16.toNat_ofNat', Nat.mod_eq_of_lt small] at value
    exact value.symm
  unfold unitsOf at listed
  split at listed
  · next small =>
    rw [← Char.ofNat_toNat c, toNat_eq small (List.mem_singleton.mp listed)]
  · have bound : c.toNat < 0x110000 := by
      rcases c.valid with below | above
      · exact Nat.lt_trans below (by decide)
      · exact above.2
    rcases List.mem_cons.mp listed with high | low
    · exact absurd (toNat_eq (by omega) high) (by omega)
    · exact absurd (toNat_eq (by omega) (List.mem_singleton.mp low)) (by omega)

theorem Text.not_mem_ofString {s : String} (plain : '/' ∉ s.toList) : Path.slash ∉ (Units.ofString s).toList := by
  intro listed
  obtain ⟨c, among, inside⟩ := List.mem_flatMap.mp listed
  exact plain (eq_slash_of_mem inside ▸ among)

theorem Text.mem_ofString {s : String} (listed : '/' ∈ s.toList) : Path.slash ∈ (Units.ofString s).toList :=
  List.mem_flatMap.mpr ⟨'/', listed, by decide⟩

namespace Path

theorem pieces_of_plain {units : List UInt16} (plain : slash ∉ units) : pieces units = [units] := by
  induction units with
  | nil => rfl
  | cons unit rest ih =>
    unfold pieces
    rw [if_neg (List.ne_of_not_mem_cons plain).symm, ih (List.not_mem_of_not_mem_cons plain)]

/-- A text without a slash is one step on. -/
theorem called_child (p : Path) {s : String} (plain : '/' ∉ s.toList) (filled : s ≠ "") (moving : s ≠ ".")
    (onward : s ≠ "..") : (p.child s).Called s := by
  refine ⟨?_, onward⟩
  have slashless := Text.not_mem_ofString plain
  have step : isStep (Units.ofString s).toList = true := by
    have nonempty : (Units.ofString s).toList ≠ [] := fun none => filled (Units.ofString_inj.mp (congrArg Text.Units.mk none))
    have other : (Units.ofString s).toList ≠ [dot] := fun same => moving (Units.ofString_inj.mp (congrArg Text.Units.mk same))
    simp [isStep, nonempty, other]
  have relative : rootOf (Units.ofString s).toList = .relative := by
    cases units : (Units.ofString s).toList with
    | nil => rfl
    | cons unit rest =>
      rw [units] at slashless
      have other : (unit == slash) = false := beq_eq_false_iff_ne.mpr (List.ne_of_not_mem_cons slashless).symm
      simp [rootOf, other]
  have read : ofString s = ⟨.relative, [Units.ofString s]⟩ := by
    unfold ofString ofUnits
    rw [relative, pieces_of_plain slashless, List.filter_cons_of_pos step]
    rfl
  have joined : (p.child s).steps = p.steps ++ [Units.ofString s] := by
    unfold child
    rw [read]
    rfl
  rw [joined, List.getLast?_concat]

end Path

namespace FileName

theorem getElem_of_decoded {octets : ByteArray} {i : Nat} (bound : i < octets.size)
    (decoded : octets.utf8DecodeChar? i = some '/') : octets[i] = 0x2F := by
  rw [ByteArray.utf8DecodeChar?_eq_utf8DecodeChar?_extract] at decoded
  obtain ⟨later, rest⟩ := ByteArray.exists_of_utf8DecodeChar?_eq_some decoded
  have size : 0 < (octets.extract i octets.size).size := by
    rw [ByteArray.size_extract]
    omega
  have first : (octets.extract i octets.size)[0] = octets[i] := by
    rw [ByteArray.getElem_extract]
    rfl
  have encoded : String.utf8EncodeChar '/' = [0x2F] := rfl
  rw [← first]
  simp only [rest, encoded]
  rw [ByteArray.getElem_append_left (by decide)]
  rfl

theorem slash_of_symbolsFrom (octets : ByteArray) (i : Nat) {symbol : Symbol} (among : symbol ∈ symbolsFrom octets i)
    (inside : Path.slash ∈ symbol.units) : ∃ (i : Nat) (bound : i < octets.size), octets[i] = 0x2F := by
  induction i using symbolsFrom.induct octets with
  | case1 i bound c decoded ih =>
    rw [symbolsFrom, dif_pos bound, decoded] at among
    rcases List.mem_cons.mp among with rfl | later
    · obtain rfl := Text.eq_slash_of_mem inside
      exact ⟨i, bound, getElem_of_decoded bound decoded⟩
    · exact ih later
  | case2 i bound undecoded ih =>
    rw [symbolsFrom, dif_pos bound, undecoded] at among
    rcases List.mem_cons.mp among with rfl | later
    · have value := congrArg UInt16.toNat (List.mem_singleton.mp inside)
      have small := octets[i].toNat_lt
      rw [UInt16.toNat_add, UInt8.toNat_toUInt16] at value
      have slash : Path.slash.toNat = 0x2F := rfl
      have low : (0xDC00 : UInt16).toNat = 0xDC00 := rfl
      omega
    · exact ih later
  | case3 i bound =>
    rw [symbolsFrom, dif_neg bound] at among
    cases among

theorem slash_of_text {name : FileName} (inside : Path.slash ∈ name.text.toList) : 0x2F ∈ name.octets := by
  obtain ⟨symbol, among, inside⟩ := List.mem_flatMap.mp inside
  obtain ⟨i, bound, here⟩ := slash_of_symbolsFrom _ 0 among inside
  rw [List.getElem_toByteArray] at here
  exact here ▸ List.getElem_mem _

theorem symbolsFrom_encoded (before : List UInt8) (chars : List Char) :
    symbolsFrom (before ++ chars.flatMap String.utf8EncodeChar).toByteArray before.length = chars.map Symbol.char := by
  induction chars generalizing before with
  | nil =>
    rw [symbolsFrom, dif_neg]
    · rfl
    · simp
  | cons c later ih =>
    have front : (before ++ (c :: later).flatMap String.utf8EncodeChar) =
        (before ++ String.utf8EncodeChar c) ++ later.flatMap String.utf8EncodeChar := by
      rw [List.flatMap_cons, List.append_assoc]
    have size : (before ++ String.utf8EncodeChar c).length = before.length + c.utf8Size := by
      rw [List.length_append, String.length_utf8EncodeChar]
    have bound : before.length < (before ++ (c :: later).flatMap String.utf8EncodeChar).toByteArray.size := by
      have := c.utf8Size_pos
      rw [front, List.size_toByteArray, List.length_append, size]
      omega
    have decoded : (before ++ (c :: later).flatMap String.utf8EncodeChar).toByteArray.utf8DecodeChar? before.length =
        some c := by
      rw [ByteArray.utf8DecodeChar?_eq_utf8DecodeChar?_extract, List.toByteArray_append,
        ByteArray.extract_append_eq_right (by rw [List.size_toByteArray]) ByteArray.size_append, List.flatMap_cons,
        List.toByteArray_append, ByteArray.utf8DecodeChar?_utf8EncodeChar_append]
    rw [symbolsFrom, dif_pos bound, decoded]
    dsimp only
    rw [front, ← size, ih, List.map_cons]

/-- A name that a text spells is spelled by that text. -/
theorem text_ofString (s : String) : (ofString s).text = .ofString s := by
  have spelt := symbolsFrom_encoded [] s.toList
  unfold text ofString
  rw [List.nil_append, List.length_nil] at spelt
  dsimp only
  rw [spelt]
  unfold Units.ofSymbols Units.ofString
  rw [List.flatMap_map]
  rfl

end FileName

namespace Disk

/-- No name on the disk has a slash in it. -/
def Slashless (d : Disk) : Prop := ∀ entry ∈ d.items, ∀ name ∈ entry.1, 0x2F ∉ name.octets

theorem Slashless.names {d : Disk} {p : Path} {listed : List Units} (slashless : d.Slashless)
    (found : d.names p = .ok listed) : ∀ name ∈ listed, Path.slash ∉ name.toList := by
  obtain ⟨place, -, found⟩ := Except.bind_eq_ok.mp found
  split at found
  · cases found
  · cases found
  · cases found
    intro name among inside
    obtain ⟨⟨known, item⟩, member, named⟩ := List.mem_filterMap.mp (List.mem_mergeSort.mp among)
    dsimp only at named
    split at named
    · obtain ⟨last, back, rfl⟩ := Option.map_eq_some_iff.mp named
      exact slashless (known, item) member last (Array.mem_of_back? back) (FileName.slash_of_text inside)
    · cases named

end Disk
end Walkthrough
