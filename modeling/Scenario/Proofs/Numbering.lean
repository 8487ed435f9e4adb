import Mathlib.Data.List.Induction
import Mathlib.Data.List.Nodup
import Mathlib.Data.List.TakeWhile
import Mathlib.Data.String.Basic
import Scenario.Archive
import Scenario.Archive.Numbering
import Scenario.Proofs.Numerals

/-!
# Scenario.Proofs.Numbering

Numbered files.  The file of an index has at least five digits in its name,
and those with exactly five take part in an archive, so there are a hundred
thousand of them.

1. The name of an index spells it (`decimalValue_fileName`), and takes part if
   it has no sixth digit (`nameDigits?_fileName`).
2. Names of five digits are ordered as their indices (`fileName_lt`).
3. Hence, of the files of indices without a gap, in whatever order they are
   listed, those of the first hundred thousand are packed, and nothing is said
   about the others (`numberedFiles_of_perm`).
-/

namespace Scenario

/-! ## digits -/

theorem Text.digitValue?_digitChar {d : Nat} (h : d < 10) :
    digitValue? d.digitChar = some d := by
  interval_cases d <;> rfl

theorem Text.digitValue?_lt {c : Char} {d : Nat} (h : digitValue? c = some d) : d < 10 := by
  rw [digitValue?, Option.map_eq_some_iff] at h
  obtain ⟨start, hstart, rfl⟩ := h
  have hrange := List.find?_some hstart
  simp only [Bool.and_eq_true, decide_eq_true_eq] at hrange
  omega

/-- A digit of ASCII is the digit of a value below ten. -/
theorem Text.exists_digitChar_of_isDigit {c : Char} (h : c.isDigit = true) :
    ∃ d < 10, c = Nat.digitChar d := by
  have hrange : 0x30 ≤ c.toNat ∧ c.toNat < 0x30 + 10 := by
    rw [Char.isDigit, Bool.and_eq_true, decide_eq_true_iff, decide_eq_true_iff, ge_iff_le,
      UInt32.le_iff_toNat_le, UInt32.le_iff_toNat_le] at h
    exact ⟨h.1, Nat.lt_succ_of_le h.2⟩
  have hdigit : ∀ d < 10, (Nat.digitChar d).toNat = 0x30 + d := by decide
  refine ⟨c.toNat - 0x30, by omega, Char.toNat_inj.mp ?_⟩
  rw [hdigit _ (by omega)]
  omega

/-- A digit of ASCII is a decimal digit. -/
theorem Text.isDecimalDigit_of_isDigit {c : Char} (h : c.isDigit = true) :
    isDecimalDigit c = true := by
  obtain ⟨d, hd, rfl⟩ := exists_digitChar_of_isDigit h
  simp [isDecimalDigit, digitValue?_digitChar hd]

/-- One more character behind others. -/
theorem Text.decimalValue_append_singleton (cs : List Char) (c : Char) :
    decimalValue (cs ++ [c]) = 10 * decimalValue cs + (digitValue? c).getD 0 := by
  simp [decimalValue]

/-- One more digit behind others. -/
theorem Text.decimalValue_concat (cs : List Char) {d : Nat} (h : d < 10) :
    decimalValue (cs ++ [d.digitChar]) = 10 * decimalValue cs + d := by
  rw [decimalValue_append_singleton, digitValue?_digitChar h, Option.getD_some]

/-- What digits spell has no more places than there are digits. -/
theorem Text.decimalValue_lt (cs : List Char) : decimalValue cs < 10 ^ cs.length := by
  induction cs using List.reverseRecOn with
  | nil => decide
  | append_singleton cs c ih =>
      have hdigit : (digitValue? c).getD 0 < 10 := by
        cases hc : digitValue? c with
        | none => decide
        | some d => exact digitValue?_lt hc
      rw [decimalValue_append_singleton, List.length_append, List.length_singleton, Nat.pow_succ]
      omega

/-- The digits of a number spell it. -/
theorem Text.decimalValue_decimalDigits (n : Nat) :
    decimalValue (Numeral.decimalDigits n) = n := by
  induction n using Nat.strongRecOn with
  | ind n ih =>
      rw [Numeral.decimalDigits_eq]
      split
      · next hlt => simpa [decimalValue] using decimalValue_concat [] hlt
      · rw [decimalValue_concat _ (Nat.mod_lt _ (by decide)), ih _ (by omega)]
        omega

/-- Zeros on the left do not count. -/
theorem Text.decimalValue_leftpad (width : Nat) (cs : List Char) :
    decimalValue (cs.leftpad width '0') = decimalValue cs := by
  have hzeros : ∀ count, (List.replicate count '0').foldl
      (fun n c => 10 * n + (digitValue? c).getD 0) 0 = 0 := by
    intro count
    induction count with
    | zero => rfl
    | succ count ih => simpa [List.replicate_succ, digitValue?, decimalZeros] using ih
  rw [decimalValue, List.leftpad, List.foldl_append, hzeros, decimalValue]

namespace Archive

/-! ## names -/

/-- The name of the file of an index. -/
def fileName (index : Nat) : String := Numeral.decimalPadded 5 index

/-- How many files can take part in an archive. -/
def maxNumbered : Nat := 100000

theorem toList_fileName (index : Nat) :
    (fileName index).toList = (Numeral.decimalDigits index).leftpad 5 '0' := by
  rw [fileName, Numeral.decimalPadded, String.toList_ofList]
  rfl

/-- The name of an index spells it. -/
theorem decimalValue_fileName (index : Nat) :
    Text.decimalValue (fileName index).toList = index := by
  rw [toList_fileName, Text.decimalValue_leftpad, Text.decimalValue_decimalDigits]

theorem fileName_injective : Function.Injective fileName := fun i j h => by
  rw [← decimalValue_fileName i, h, decimalValue_fileName]

theorem isDigit_of_mem_fileName {index : Nat} {c : Char} (h : c ∈ (fileName index).toList) :
    c.isDigit = true := by
  rw [toList_fileName, List.leftpad, List.mem_append, Numeral.decimalDigits, Nat.toList_repr] at h
  rcases h with h | h
  · rw [List.eq_of_mem_replicate h]
    rfl
  · exact Nat.isDigit_of_mem_toDigits (by decide) (by decide) h

/-- The name of an index has five digits, or one for each place if these are
more. -/
theorem length_fileName (index : Nat) :
    5 ≤ (fileName index).toList.length ∧
      ((fileName index).toList.length = 5 ↔ index < maxNumbered) := by
  have hdigits : (Nat.toDigits 10 index).length ≤ 5 ↔ index < maxNumbered :=
    Nat.length_toDigits_le_iff (by decide) (by decide)
  rw [toList_fileName, List.length_leftpad, Numeral.decimalDigits, Nat.toList_repr]
  omega

/-- An index that an archive can have has no seventh digit. -/
theorem length_fileName_le {index : Nat} (h : index < maxEntries) :
    (fileName index).toList.length ≤ 6 := by
  have hdigits : (Nat.toDigits 10 index).length ≤ 6 :=
    (Nat.length_toDigits_le_iff (by decide) (by decide)).mpr (Nat.lt_trans h (by decide))
  rw [toList_fileName, List.length_leftpad, Numeral.decimalDigits, Nat.toList_repr]
  omega

/-- Names are as long as they have digits. -/
theorem utf8ByteSize_fileName (index : Nat) :
    (fileName index).utf8ByteSize = (fileName index).toList.length := by
  have hlength : ∀ cs : List Char, (∀ c ∈ cs, c.isDigit = true) →
      (String.ofList cs).utf8ByteSize = cs.length := by
    intro cs
    induction cs with
    | nil => exact fun _ => rfl
    | cons c cs ih =>
        intro h
        rw [List.forall_mem_cons] at h
        have hsize : c.utf8Size = 1 := by
          rw [Char.isDigit, Bool.and_eq_true, decide_eq_true_iff, decide_eq_true_iff] at h
          rw [Char.utf8Size_eq_one_iff]
          exact UInt32.le_trans h.1.2 (by decide)
        have hrest := ih h.2
        rw [String.utf8ByteSize_ofList] at hrest ⊢
        rw [String.utf8Len_cons, hrest, hsize, List.length_cons]
  have hname := hlength (fileName index).toList fun c hc => isDigit_of_mem_fileName hc
  rw [String.ofList_toList] at hname
  exact hname

/-- The name of an index takes part if it has no sixth digit. -/
theorem nameDigits?_fileName (index : Nat) :
    nameDigits? (fileName index) =
      if index < maxNumbered then some (fileName index).toList else none := by
  have hdigits : (fileName index).toList.takeWhile Text.isDecimalDigit = (fileName index).toList :=
    List.takeWhile_eq_self_iff.mpr fun c hc =>
      Text.isDecimalDigit_of_isDigit (isDigit_of_mem_fileName hc)
  have hlength := (length_fileName index).2
  rw [nameDigits?, hdigits]
  by_cases hlt : index < maxNumbered
  · rw [if_pos hlt,
      if_pos ⟨hlength.mpr hlt, .inl (List.drop_eq_nil_of_le (by rw [hlength.mpr hlt]))⟩]
  · rw [if_neg hlt, if_neg fun h => hlt (hlength.mp h.1)]

theorem isNumbered_fileName (index : Nat) :
    isNumbered (fileName index) = decide (index < maxNumbered) := by
  rw [isNumbered, nameDigits?_fileName]
  split <;> simp [*]

theorem numberOf_fileName {index : Nat} (h : index < maxNumbered) :
    numberOf (fileName index) = index := by
  rw [numberOf, nameDigits?_fileName, if_pos h, Option.getD_some, decimalValue_fileName]

/-- Names of five digits are ordered as their indices. -/
theorem fileName_lt {i j : Nat} (hij : i < j) (hj : j < maxNumbered) : fileName i < fileName j := by
  have hdigit : ∀ a b, a < b → b < 10 → a.digitChar < b.digitChar := by
    intro a b hab hb
    interval_cases b <;> interval_cases a <;> decide
  have hlt : ∀ {n}, n < maxNumbered → n < 10 ^ (4 + 1) := id
  rw [String.lt_iff_toList_lt, fileName, fileName, Numeral.toList_decimalPadded (hlt hj),
    Numeral.toList_decimalPadded (hlt (Nat.lt_trans hij hj))]
  apply Numeral.lastDigits_lt (by decide) hdigit
  rw [Nat.mod_eq_of_lt (hlt (Nat.lt_trans hij hj)), Nat.mod_eq_of_lt (hlt hj)]
  exact hij

/-! ## packing -/

/-- The files of the first indices, in order. -/
def fileNames (count : Nat) : List String := (List.range count).map fileName

theorem mem_fileNames {count : Nat} {name : String} :
    name ∈ fileNames count ↔ ∃ index < count, fileName index = name := by
  simp [fileNames]

theorem nodup_fileNames (count : Nat) : (fileNames count).Nodup :=
  List.nodup_range.map fileName_injective

theorem pairwise_fileNames {count : Nat} (h : count ≤ maxNumbered) :
    (fileNames count).Pairwise (· ≤ ·) := by
  rw [fileNames, List.pairwise_map]
  apply List.pairwise_lt_range.imp_of_mem
  intro i j _ hj hij
  have hlt := fileName_lt hij (Nat.lt_of_lt_of_le (List.mem_range.mp hj) h)
  exact String.not_lt.mp (String.lt_asymm hlt)

/-- Looking for what is missing goes through the indices in order. -/
theorem firstMissing?_eq_find? (present : Std.HashSet String) (count index : Nat) :
    firstMissing? present count index =
      (List.range' index count).find? fun i => !present.contains (fileName i) := by
  induction count generalizing index with
  | zero => rfl
  | succ count ih =>
      have hname : Numeral.decimalPadded 5 index = fileName index := rfl
      rw [firstMissing?, hname, List.range'_succ, List.find?_cons, ih]
      cases present.contains (fileName index) <;> rfl

/-- Names are sorted as texts. -/
theorem pairwise_mergeSort_le (names : List String) :
    (names.mergeSort fun a b => a ≤ b).Pairwise (· ≤ ·) := by
  have hsort := @List.pairwise_mergeSort String (fun a b => decide (a ≤ b))
    (fun a b c hab hbc => decide_eq_true (String.le_trans (of_decide_eq_true hab)
      (of_decide_eq_true hbc)))
    (fun a b => by simpa using String.le_total a b) names
  simpa using hsort

/-- **Numbered files**: of the files of indices without a gap, those of the
first hundred thousand are packed, in the order of their indices. -/
theorem numberedFiles_of_perm {count : Nat} (hpos : 0 < count) {names : List String}
    (h : names.Perm (fileNames count)) (directory : String) :
    numberedFiles directory names = .ok (fileNames (min count maxNumbered)) := by
  have htaken : (names.filter isNumbered).Perm (fileNames (min count maxNumbered)) := by
    refine (h.filter isNumbered).trans ?_
    rw [List.perm_ext_iff_of_nodup ((nodup_fileNames count).filter _) (nodup_fileNames _)]
    intro name
    simp only [List.mem_filter, mem_fileNames]
    constructor
    · rintro ⟨⟨index, hlt, rfl⟩, hnumbered⟩
      rw [isNumbered_fileName, decide_eq_true_iff] at hnumbered
      exact ⟨index, by omega, rfl⟩
    · rintro ⟨index, hlt, rfl⟩
      exact ⟨⟨index, by omega, rfl⟩, by rw [isNumbered_fileName]; exact decide_eq_true (by omega)⟩
  have hsorted : (names.filter isNumbered).mergeSort (fun a b => a ≤ b) =
      fileNames (min count maxNumbered) := by
    apply List.Perm.eq_of_pairwise (fun a b _ _ => String.le_antisymm)
    · exact pairwise_mergeSort_le _
    · exact pairwise_fileNames (Nat.min_le_right _ _)
    · exact (List.mergeSort_perm _ _).trans htaken
  have hsome : 0 < maxNumbered := by decide
  obtain ⟨last, hlast⟩ : ∃ last, min count maxNumbered = last + 1 :=
    ⟨min count maxNumbered - 1, by omega⟩
  have hnumber : last < maxNumbered := by omega
  have hgetLast : (fileNames (last + 1)).getLast? = some (fileName last) := by
    rw [fileNames, List.getLast?_map, List.getLast?_range]
    rfl
  rw [numberedFiles, hsorted, hlast, hgetLast]
  dsimp only
  have hcomplete : firstMissing? (.ofList (fileNames (last + 1))) (last + 1) 0 = none := by
    rw [firstMissing?_eq_find?, List.find?_eq_none]
    intro i hi
    rw [Std.HashSet.contains_ofList]
    simpa [mem_fileNames, fileName_injective.eq_iff] using hi
  rw [numberOf_fileName hnumber, hcomplete]

end Archive

end Scenario
