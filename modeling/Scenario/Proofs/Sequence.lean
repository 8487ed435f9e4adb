import Scenario.Proofs.Numbering

/-!
# Scenario.Proofs.Sequence

Which directories can be packed.

A name of five ASCII digits is the name of an index (`isPlain_iff`).  Other
names take part as well: digits of other scripts, and a line feed behind the
digits.  The check for gaps goes up to the number of the last name, whatever its
digits are, and asks for plain names only.

1. `numberedFiles_eq_ok_iff`, `numberedFiles_eq_error_iff` — what comes of a
   directory, by its names alone (`Taken`, `Refused`).
2. `numberedFiles_outcomes` — where only plain names take part, what is taken is
   the sequence of the indices without a gap, and else it is none.
3. `numberedFiles_passes_gap` — other names hide a gap, or give an index twice.
-/

namespace Scenario

/-! ## digits -/

/-- Digits of ASCII are the last digits of the number they spell. -/
theorem Text.eq_lastDigits_of_isDigit {cs : List Char} (h : ∀ c ∈ cs, c.isDigit = true) :
    cs = Numeral.lastDigits Nat.digitChar 10 cs.length (decimalValue cs) := by
  induction cs using List.reverseRecOn with
  | nil => rfl
  | append_singleton cs c ih =>
      have hcs := ih fun c hc => h c (List.mem_append_left _ hc)
      obtain ⟨d, hd, rfl⟩ := exists_digitChar_of_isDigit (h c (by simp))
      have hrest : (10 * decimalValue cs + d) / 10 = decimalValue cs := by omega
      have hlast : (10 * decimalValue cs + d) % 10 = d := by omega
      rw [decimalValue_concat cs hd, List.length_append, List.length_singleton,
        Numeral.lastDigits_concat, hrest, hlast, ← hcs]

namespace Archive

/-! ## plain names -/

/-- Whether a name consists of five ASCII digits. -/
def isPlain (name : String) : Bool := name.toList.length = 5 && name.toList.all Char.isDigit

/-- The plain names are those of the indices below a hundred thousand. -/
theorem isPlain_iff {name : String} :
    isPlain name = true ↔ ∃ index < maxNumbered, name = fileName index := by
  simp only [isPlain, Bool.and_eq_true, decide_eq_true_eq, List.all_eq_true]
  constructor
  · rintro ⟨hlength, hdigits⟩
    have hname := Text.eq_lastDigits_of_isDigit hdigits
    have hlt := Text.decimalValue_lt name.toList
    rw [hlength] at hname hlt
    refine ⟨Text.decimalValue name.toList, hlt, String.toList_inj.mp ?_⟩
    rw [fileName, Numeral.toList_decimalPadded hlt]
    exact hname
  · rintro ⟨index, hlt, rfl⟩
    exact ⟨(length_fileName index).2.mpr hlt, fun c hc => isDigit_of_mem_fileName hc⟩

theorem numberOf_lt (name : String) : numberOf name < maxNumbered := by
  have hlt := Text.decimalValue_lt ((nameDigits? name).getD [])
  have hlength : ((nameDigits? name).getD []).length ≤ 5 := by
    rw [nameDigits?]
    split
    · next h => exact Nat.le_of_eq h.1
    · exact Nat.zero_le _
  exact Nat.lt_of_lt_of_le hlt (Nat.pow_le_pow_right (by decide) hlength)

/-! ## names that take part -/

/-- The names that take part, in order. -/
def taking (names : List String) : List String :=
  (names.filter isNumbered).mergeSort fun a b => a ≤ b

/-- The last of the names that take part. -/
structure Last (names : List String) (last : String) : Prop where
  mem : last ∈ names
  isNumbered : isNumbered last = true
  le : ∀ name ∈ names, Archive.isNumbered name = true → name ≤ last

section Taking

variable {names : List String}

theorem mergeSort_eq_taking (names : List String) :
    (names.filter isNumbered).mergeSort (fun a b => a ≤ b) = taking names := rfl

theorem mem_taking {name : String} :
    name ∈ taking names ↔ name ∈ names ∧ isNumbered name = true := by
  simp [taking]

theorem pairwise_taking (names : List String) : (taking names).Pairwise (· ≤ ·) :=
  pairwise_mergeSort_le _

theorem getLast?_taking {last : String} :
    (taking names).getLast? = some last ↔ Last names last := by
  have hle : ∀ {last : String}, (taking names).getLast? = some last →
      ∀ name ∈ taking names, name ≤ last := by
    intro last h name hname
    obtain ⟨front, hfront⟩ := List.getLast?_eq_some_iff.mp h
    have hsorted := pairwise_taking names
    rw [hfront] at hname hsorted
    rw [List.pairwise_append] at hsorted
    rcases List.mem_append.mp hname with hname | hname
    · exact hsorted.2.2 name hname last (by simp)
    · obtain rfl : name = last := by simpa using hname
      exact String.le_refl _
  constructor
  · intro h
    obtain ⟨hmem, hnumbered⟩ := mem_taking.mp (List.mem_of_getLast? h)
    exact ⟨hmem, hnumbered, fun name hname hn => hle h name (mem_taking.mpr ⟨hname, hn⟩)⟩
  · intro h
    have hmem : last ∈ taking names := mem_taking.mpr ⟨h.mem, h.isNumbered⟩
    cases hlast : (taking names).getLast? with
    | none => simp [List.getLast?_eq_none_iff.mp hlast] at hmem
    | some other =>
        obtain ⟨hother, hnumbered⟩ := mem_taking.mp (List.mem_of_getLast? hlast)
        rw [String.le_antisymm (hle hlast last hmem) (h.le other hother hnumbered)]

/-- The files of indices are looked for among all names. -/
theorem contains_taking {i : Nat} (h : i < maxNumbered) :
    (Std.HashSet.ofList (taking names)).contains (fileName i) = true ↔ fileName i ∈ names := by
  rw [Std.HashSet.contains_ofList, List.contains_iff_mem, mem_taking, isNumbered_fileName]
  simp [h]

end Taking

/-! ## outcomes -/

/-- The files that are packed: all that take part, in order, with every index up
to the number of the last one among the names. -/
structure Taken (names files : List String) : Prop where
  perm : files.Perm (names.filter isNumbered)
  sorted : files.Pairwise (· ≤ ·)
  exists_last : ∃ last, Last names last ∧ ∀ i ≤ numberOf last, fileName i ∈ names

/-- Why a directory is refused: nothing takes part, or an index is missing. -/
inductive Refused (directory : String) (names : List String) : ArchiveError → Prop where
  | nothing (h : ∀ name ∈ names, isNumbered name = false) :
      Refused directory names (.nothingToPack (some directory))
  | missing {last : String} {i : Nat} (hlast : Last names last) (hi : i ≤ numberOf last)
      (hmissing : fileName i ∉ names) (hbefore : ∀ j < i, fileName j ∈ names) :
      Refused directory names (.missingFile i directory)

section Outcomes

variable {directory : String} {names : List String} {last : String}

theorem firstMissing?_taking_eq_none_iff :
    firstMissing? (.ofList (taking names)) (numberOf last + 1) 0 = none ↔
      ∀ i ≤ numberOf last, fileName i ∈ names := by
  have hlt := numberOf_lt last
  rw [firstMissing?_eq_find?, List.find?_eq_none]
  refine forall_congr' fun i => ?_
  rw [← List.range_eq_range', List.mem_range, Nat.lt_succ_iff, Bool.not_eq_true,
    Bool.not_eq_false']
  exact imp_congr_right fun hi => contains_taking (by omega)

theorem firstMissing?_taking_eq_some_iff {i : Nat} :
    firstMissing? (.ofList (taking names)) (numberOf last + 1) 0 = some i ↔
      i ≤ numberOf last ∧ fileName i ∉ names ∧ ∀ j < i, fileName j ∈ names := by
  have hlt := numberOf_lt last
  rw [firstMissing?_eq_find?, List.find?_range'_eq_some, ← List.range_eq_range', List.mem_range,
    Nat.lt_succ_iff, Bool.not_eq_true']
  constructor
  · rintro ⟨hmissing, hi, hbefore⟩
    refine ⟨hi, fun hmem => ?_, fun j hj => ?_⟩
    · simp [(contains_taking (by omega)).mpr hmem] at hmissing
    · exact (contains_taking (by omega)).mp (by simpa using hbefore j (Nat.zero_le j) hj)
  · rintro ⟨hi, hmissing, hbefore⟩
    refine ⟨?_, hi, fun j _ hj => ?_⟩
    · exact Bool.eq_false_iff.mpr (mt (contains_taking (by omega)).mp hmissing)
    · simp [(contains_taking (by omega)).mpr (hbefore j hj)]

-- What comes of a directory hangs on the last of the names that take part, and
-- on the first index that is missing up to its number.

theorem numberedFiles_of_none (h : (taking names).getLast? = none) :
    numberedFiles directory names = .error (.archive (.nothingToPack (some directory))) := by
  rw [numberedFiles, mergeSort_eq_taking, h]

theorem numberedFiles_of_missing {i : Nat} (h : (taking names).getLast? = some last)
    (hi : firstMissing? (.ofList (taking names)) (numberOf last + 1) 0 = some i) :
    numberedFiles directory names = .error (.archive (.missingFile i directory)) := by
  rw [numberedFiles, mergeSort_eq_taking, h]
  dsimp only
  rw [hi]

theorem numberedFiles_of_complete (h : (taking names).getLast? = some last)
    (hcomplete : firstMissing? (.ofList (taking names)) (numberOf last + 1) 0 = none) :
    numberedFiles directory names = .ok (taking names) := by
  rw [numberedFiles, mergeSort_eq_taking, h]
  dsimp only
  rw [hcomplete]

/-- Either files are taken or the directory is refused. -/
theorem numberedFiles_cases (directory : String) (names : List String) :
    (numberedFiles directory names = .ok (taking names) ∧ Taken names (taking names)) ∨
      ∃ cause, numberedFiles directory names = .error (.archive cause) ∧
        Refused directory names cause := by
  cases hlast : (taking names).getLast? with
  | none =>
      refine .inr ⟨_, numberedFiles_of_none hlast, .nothing fun name hname => ?_⟩
      rw [List.getLast?_eq_none_iff] at hlast
      by_contra hnumbered
      have hmem : name ∈ taking names := mem_taking.mpr ⟨hname, by simpa using hnumbered⟩
      simp [hlast] at hmem
  | some last =>
      cases hmissing : firstMissing? (.ofList (taking names)) (numberOf last + 1) 0 with
      | some i =>
          obtain ⟨hi, hnone, hbefore⟩ := firstMissing?_taking_eq_some_iff.mp hmissing
          exact .inr ⟨_, numberedFiles_of_missing hlast hmissing,
            .missing (getLast?_taking.mp hlast) hi hnone hbefore⟩
      | none =>
          exact .inl ⟨numberedFiles_of_complete hlast hmissing, List.mergeSort_perm _ _,
            pairwise_taking names, last, getLast?_taking.mp hlast,
            firstMissing?_taking_eq_none_iff.mp hmissing⟩

theorem Taken.numberedFiles_eq {files : List String} (h : Taken names files) :
    numberedFiles directory names = .ok files := by
  have hfiles : files = taking names :=
    List.Perm.eq_of_pairwise (fun _ _ _ _ => String.le_antisymm) h.sorted (pairwise_taking names)
      (h.perm.trans (List.mergeSort_perm _ _).symm)
  obtain ⟨last, hlast, hcomplete⟩ := h.exists_last
  rw [hfiles]
  exact numberedFiles_of_complete (getLast?_taking.mpr hlast)
    (firstMissing?_taking_eq_none_iff.mpr hcomplete)

theorem Refused.numberedFiles_eq {cause : ArchiveError} (h : Refused directory names cause) :
    numberedFiles directory names = .error (.archive cause) := by
  cases h with
  | nothing hnone =>
      apply numberedFiles_of_none
      have hempty : names.filter isNumbered = [] := by simpa using hnone
      simp [taking, hempty]
  | missing hlast hi hmissing hbefore =>
      exact numberedFiles_of_missing (getLast?_taking.mpr hlast)
        (firstMissing?_taking_eq_some_iff.mpr ⟨hi, hmissing, hbefore⟩)

/-- **Packed files**: a directory is packed exactly if files of it are taken. -/
theorem numberedFiles_eq_ok_iff {files : List String} :
    numberedFiles directory names = .ok files ↔ Taken names files := by
  refine ⟨fun h => ?_, Taken.numberedFiles_eq⟩
  rcases numberedFiles_cases directory names with ⟨hok, htaken⟩ | ⟨e, herror, -⟩
  · obtain rfl : files = taking names := Except.ok.inj (h.symm.trans hok)
    exact htaken
  · cases h.symm.trans herror

/-- **Refusals**: a directory is refused for the one cause there is. -/
theorem numberedFiles_eq_error_iff {e : Error} :
    numberedFiles directory names = .error e ↔
      ∃ cause, e = .archive cause ∧ Refused directory names cause := by
  constructor
  · intro h
    rcases numberedFiles_cases directory names with ⟨hok, -⟩ | ⟨cause, herror, hrefused⟩
    · cases h.symm.trans hok
    · exact ⟨cause, Except.error.inj (h.symm.trans herror), hrefused⟩
  · rintro ⟨cause, rfl, hrefused⟩
    exact hrefused.numberedFiles_eq

end Outcomes

/-! ## sequences -/

/-- Files that are the sequence of the plain names of a directory: the names of
the indices from zero on, without a gap. -/
structure Sequence (names files : List String) : Prop where
  exists_count : ∃ count, 0 < count ∧ files = fileNames count
  mem_iff : ∀ name, name ∈ files ↔ name ∈ names ∧ isPlain name = true

/-- A directory without a plain name, or with an index missing below that of
another. -/
def Incomplete (names : List String) : Prop :=
  (∀ name ∈ names, isPlain name = false) ∨
    ∃ i j, i < j ∧ j < maxNumbered ∧ fileName j ∈ names ∧ fileName i ∉ names

/-- Only plain names take part. -/
def OnlyPlain (names : List String) : Prop :=
  ∀ name ∈ names, isNumbered name = true → isPlain name = true

section Sequence

variable {names files : List String}

theorem isNumbered_of_isPlain {name : String} (h : isPlain name = true) :
    isNumbered name = true := by
  obtain ⟨index, hlt, rfl⟩ := isPlain_iff.mp h
  simp [isNumbered_fileName, hlt]

/-- Among plain names the last is that of the greatest index. -/
theorem OnlyPlain.exists_last (h : OnlyPlain names) {last : String} (hlast : Last names last) :
    ∃ index < maxNumbered, last = fileName index ∧ numberOf last = index ∧
      ∀ j < maxNumbered, fileName j ∈ names → j ≤ index := by
  obtain ⟨index, hlt, rfl⟩ := isPlain_iff.mp (h last hlast.mem hlast.isNumbered)
  refine ⟨index, hlt, rfl, numberOf_fileName hlt, fun j hj hmem => ?_⟩
  by_contra hgt
  have hle := hlast.le (fileName j) hmem (by simp [isNumbered_fileName, hj])
  exact String.not_lt.mpr hle (fileName_lt (Nat.not_le.mp hgt) hj)

/-- Where only plain names take part, the files that are taken are a
sequence. -/
theorem Taken.sequence (h : Taken names files) (hnodup : names.Nodup) (hplain : OnlyPlain names) :
    Sequence names files := by
  obtain ⟨last, hlast, hcomplete⟩ := h.exists_last
  obtain ⟨index, hlt, rfl, hnumber, hgreatest⟩ := hplain.exists_last hlast
  rw [hnumber] at hcomplete
  have hmem : ∀ name, name ∈ files ↔ name ∈ names ∧ isPlain name = true := by
    intro name
    rw [h.perm.mem_iff, List.mem_filter]
    exact ⟨fun hname => ⟨hname.1, hplain name hname.1 hname.2⟩,
      fun hname => ⟨hname.1, isNumbered_of_isPlain hname.2⟩⟩
  refine ⟨⟨index + 1, Nat.succ_pos _, ?_⟩, hmem⟩
  apply List.Perm.eq_of_pairwise (fun _ _ _ _ => String.le_antisymm) h.sorted
    (pairwise_fileNames (Nat.succ_le_of_lt hlt))
  rw [List.perm_ext_iff_of_nodup (h.perm.nodup_iff.mpr (hnodup.filter _)) (nodup_fileNames _)]
  intro name
  rw [hmem, isPlain_iff, mem_fileNames]
  constructor
  · rintro ⟨hname, i, hi, rfl⟩
    exact ⟨i, Nat.lt_succ_of_le (hgreatest i hi hname), rfl⟩
  · rintro ⟨i, hi, rfl⟩
    exact ⟨hcomplete i (Nat.le_of_lt_succ hi), i, by omega, rfl⟩

/-- Where only plain names take part, a directory is refused exactly if it is
incomplete. -/
theorem OnlyPlain.refused_iff (h : OnlyPlain names) (directory : String) :
    (∃ cause, Refused directory names cause) ↔ Incomplete names := by
  constructor
  · rintro ⟨cause, hrefused⟩
    cases hrefused with
    | nothing hnone =>
        refine .inl fun name hname => Bool.eq_false_iff.mpr fun hplain => ?_
        have hnumbered := isNumbered_of_isPlain hplain
        simp [hnone name hname] at hnumbered
    | @missing last i hlast hi hmissing _ =>
        obtain ⟨j, hlt, rfl, hnumber, -⟩ := h.exists_last hlast
        have hne : i ≠ j := by
          rintro rfl
          exact hmissing hlast.mem
        exact .inr ⟨i, j, by omega, hlt, hlast.mem, hmissing⟩
  · intro hincomplete
    rcases numberedFiles_cases directory names with ⟨-, htaken⟩ | ⟨cause, -, hrefused⟩
    · -- what is taken has the last name and every index up to its number
      obtain ⟨last, hlast, hcomplete⟩ := htaken.exists_last
      obtain ⟨index, hlt, rfl, hnumber, hgreatest⟩ := h.exists_last hlast
      rcases hincomplete with hnone | ⟨i, j, hij, hj, hpresent, hmissing⟩
      · have hplain := h _ hlast.mem hlast.isNumbered
        simp [hnone _ hlast.mem] at hplain
      · have hle := hgreatest j hj hpresent
        exact absurd (hcomplete i (by omega)) hmissing
    · exact ⟨cause, hrefused⟩

end Sequence

/-- **Directories**: files are taken or a directory is refused by its names
alone.  What is taken is a sequence exactly if only plain names take part; and
then a directory is refused exactly if it is incomplete. -/
theorem numberedFiles_outcomes {names : List String} (hnodup : names.Nodup) (directory : String) :
    (∀ files, numberedFiles directory names = .ok files ↔ Taken names files) ∧
    (∀ e, numberedFiles directory names = .error e ↔
      ∃ cause, e = .archive cause ∧ Refused directory names cause) ∧
    (∀ files, numberedFiles directory names = .ok files →
      (Sequence names files ↔ OnlyPlain names)) ∧
    (OnlyPlain names →
      ((∃ cause, numberedFiles directory names = .error (.archive cause)) ↔ Incomplete names)) := by
  refine ⟨fun _ => numberedFiles_eq_ok_iff, fun _ => numberedFiles_eq_error_iff,
    fun files hok => ⟨fun hsequence name hname hnumbered => ?_, fun hplain => ?_⟩,
    fun hplain => ?_⟩
  · have htaken := numberedFiles_eq_ok_iff.mp hok
    have hmem : name ∈ files := htaken.perm.mem_iff.mpr (List.mem_filter.mpr ⟨hname, hnumbered⟩)
    exact ((hsequence.mem_iff name).mp hmem).2
  · exact (numberedFiles_eq_ok_iff.mp hok).sequence hnodup hplain
  · rw [← hplain.refused_iff directory]
    simp [numberedFiles_eq_error_iff]

theorem numberedFiles_outcomes_notes :
    ["00001", "notes", "00000"].Nodup ∧
      numberedFiles "d" ["00001", "notes", "00000"] = .ok ["00000", "00001"] ∧
      Sequence ["00001", "notes", "00000"] ["00000", "00001"] := by
  have hnodup : ["00001", "notes", "00000"].Nodup := by decide
  obtain ⟨htaken, -, hsequence, -⟩ := numberedFiles_outcomes hnodup "d"
  have hlast : Last ["00001", "notes", "00000"] "00001" := ⟨by decide, by decide, by decide⟩
  have hok := (htaken ["00000", "00001"]).mpr ⟨by decide, by decide, "00001", hlast, by decide⟩
  have hplain : OnlyPlain ["00001", "notes", "00000"] := by
    unfold OnlyPlain
    decide
  exact ⟨hnodup, hok, (hsequence _ hok).mpr hplain⟩

/-- A last name in other digits that spell a low number hides a gap, and a line
feed behind the digits gives an index twice. -/
theorem numberedFiles_passes_gap :
    (numberedFiles "f" ["00000", "00002", "０００００"] = .ok ["00000", "00002", "０００００"] ∧
      Incomplete ["00000", "00002", "０００００"]) ∧
    numberedFiles "g" ["00000", "00000\n"] = .ok ["00000", "00000\n"] ∧
      ¬ Sequence ["00000", "00000\n"] ["00000", "00000\n"] := by
  refine ⟨⟨numberedFiles_eq_ok_iff.mpr ?_, ?_⟩, numberedFiles_eq_ok_iff.mpr ?_, ?_⟩
  · exact ⟨by decide, by decide, "０００００", ⟨by decide, by decide, by decide⟩, by decide⟩
  · exact .inr ⟨1, 2, by decide, by decide, by decide, by decide⟩
  · exact ⟨by decide, by decide, "00000\n", ⟨by decide, by decide, by decide⟩, by decide⟩
  · intro h
    have hplain := ((h.mem_iff "00000\n").mp (by decide)).2
    revert hplain
    decide

end Archive

end Scenario
