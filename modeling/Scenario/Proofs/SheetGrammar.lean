import Mathlib.Data.List.DropRight
import Mathlib.Tactic.FinCases
import Scenario.Proofs.Builder
import Scenario.Proofs.LineEnds

/-!
# Scenario.Proofs.SheetGrammar

What a sheet says, for texts that nobody has written on purpose.

1. `Says` — the only form of a line that is read back: the mark, eight
   hexadecimal digits, the mark again and an escaped text.
2. `Unescaped` — escapes are undone from left to right; a backslash that
   starts no escape stands for itself, at the end of a line too.
3. `parse_of_malformed`, `parse_of_forall` — a sheet fails at the first line
   that has the mark but not the form.  Without one it is read as the
   dictionary of its lines.
4. `parse_reads` — hence other lines never count, and a line that is edited
   changes what is said of its own address only.
-/

namespace Scenario.Sheet

/-! ## escapes -/

/-- A line with its escapes undone. -/
inductive Unescaped : List Char → List Char → Prop where
  | nil : Unescaped [] []
  | escape {d e : Char} {cs out : List Char} (h : unescapeChar? d = some e)
      (rest : Unescaped cs out) : Unescaped ('\\' :: d :: cs) (e :: out)
  | plain {c : Char} {cs out : List Char}
      (h : c = '\\' → ∀ d ∈ cs.head?, unescapeChar? d = none) (rest : Unescaped cs out) :
      Unescaped (c :: cs) (c :: out)

/-- A backslash that starts no escape stands for itself. -/
theorem unescapeFrom_of_none {cs : List Char} (h : ∀ d ∈ cs.head?, unescapeChar? d = none)
    (read : List Char) : unescapeFrom read ('\\' :: cs) = unescapeFrom ('\\' :: read) cs := by
  cases cs with
  | nil => rfl
  | cons d cs => rw [unescapeFrom, if_pos rfl, h d rfl]

theorem Unescaped.unescapeFrom_eq {cs out : List Char} (h : Unescaped cs out) (read : List Char) :
    unescapeFrom read cs = read.reverse ++ out := by
  induction h generalizing read with
  | nil => simp [unescapeFrom]
  | escape hescape _ ih =>
      rw [unescapeFrom_escape hescape, ih]
      simp
  | @plain c cs out hplain _ ih =>
      have hstep : unescapeFrom read (c :: cs) = unescapeFrom (c :: read) cs := by
        by_cases hc : c = '\\'
        · subst hc
          exact unescapeFrom_of_none (hplain rfl) read
        · exact unescapeFrom_of_ne hc read cs
      rw [hstep, ih]
      simp

theorem exists_unescaped (cs : List Char) : ∃ out, Unescaped cs out := by
  fun_induction unescapeFrom [] cs with
  | case1 => exact ⟨[], .nil⟩
  | case2 read c => exact ⟨[c], .plain (by simp) .nil⟩
  | case3 read d rest e hescape ih =>
      obtain ⟨out, hout⟩ := ih
      exact ⟨e :: out, .escape hescape hout⟩
  | case4 read d rest hnone ih =>
      obtain ⟨out, hout⟩ := ih
      exact ⟨'\\' :: out, .plain (by simpa using hnone) hout⟩
  | case5 read c d rest hc ih =>
      obtain ⟨out, hout⟩ := ih
      exact ⟨c :: out, .plain (fun h => absurd h hc) hout⟩

/-- **Escapes** are undone from left to right. -/
theorem unescapeChars_eq_iff {cs out : List Char} :
    unescapeChars cs = out ↔ Unescaped cs out := by
  obtain ⟨out', hout'⟩ := exists_unescaped cs
  have heq : unescapeChars cs = out' := hout'.unescapeFrom_eq []
  constructor
  · rintro rfl
    rwa [heq]
  · exact fun h => h.unescapeFrom_eq []

/-! ## lines -/

/-- The lines of a text: what lies between line feeds, without the carriage
returns at the ends.  A byte order mark at the start does not count. -/
def linesOf (text : String) : List (List Char) :=
  ((dropMark text.toList).splitOn '\n').map (List.rdropWhile (· == '\r'))

theorem modifyHead_self (ls : List (List Char)) : ls.modifyHead (fun line => line) = ls :=
  congrFun List.modifyHead_id ls

theorem splitFrom_eq (cs line : List Char) :
    splitFrom line cs = (cs.splitOn '\n').modifyHead (line.reverse ++ ·) := by
  induction cs generalizing line with
  | nil => simp [splitFrom]
  | cons c cs ih =>
      rw [List.splitOn] at ih ⊢
      rw [splitFrom, List.splitOnP_cons_eq_if_modifyHead]
      by_cases hc : c = '\n'
      · simp [ih, hc, modifyHead_self]
      · simp [ih, hc, Function.comp_def]

theorem lines_toList (text : String) : lines text.toList = linesOf text := by
  rw [lines, splitFrom_eq, linesOf]
  simp only [List.reverse_nil, List.nil_append, modifyHead_self]
  rfl

/-- The hexadecimal digits by value. -/
def lowerDigits : List Char :=
  ['0', '1', '2', '3', '4', '5', '6', '7', '8', '9', 'a', 'b', 'c', 'd', 'e', 'f']

/-- The digits of addresses, in either case. -/
def hexAlphabet : List Char := lowerDigits ++ ['A', 'B', 'C', 'D', 'E', 'F']

/-- The value of a digit. -/
def digitValue (c : Char) : Nat := lowerDigits.idxOf c.toLower

/-- The number that digits spell behind the digits of `start`. -/
def numberFrom (start : Nat) (digits : List Char) : Nat :=
  digits.foldl (fun n c => 16 * n + digitValue c) start

/-- The form of a line that is read back, with the address and the text it
gives. -/
inductive Says : List Char → (address : Nat) → (text : List Char) → Prop where
  | mk (digits text : List Char) (hlength : digits.length = 8)
      (hdigits : ∀ c ∈ digits, c ∈ hexAlphabet) :
      Says (editedMark :: (digits ++ editedMark :: text)) (numberFrom 0 digits) text

/-- A line that has the mark of an edited line, but not its form. -/
def Malformed (line : List Char) : Prop :=
  line.head? = some editedMark ∧ ∀ address text, ¬Says line address text

/-! ## reading a line -/

theorem hexValue?_eq_some_iff {c : Char} {d : Nat} :
    Numeral.hexValue? c = some d ↔ c ∈ hexAlphabet ∧ d = digitValue c := by
  have hall : ∀ c ∈ hexAlphabet, Numeral.hexValue? c = some (digitValue c) := by
    intro c hc
    fin_cases hc <;> rfl
  constructor
  · intro h
    have hc : c ∈ hexAlphabet := by
      have hnat : ∀ n ∈ List.range 0x67, (Numeral.hexValue? (Char.ofNat n)).isSome →
          Char.ofNat n ∈ hexAlphabet := by decide
      have hlt : c.toNat < 0x67 := by
        simp only [Numeral.hexValue?] at h
        split_ifs at h <;> omega
      simpa [h] using hnat c.toNat (List.mem_range.mpr hlt)
    exact ⟨hc, by simpa [h] using hall c hc⟩
  · rintro ⟨hc, rfl⟩
    exact hall c hc

theorem hexField?_eq_some_iff {count start address : Nat} {cs rest : List Char} :
    hexField? count start cs = some (address, rest) ↔
      ∃ digits : List Char, digits.length = count ∧ (∀ c ∈ digits, c ∈ hexAlphabet) ∧
        cs = digits ++ rest ∧ address = numberFrom start digits := by
  induction count generalizing start cs with
  | zero =>
      rw [hexField?]
      constructor
      · intro h
        cases h
        exact ⟨[], rfl, by simp, rfl, rfl⟩
      · rintro ⟨digits, hlength, -, rfl, rfl⟩
        rw [List.length_eq_zero_iff.mp hlength]
        rfl
  | succ count ih =>
      constructor
      · intro h
        cases cs with
        | nil => cases h
        | cons c cs =>
            rw [hexField?] at h
            split at h
            · next d hd =>
              obtain ⟨hc, rfl⟩ := hexValue?_eq_some_iff.mp hd
              obtain ⟨digits, hlength, hdigits, rfl, rfl⟩ := ih.mp h
              exact ⟨c :: digits, by simp [hlength], by simpa using ⟨hc, hdigits⟩, rfl, rfl⟩
            · cases h
      · rintro ⟨digits, hlength, hdigits, rfl, rfl⟩
        cases digits with
        | nil => cases hlength
        | cons c digits =>
            rw [List.forall_mem_cons] at hdigits
            have hc := hexValue?_eq_some_iff.mpr ⟨hdigits.1, rfl⟩
            rw [List.cons_append, hexField?, hc]
            exact ih.mpr ⟨digits, by simpa using hlength, hdigits.2, rfl, rfl⟩

/-- What a line gives, if it is read back. -/
def entryOf? (line : List Char) : Option (Nat × String) :=
  if isEdited line then readLine? line else none

theorem isEdited_iff {line : List Char} : isEdited line = true ↔ line.head? = some editedMark :=
  beq_iff_eq

theorem Says.head? {line text : List Char} {address : Nat} (h : Says line address text) :
    line.head? = some editedMark := by
  cases h
  rfl

/-- **Lines**: what is read is what a line says. -/
theorem entryOf?_eq_some_iff {line : List Char} {address : Nat} {text : String} :
    entryOf? line = some (address, text) ↔
      ∃ raw, Says line address raw ∧ Unescaped raw text.toList := by
  constructor
  · intro h
    rw [entryOf?] at h
    split at h
    · next hedited =>
      rw [isEdited_iff, List.head?_eq_some_iff] at hedited
      obtain ⟨rest, rfl⟩ := hedited
      rw [readLine?] at h
      split at h
      · next address' c raw hfield =>
        split at h
        · next hc =>
          subst hc
          cases h
          obtain ⟨digits, hlength, hdigits, rfl, rfl⟩ := hexField?_eq_some_iff.mp hfield
          exact ⟨raw, .mk digits raw hlength hdigits, unescapeChars_eq_iff.mp (by simp)⟩
        · cases h
      · cases h
    · cases h
  · rintro ⟨raw, ⟨digits, _, hlength, hdigits⟩, hraw⟩
    have hfield : hexField? 8 0 (digits ++ editedMark :: raw) =
        some (numberFrom 0 digits, editedMark :: raw) :=
      hexField?_eq_some_iff.mpr ⟨digits, hlength, hdigits, rfl, rfl⟩
    rw [entryOf?, if_pos (isEdited_iff.mpr rfl), readLine?, hfield]
    dsimp only
    rw [if_pos rfl, unescapeChars_eq_iff.mpr hraw, String.ofList_toList]

theorem Says.entryOf? {line raw : List Char} {address : Nat} (h : Says line address raw) :
    entryOf? line = some (address, String.ofList (unescapeChars raw)) :=
  entryOf?_eq_some_iff.mpr ⟨raw, h, unescapeChars_eq_iff.mp (by simp)⟩

theorem malformed_iff {line : List Char} :
    Malformed line ↔ isEdited line = true ∧ readLine? line = none := by
  rw [Malformed, isEdited_iff]
  refine and_congr_right fun hhead => ?_
  have hentry : entryOf? line = readLine? line := if_pos (isEdited_iff.mpr hhead)
  rw [← hentry, Option.eq_none_iff_forall_not_mem]
  constructor
  · rintro h ⟨address, text⟩ hread
    obtain ⟨raw, hsaid, -⟩ := entryOf?_eq_some_iff.mp hread
    exact h address raw hsaid
  · exact fun h address raw hsaid => h _ hsaid.entryOf?

/-! ## reading a sheet -/

theorem editedFrom_cons (number : Nat) (line : List Char) (ls : List (List Char)) :
    editedFrom number (line :: ls) =
      if isEdited line then (number, line) :: editedFrom (number + 1) ls
      else editedFrom (number + 1) ls := by
  simp [editedFrom, List.zipIdx_cons, List.filter_cons]

/-- The step of reading: a line that is not malformed gives its entry, or
nothing at all. -/
theorem recordsFrom_cons {line : List Char} (h : ¬Malformed line) (read : List Record)
    (number : Nat) (ls : List (List Char)) :
    recordsFrom read (editedFrom number (line :: ls)) =
      recordsFrom (((entryOf? line).map fun e => ⟨number, e.1, e.2⟩).toList ++ read)
        (editedFrom (number + 1) ls) := by
  rw [editedFrom_cons, entryOf?]
  by_cases hedited : isEdited line = true
  · rw [if_pos hedited, if_pos hedited, recordsFrom]
    cases hread : readLine? line with
    | none => exact absurd (malformed_iff.mpr ⟨hedited, hread⟩) h
    | some e => rfl
  · rw [if_neg hedited, if_neg hedited]
    rfl

/-- Reading ends at the first malformed line. -/
theorem recordsFrom_of_malformed {before after : List (List Char)} {line : List Char}
    (hbefore : ∀ l ∈ before, ¬Malformed l) (hline : Malformed line) (read : List Record)
    (number : Nat) :
    (recordsFrom read (editedFrom number (before ++ line :: after))).2 =
      some (.malformedLine (number + before.length) (String.ofList line)) := by
  induction before generalizing read number with
  | nil =>
      obtain ⟨hedited, hread⟩ := malformed_iff.mp hline
      rw [List.nil_append, editedFrom_cons, if_pos hedited, recordsFrom, hread]
      rfl
  | cons l before ih =>
      rw [List.forall_mem_cons] at hbefore
      rw [List.cons_append, recordsFrom_cons hbefore.1, ih hbefore.2, List.length_cons,
        Nat.add_right_comm, Nat.add_assoc]

/-- Without a malformed line, every entry is read. -/
theorem recordsFrom_of_forall {ls : List (List Char)} (h : ∀ l ∈ ls, ¬Malformed l)
    (read : List Record) (number : Nat) :
    ∃ more, recordsFrom read (editedFrom number ls) = (read.reverse ++ more, none) ∧
      more.map (fun r => (r.address, r.text)) = ls.filterMap entryOf? := by
  induction ls generalizing read number with
  | nil => exact ⟨[], by simp [editedFrom, recordsFrom], rfl⟩
  | cons line ls ih =>
      rw [List.forall_mem_cons] at h
      obtain ⟨more, hmore, hmap⟩ :=
        ih h.2 (((entryOf? line).map fun e => ⟨number, e.1, e.2⟩).toList ++ read) (number + 1)
      refine ⟨((entryOf? line).map fun e => ⟨number, e.1, e.2⟩).toList ++ more, ?_, ?_⟩
      · rw [recordsFrom_cons h.1, hmore]
        cases entryOf? line <;> simp
      · rw [List.map_append, hmap, List.filterMap_cons]
        cases entryOf? line <;> rfl

theorem parse_of_malformed {text : String} {before after : List (List Char)} {line : List Char}
    (hlines : linesOf text = before ++ line :: after) (hbefore : ∀ l ∈ before, ¬Malformed l)
    (hline : Malformed line) :
    parse text = .error (.malformedLine (before.length + 1) (String.ofList line)) := by
  have herror : (records text).2 =
      some (.malformedLine (1 + before.length) (String.ofList line)) := by
    rw [records, editedLines, lines_toList, hlines]
    exact recordsFrom_of_malformed hbefore hline [] 1
  rw [parse]
  split
  · next h => rw [h] at herror; cases herror
  · next h =>
    rw [h, Nat.add_comm] at herror
    cases herror
    rfl

theorem parse_of_forall {text : String} (h : ∀ l ∈ linesOf text, ¬Malformed l) :
    parse text = .ok (Ordered.ofList ((linesOf text).filterMap entryOf?)).toList := by
  obtain ⟨more, hmore, hmap⟩ := recordsFrom_of_forall h [] 1
  have hrecords : records text = (more, none) := by
    rw [records, editedLines, lines_toList]
    exact hmore
  rw [parse, hrecords, ← hmap]
  rfl

/-! ## what a sheet says -/

/-- The last of the lines that say something of an address says this. -/
def LastSaid (ls : List (List Char)) (address : Nat) (raw : List Char) : Prop :=
  ∃ before line after, ls = before ++ line :: after ∧ Says line address raw ∧
    ∀ l ∈ after, ∀ raw', ¬Says l address raw'

theorem lookup_filterMap_entryOf? {ls : List (List Char)} {address : Nat} {text : String} :
    (ls.filterMap entryOf?).reverse.lookup address = some text ↔
      ∃ raw, LastSaid ls address raw ∧ Unescaped raw text.toList := by
  rw [List.lookup_eq_some_iff]
  constructor
  · rintro ⟨later, earlier, hsplit, hlater⟩
    have hpairs : ls.filterMap entryOf? = earlier.reverse ++ (address, text) :: later.reverse := by
      rw [← List.reverse_reverse (ls.filterMap entryOf?), hsplit]
      simp
    obtain ⟨before, rest, rfl, -, hrest⟩ := List.filterMap_eq_append_iff.mp hpairs
    obtain ⟨between, line, after, rfl, -, hline, hafter⟩ := List.filterMap_eq_cons_iff.mp hrest
    obtain ⟨raw, hsaid, hraw⟩ := entryOf?_eq_some_iff.mp hline
    refine ⟨raw, ⟨before ++ between, line, after, by simp, hsaid, ?_⟩, hraw⟩
    intro l hl raw' hsaid'
    have hmem : (address, String.ofList (unescapeChars raw')) ∈ later := by
      rw [← List.mem_reverse, ← hafter]
      exact List.mem_filterMap.mpr ⟨l, hl, hsaid'.entryOf?⟩
    simpa using hlater _ hmem
  · rintro ⟨raw, ⟨before, line, after, rfl, hsaid, hafter⟩, hraw⟩
    have hline := entryOf?_eq_some_iff.mpr ⟨raw, hsaid, hraw⟩
    refine ⟨(after.filterMap entryOf?).reverse, (before.filterMap entryOf?).reverse, ?_, ?_⟩
    · simp [hline]
    · rintro ⟨address', text'⟩ hmem
      obtain ⟨l, hl, hentry⟩ := List.mem_filterMap.mp (List.mem_reverse.mp hmem)
      obtain ⟨raw', hsaid', -⟩ := entryOf?_eq_some_iff.mp hentry
      rw [bne_iff_ne]
      rintro rfl
      exact hafter l hl raw' hsaid'

/-- Lines are well formed up to the first that is not. -/
theorem forall_or_first_malformed (ls : List (List Char)) :
    (∀ l ∈ ls, ¬Malformed l) ∨ ∃ before line after, ls = before ++ line :: after ∧
      (∀ l ∈ before, ¬Malformed l) ∧ Malformed line := by
  induction ls with
  | nil => exact .inl (by simp)
  | cons l ls ih =>
      by_cases hl : Malformed l
      · exact .inr ⟨[], l, ls, rfl, by simp, hl⟩
      rcases ih with hall | ⟨before, line, after, rfl, hbefore, hline⟩
      · exact .inl (List.forall_mem_cons.mpr ⟨hl, hall⟩)
      · exact .inr ⟨l :: before, line, after, rfl, List.forall_mem_cons.mpr ⟨hl, hbefore⟩, hline⟩

theorem parse_eq_error_iff (text : String) :
    (∃ e, parse text = .error e) ↔ ∃ line ∈ linesOf text, Malformed line := by
  constructor
  · rintro ⟨e, he⟩
    by_contra hnone
    push Not at hnone
    rw [parse_of_forall hnone] at he
    cases he
  · rintro ⟨line, hmem, hline⟩
    rcases forall_or_first_malformed (linesOf text) with hall | ⟨before, first, after, hsplit, h⟩
    · exact absurd hline (hall line hmem)
    · exact ⟨_, parse_of_malformed hsplit h.1 h.2⟩

theorem forall_not_malformed_of_parse {text : String} {entries : List (Nat × String)}
    (h : parse text = .ok entries) : ∀ l ∈ linesOf text, ¬Malformed l := by
  intro l hl hmalformed
  obtain ⟨e, he⟩ := (parse_eq_error_iff text).mpr ⟨l, hl, hmalformed⟩
  rw [h] at he
  cases he

/-! ## edits -/

/-- Lines without the mark do not count, so those in their places do not
either. -/
theorem editedFrom_eq_of_forall₂ {ls ls' : List (List Char)}
    (h : List.Forall₂ (fun l l' => l' = l ∨ isEdited l = false ∧ isEdited l' = false) ls ls')
    (number : Nat) : editedFrom number ls' = editedFrom number ls := by
  induction h generalizing number with
  | nil => rfl
  | cons hl _ ih =>
      rw [editedFrom_cons, editedFrom_cons, ih]
      rcases hl with rfl | ⟨hl, hl'⟩
      · rfl
      · rw [hl, hl']
        rfl

/-- The entries of a sheet are those of its marked lines. -/
theorem filterMap_entryOf?_eq (ls : List (List Char)) :
    ls.filterMap entryOf? = (ls.filter isEdited).filterMap readLine? := by
  rw [List.filterMap_filter]
  rfl

theorem forall_not_malformed_iff (ls : List (List Char)) :
    (∀ l ∈ ls, ¬Malformed l) ↔ ∀ l ∈ ls.filter isEdited, ¬Malformed l := by
  simp only [List.mem_filter]
  exact ⟨fun h l hl => h l hl.1, fun h l hl hm => h l ⟨hl, (malformed_iff.mp hm).1⟩ hm⟩

/-- What is read depends on the marked lines alone. -/
theorem toOption_parse_congr {text text' : String}
    (h : (linesOf text').filter isEdited = (linesOf text).filter isEdited) :
    (parse text').toOption = (parse text).toOption := by
  by_cases hall : ∀ l ∈ linesOf text, ¬Malformed l
  · have hall' : ∀ l ∈ linesOf text', ¬Malformed l := by
      rwa [forall_not_malformed_iff, h, ← forall_not_malformed_iff]
    rw [parse_of_forall hall, parse_of_forall hall', filterMap_entryOf?_eq, h,
      ← filterMap_entryOf?_eq]
  · have hall' : ¬∀ l ∈ linesOf text', ¬Malformed l := by
      rwa [forall_not_malformed_iff, h, ← forall_not_malformed_iff]
    push Not at hall hall'
    obtain ⟨e, he⟩ := (parse_eq_error_iff text).mpr hall
    obtain ⟨e', he'⟩ := (parse_eq_error_iff text').mpr hall'
    rw [he, he']
    rfl

theorem lookup_parse {text : String} {entries : List (Nat × String)}
    (h : parse text = .ok entries) (address : Nat) :
    entries.lookup address = ((linesOf text).filterMap entryOf?).reverse.lookup address := by
  rw [parse_of_forall (forall_not_malformed_of_parse h)] at h
  cases h
  rw [← Ordered.get?_eq_lookup, Ordered.get?_ofList]

/-- The text on one line counts for the address on that line only. -/
theorem parse_of_edited {text text' : String} {before after : List (List Char)}
    {line line' raw raw' : List Char} {address : Nat} {entries : List (Nat × String)}
    (hlines : linesOf text = before ++ line :: after)
    (hlines' : linesOf text' = before ++ line' :: after)
    (hsaid : Says line address raw) (hsaid' : Says line' address raw')
    (h : parse text = .ok entries) :
    ∃ entries', parse text' = .ok entries' ∧
      ∀ other, other ≠ address → entries'.lookup other = entries.lookup other := by
  have hall := forall_not_malformed_of_parse h
  have hall' : ∀ l ∈ linesOf text', ¬Malformed l := by
    rw [hlines] at hall
    rw [hlines']
    simp only [List.mem_append, List.mem_cons] at hall ⊢
    rintro l (hl | rfl | hl)
    · exact hall l (.inl hl)
    · exact fun hm => hm.2 address raw' hsaid'
    · exact hall l (.inr (.inr hl))
  have h' := parse_of_forall hall'
  refine ⟨_, h', fun other hother => ?_⟩
  rw [lookup_parse h, lookup_parse h', hlines, hlines']
  simp [hsaid.entryOf?, hsaid'.entryOf?, List.lookup_append, List.lookup_cons,
    beq_false_of_ne hother]

/-- **What a sheet says.**  Reading fails exactly if some line has the mark and
not the form, and the error names the first such line.  Otherwise what is read
is, for every address on a marked line, the text of the last such line with
its escapes undone, and nothing else.

Hence lines without the mark can be edited, and put in or taken out, with the
same result, and the text of a marked line can be edited with the same result
for all other addresses. -/
theorem parse_reads (text : String) :
    ((∃ e, parse text = .error e) ↔ ∃ line ∈ linesOf text, Malformed line) ∧
    (∀ before line after, linesOf text = before ++ line :: after →
      (∀ l ∈ before, ¬Malformed l) → Malformed line →
        parse text = .error (.malformedLine (before.length + 1) (String.ofList line))) ∧
    ((∀ line ∈ linesOf text, ¬Malformed line) →
      ∃ entries, parse text = .ok entries ∧ (entries.map Prod.fst).Nodup ∧
        ∀ address t, (address, t) ∈ entries ↔
          ∃ raw, LastSaid (linesOf text) address raw ∧ Unescaped raw t.toList) ∧
    (∀ text', List.Forall₂ (fun l l' => l' = l ∨ isEdited l = false ∧ isEdited l' = false)
        (linesOf text) (linesOf text') →
      parse text' = parse text) ∧
    (∀ text', (linesOf text').filter isEdited = (linesOf text).filter isEdited →
      (parse text').toOption = (parse text).toOption) ∧
    ∀ text' before line line' after address raw raw' entries,
      linesOf text = before ++ line :: after → linesOf text' = before ++ line' :: after →
      Says line address raw → Says line' address raw' → parse text = .ok entries →
        ∃ entries', parse text' = .ok entries' ∧
          ∀ other, other ≠ address → entries'.lookup other = entries.lookup other := by
  refine ⟨parse_eq_error_iff text, fun _ _ _ => parse_of_malformed, fun hall => ?_,
    fun text' hedits => ?_, fun text' => toOption_parse_congr,
    fun _ _ _ _ _ _ _ _ _ => parse_of_edited⟩
  · refine ⟨_, parse_of_forall hall, Ordered.nodup_keys _, fun address t => ?_⟩
    rw [Ordered.mem_toList_iff, Ordered.get?_ofList, lookup_filterMap_entryOf?]
  · have hedited : editedLines text' = editedLines text := by
      rw [editedLines, editedLines, lines_toList, lines_toList]
      exact editedFrom_eq_of_forall₂ hedits 1
    rw [parse, parse, records, records, hedited]

/-- A sheet with a byte order mark, notes, mixed ends of lines, digits in
either case, an address that comes twice and backslashes at the ends. -/
def rough (notes text : String) : String :=
  "\uFEFF" ++ notes ++ "\r\n◆0000002a◆" ++ text ++ "\\\r\r\n◆00000010◆b\n◆0000002A◆c\\\\\\"

/-- The notes and the first text of such a sheet can be edited.  A line whose
marks differ is malformed. -/
theorem parse_reads_rough :
    (∃ entries, parse (rough "-" "a\\n") = .ok entries ∧ (0x2A, "c\\\\") ∈ entries) ∧
    parse (rough "◇" "a\\n") = parse (rough "-" "a\\n") ∧
    (parse (rough "+\n-" "a\\n")).toOption = (parse (rough "-" "a\\n")).toOption ∧
    (∃ entries, parse (rough "-" "") = .ok entries ∧ entries.lookup 0x10 = some "b") ∧
    parse "-\n◆00000010◇\n◆" = .error (.malformedLine 2 "◆00000010◇") := by
  have hlower : ∀ c ∈ "0000002a".toList, c ∈ hexAlphabet := by simp [hexAlphabet, lowerDigits]
  have hupper : ∀ c ∈ "0000002A".toList, c ∈ hexAlphabet := by simp [hexAlphabet, lowerDigits]
  have hvalue : numberFrom 0 "0000002A".toList = 0x2A := rfl
  have hread : parse (rough "-" "a\\n") = .ok [(0x2A, "c\\\\"), (0x10, "b")] := rfl
  have hlines : linesOf (rough "-" "a\\n") = ["-".toList] ++
      (editedMark :: ("0000002a".toList ++ editedMark :: "a\\n\\".toList)) ::
        ["◆00000010◆b".toList,
          editedMark :: ("0000002A".toList ++ editedMark :: "c\\\\\\".toList)] :=
    (lines_toList _).symm.trans rfl
  obtain ⟨-, -, hentries, hnotes, hmore, hedited⟩ := parse_reads (rough "-" "a\\n")
  refine ⟨?_, hnotes _ ?_, hmore _ ?_, ?_, ?_⟩
  · obtain ⟨entries, hentries, -, hmem⟩ := hentries (forall_not_malformed_of_parse hread)
    have hlast : LastSaid (linesOf (rough "-" "a\\n")) 0x2A "c\\\\\\".toList := by
      rw [hlines, ← hvalue]
      exact ⟨["-".toList, _, _], _, [], rfl, .mk _ _ rfl hupper, by simp⟩
    have hraw : Unescaped "c\\\\\\".toList "c\\\\".toList := unescapeChars_eq_iff.mp rfl
    exact ⟨entries, hentries, (hmem _ _).mpr ⟨_, hlast, hraw⟩⟩
  · have hlines' : linesOf (rough "◇" "a\\n") =
        "◇".toList :: (linesOf (rough "-" "a\\n")).tail := by
      rw [hlines]
      exact (lines_toList _).symm.trans rfl
    rw [hlines', hlines]
    exact .cons (.inr ⟨rfl, rfl⟩) (.cons (.inl rfl) (.cons (.inl rfl) (.cons (.inl rfl) .nil)))
  · have hlines' : linesOf (rough "+\n-" "a\\n") =
        "+".toList :: linesOf (rough "-" "a\\n") := by
      rw [hlines]
      exact (lines_toList _).symm.trans rfl
    rw [hlines', List.filter_cons_of_neg (by decide)]
  · have hlines' : linesOf (rough "-" "") = ["-".toList] ++
        (editedMark :: ("0000002a".toList ++ editedMark :: "\\".toList)) ::
          (linesOf (rough "-" "a\\n")).drop 2 := by
      rw [hlines]
      exact (lines_toList _).symm.trans rfl
    rw [hlines] at hlines'
    obtain ⟨entries, hentries, hlookup⟩ := hedited _ _ _ _ _ _ _ _ _ hlines hlines'
      (.mk _ _ rfl hlower) (.mk _ _ rfl hlower) hread
    exact ⟨entries, hentries, hlookup 0x10 (by decide)⟩
  · obtain ⟨-, hfirst, -⟩ := parse_reads "-\n◆00000010◇\n◆"
    exact hfirst ["-".toList] "◆00000010◇".toList ["◆".toList]
      ((lines_toList _).symm.trans rfl) (by simp [Malformed, editedMark])
      (malformed_iff.mpr ⟨rfl, rfl⟩)

end Scenario.Sheet
