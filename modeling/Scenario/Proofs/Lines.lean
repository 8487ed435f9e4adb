import Scenario.Proofs.Numerals
import Scenario.Sheet

/-!
# Scenario.Proofs.Lines

A sheet is read back as it was written, whatever the texts are.

1. `unescapeChars_escapeChars` — a text comes back from its line.
2. `lines_format` — no text breaks out of its line, so the lines of a sheet
   are those of its blocks.
3. `readLine?_markedLine` — the address and the text come back from a line.
4. `parse_format` — hence a sheet is read as the dictionary of its strings.
-/

namespace Scenario.Sheet

/-! ## escapes -/

/-- A character that is no backslash stands for itself. -/
theorem unescapeFrom_of_ne {c : Char} (h : c ≠ '\\') (read cs : List Char) :
    unescapeFrom read (c :: cs) = unescapeFrom (c :: read) cs := by
  cases cs with
  | nil => rfl
  | cons d rest => rw [unescapeFrom, if_neg h]

theorem unescapeFrom_escape {d e : Char} (h : unescapeChar? d = some e) (read cs : List Char) :
    unescapeFrom read ('\\' :: d :: cs) = unescapeFrom (e :: read) cs := by
  rw [unescapeFrom, if_pos rfl, h]

/-- Each character comes back from what stands for it. -/
theorem unescapeFrom_escapeChar (c : Char) (read cs : List Char) :
    unescapeFrom read (escapeChar c ++ cs) = unescapeFrom (c :: read) cs := by
  rw [escapeChar]
  split
  · next h => subst h; exact unescapeFrom_escape rfl read cs
  split
  · next h => subst h; exact unescapeFrom_escape rfl read cs
  split
  · next h => subst h; exact unescapeFrom_escape rfl read cs
  split
  · next h => subst h; exact unescapeFrom_escape rfl read cs
  next hbackslash _ _ _ => exact unescapeFrom_of_ne hbackslash read cs

theorem unescapeFrom_escapeChars (cs read : List Char) :
    unescapeFrom read (escapeChars cs) = read.reverse ++ cs := by
  induction cs generalizing read with
  | nil => simp [escapeChars, unescapeFrom]
  | cons c cs ih =>
      rw [escapeChars] at ih ⊢
      rw [List.flatMap_cons, unescapeFrom_escapeChar, ih]
      simp

/-- **Escapes**: a text comes back from its line. -/
theorem unescapeChars_escapeChars (cs : List Char) : unescapeChars (escapeChars cs) = cs :=
  unescapeFrom_escapeChars cs []

/-! ## lines -/

/-- A character that does not end a line. -/
def Inline (c : Char) : Prop := c ≠ '\n' ∧ c ≠ '\r'

theorem inline_of_mem_escapeChars {cs : List Char} : ∀ c ∈ escapeChars cs, Inline c := by
  intro c hc
  obtain ⟨c', -, hc⟩ := List.mem_flatMap.mp hc
  rw [escapeChar] at hc
  split_ifs at hc <;> simp only [List.mem_cons, List.not_mem_nil, or_false] at hc
  · rcases hc with rfl | rfl <;> simp [Inline]
  · rcases hc with rfl | rfl <;> simp [Inline]
  · rcases hc with rfl | rfl <;> simp [Inline]
  · rcases hc with rfl | rfl <;> simp [Inline]
  · next hreturn hfeed _ => exact hc ▸ ⟨hfeed, hreturn⟩

/-- The addresses that have eight digits. -/
def Addressable (address : Int) : Prop := 0 ≤ address ∧ address < 0x100000000

/-- Such an address is a number that eight digits can hold. -/
theorem Addressable.exists_nat {address : Int} (h : Addressable address) :
    ∃ n : Nat, address = n ∧ n < 16 ^ (7 + 1) := by
  obtain ⟨n, rfl⟩ := Int.eq_ofNat_of_zero_le h.1
  have hn := h.2
  exact ⟨n, rfl, by omega⟩

theorem inline_of_mem_hex {address : Int} (h : Addressable address) :
    ∀ c ∈ (Numeral.hex 8 address).toList, Inline c := by
  obtain ⟨n, rfl, hn⟩ := h.exists_nat
  intro c hc
  rw [Numeral.toList_hex hn] at hc
  obtain ⟨d, hd, rfl⟩ := Numeral.exists_of_mem_lastDigits (by decide) hc
  have hvalue := Numeral.hexValue?_hexDigit hd
  constructor <;> intro heq <;> rw [heq] at hvalue <;> cases hvalue

theorem inline_of_mem_markedLine {mark : Char} (hmark : Inline mark) {address : Int}
    (h : Addressable address) (text : String) : ∀ c ∈ markedLine mark address text, Inline c := by
  intro c hc
  rw [markedLine, List.mem_cons, List.mem_append, List.mem_cons] at hc
  rcases hc with rfl | hc | rfl | hc
  · exact hmark
  · exact inline_of_mem_hex h c hc
  · exact hmark
  · exact inline_of_mem_escapeChars c hc

/-- The lines of a block. -/
def blockLines (e : Int × String) : List (List Char) :=
  [markedLine storedMark e.1 e.2, markedLine editedMark e.1 e.2, []]

theorem inline_of_mem_blockLines {e : Int × String} (h : Addressable e.1) :
    ∀ line ∈ blockLines e, ∀ c ∈ line, Inline c := by
  simp only [blockLines, List.mem_cons, List.not_mem_nil, or_false]
  rintro line (rfl | rfl | rfl)
  · exact inline_of_mem_markedLine (by simp [Inline, storedMark]) h e.2
  · exact inline_of_mem_markedLine (by simp [Inline, editedMark]) h e.2
  · simp

theorem toList_format (entries : List (Int × String)) :
    (format entries).toList = (entries.flatMap blockLines).flatMap (· ++ ['\n']) := by
  rw [format, String.toList_ofList, List.flatMap_assoc]
  congr 1
  funext e
  simp [blockLines, block]

/-- A sheet starts with the mark of its first line. -/
theorem dropMark_format (entries : List (Int × String)) :
    dropMark (format entries).toList = (format entries).toList := by
  rw [toList_format]
  cases entries with
  | nil => rfl
  | cons e entries => rfl

/-- A line ends at the line feed behind it. -/
theorem splitFrom_append {line : List Char} (h : '\n' ∉ line) (before rest : List Char) :
    splitFrom before (line ++ '\n' :: rest) = (before.reverse ++ line) :: splitFrom [] rest := by
  induction line generalizing before with
  | nil => simp [splitFrom]
  | cons c line ih =>
      rw [List.mem_cons, not_or] at h
      rw [List.cons_append, splitFrom, if_neg (Ne.symm h.1), ih h.2]
      simp

/-- Lines with a line feed behind each of them; nothing follows the last. -/
theorem splitFrom_flatMap {ls : List (List Char)} (h : ∀ line ∈ ls, '\n' ∉ line) :
    splitFrom [] (ls.flatMap (· ++ ['\n'])) = ls ++ [[]] := by
  induction ls with
  | nil => rfl
  | cons line ls ih =>
      rw [List.forall_mem_cons] at h
      rw [List.flatMap_cons, List.append_assoc, List.singleton_append, splitFrom_append h.1,
        ih h.2]
      rfl

/-- Nothing is dropped from the end if nothing is to be dropped at all. -/
theorem dropEndWhile_of_forall {p : Char → Bool} {cs : List Char} (h : ∀ c ∈ cs, p c = false) :
    Text.dropEndWhile p cs = cs := by
  have hfirst : cs.reverse.dropWhile p = cs.reverse := by
    cases hreverse : cs.reverse with
    | nil => rfl
    | cons c rest =>
        have hc : c ∈ cs := List.mem_reverse.mp (hreverse ▸ List.mem_cons_self)
        rw [List.dropWhile_cons_of_neg (by simp [h c hc])]
  rw [Text.dropEndWhile, hfirst, List.reverse_reverse]

/-- **Lines**: those of a sheet are those of its blocks. -/
theorem lines_format {entries : List (Int × String)} (h : ∀ e ∈ entries, Addressable e.1) :
    lines (format entries).toList = entries.flatMap blockLines ++ [[]] := by
  have hinline : ∀ line ∈ entries.flatMap blockLines, ∀ c ∈ line, Inline c := by
    intro line hline
    obtain ⟨e, he, hline⟩ := List.mem_flatMap.mp hline
    exact inline_of_mem_blockLines (h e he) line hline
  rw [lines, dropMark_format, toList_format,
    splitFrom_flatMap fun line hline hfeed => (hinline line hline '\n' hfeed).1 rfl]
  have hkeep : ∀ line ∈ entries.flatMap blockLines ++ [[]],
      Text.dropEndWhile (· == '\r') line = line := by
    intro line hline
    apply dropEndWhile_of_forall
    intro c hc
    rw [List.mem_append, List.mem_singleton] at hline
    rcases hline with hline | rfl
    · exact beq_false_of_ne (hinline line hline c hc).2
    · cases hc
  rw [List.map_congr_left hkeep, List.map_id']

/-! ## records -/

/-- A number is read back from its digits. -/
theorem hexField?_lastDigits (width n start : Nat) (rest : List Char) :
    hexField? width start (Numeral.lastDigits Numeral.hexDigit 16 width n ++ rest) =
      some (16 ^ width * start + n % 16 ^ width, rest) := by
  induction width generalizing start with
  | zero => simp [hexField?, Numeral.lastDigits, Nat.mod_one]
  | succ width ih =>
      have hdigit :=
        Numeral.hexValue?_hexDigit (Nat.mod_lt (n / 16 ^ width) (show 0 < 16 by decide))
      rw [Numeral.lastDigits, List.cons_append, hexField?, hdigit]
      dsimp only
      rw [ih, Numeral.place_step]

/-- Address and text come back from a line. -/
theorem readLine?_markedLine (mark : Char) {address : Int} (h : Addressable address)
    (text : String) : readLine? (markedLine mark address text) = some (address.toNat, text) := by
  obtain ⟨n, rfl, hn⟩ := h.exists_nat
  rw [markedLine, readLine?, Numeral.toList_hex hn, hexField?_lastDigits, Nat.mul_zero,
    Nat.zero_add, Nat.mod_eq_of_lt hn]
  simp [unescapeChars_escapeChars]

/-- Lines that are read back, the first with its number. -/
def editedFrom (number : Nat) (ls : List (List Char)) : List (Nat × List Char) :=
  ((ls.zipIdx number).map fun (line, number) => (number, line)).filter
    fun (_, line) => isEdited line

/-- Of a block only the edited line is read back. -/
theorem editedFrom_blockLines (number : Nat) (e : Int × String) (ls : List (List Char)) :
    editedFrom number (blockLines e ++ ls) =
      (number + 1, markedLine editedMark e.1 e.2) :: editedFrom (number + 3) ls := by
  simp [editedFrom, blockLines, List.zipIdx_cons, isEdited, markedLine, storedMark, editedMark]

/-- The records of blocks are their strings. -/
theorem exists_recordsFrom_eq {entries : List (Int × String)}
    (h : ∀ e ∈ entries, Addressable e.1) (number : Nat) (read : List Record) :
    ∃ written, recordsFrom read (editedFrom number (entries.flatMap blockLines ++ [[]])) =
        (read.reverse ++ written, none) ∧
      written.map (fun r => (r.address, r.text)) = entries.map fun e => (e.1.toNat, e.2) := by
  induction entries generalizing number read with
  | nil => exact ⟨[], by simp [editedFrom, isEdited, recordsFrom], rfl⟩
  | cons e entries ih =>
      rw [List.forall_mem_cons] at h
      obtain ⟨written, hwritten, hmap⟩ :=
        ih h.2 (number + 3) (⟨number + 1, e.1.toNat, e.2⟩ :: read)
      refine ⟨⟨number + 1, e.1.toNat, e.2⟩ :: written, ?_, by rw [List.map_cons, hmap]; rfl⟩
      rw [List.flatMap_cons, List.append_assoc, editedFrom_blockLines, recordsFrom,
        readLine?_markedLine _ h.1]
      simpa using hwritten

/-- **Sheets**: a sheet is read as the dictionary of the strings it was written
from. -/
theorem parse_format {entries : List (Int × String)} (h : ∀ e ∈ entries, Addressable e.1) :
    parse (format entries) =
      .ok (Ordered.ofList (entries.map fun e => (e.1.toNat, e.2))).toList := by
  obtain ⟨written, hwritten, hmap⟩ := exists_recordsFrom_eq h 1 []
  have hrecords : records (format entries) = (written, none) := by
    rw [records, editedLines, lines_format h]
    exact hwritten
  rw [parse, hrecords]
  dsimp only
  rw [entriesOf, hmap]

end Scenario.Sheet
