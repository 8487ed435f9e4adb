import Mathlib.Data.List.Induction
import Scenario.Proofs.Lines

/-!
# Scenario.Proofs.LineEnds

Sheets that an editor has saved: with a byte order mark in front, or with a
carriage return before every line feed.

1. `lines_returned` — the lines of a text are the same with carriage
   returns, whatever the text is, since returns at the ends of lines are
   dropped.
2. `lines_mark` — one byte order mark does not count.
3. `parse_saved` — hence a saved sheet is read as if it had not been saved,
   and that is the dictionary of its strings.
-/

namespace Scenario

/-! ## dictionaries -/

namespace Ordered

variable {κ ν : Type} [Ord κ] [Std.TransOrd κ] [Std.LawfulEqOrd κ] [DecidableEq κ]

/-- Of the pairs of a key the last one counts. -/
theorem get?_ofList (pairs : List (κ × ν)) (key : κ) :
    (ofList pairs).get? key = pairs.reverse.lookup key := by
  induction pairs using List.reverseRecOn with
  | nil => simp [ofList]
  | append_singleton pairs pair ih =>
      rw [ofList] at ih ⊢
      rw [List.foldl_append, List.foldl_cons, List.foldl_nil, get?_set, ih, List.reverse_append,
        List.reverse_singleton, List.singleton_append, List.lookup_cons]
      by_cases h : pair.1 = key
      · simp [h]
      · simp [h, beq_false_of_ne (Ne.symm h)]

end Ordered

namespace Sheet

/-! ## carriage returns -/

/-- Characters with a carriage return before every line feed. -/
def returned (cs : List Char) : List Char :=
  cs.flatMap fun c => if c = '\n' then ['\r', '\n'] else [c]

@[simp] theorem returned_feed (cs : List Char) :
    returned ('\n' :: cs) = '\r' :: '\n' :: returned cs := rfl

theorem returned_cons {c : Char} (h : c ≠ '\n') (cs : List Char) :
    returned (c :: cs) = c :: returned cs := by
  simp [returned, h]

/-- A carriage return at the end of a line does not count. -/
theorem dropEndWhile_return (line : List Char) :
    Text.dropEndWhile (· == '\r') (line ++ ['\r']) = Text.dropEndWhile (· == '\r') line := by
  simp [Text.dropEndWhile]

/-- The lines of a text are the same with carriage returns; `line` is the part
in progress. -/
theorem map_splitFrom_returned (cs line : List Char) :
    (splitFrom line (returned cs)).map (Text.dropEndWhile (· == '\r')) =
      (splitFrom line cs).map (Text.dropEndWhile (· == '\r')) := by
  induction cs generalizing line with
  | nil => rfl
  | cons c cs ih =>
      by_cases h : c = '\n'
      · subst h
        -- the return joins the line that the feed ends
        have hsplit : splitFrom line ('\r' :: '\n' :: returned cs) =
            (line.reverse ++ ['\r']) :: splitFrom [] (returned cs) := by
          simp [splitFrom]
        rw [returned_feed, hsplit, splitFrom, if_pos rfl, List.map_cons, List.map_cons,
          dropEndWhile_return, ih]
      · rw [returned_cons h, splitFrom, if_neg h, splitFrom, if_neg h, ih]

theorem dropMark_returned (cs : List Char) : dropMark (returned cs) = returned (dropMark cs) := by
  cases cs with
  | nil => rfl
  | cons c cs =>
      by_cases h : c = '\n'
      · subst h
        rfl
      · rw [returned_cons h, dropMark, dropMark]
        split
        · rfl
        · rw [returned_cons h]

/-- **Carriage returns**: the lines of a text are the same with them. -/
theorem lines_returned (cs : List Char) : lines (returned cs) = lines cs := by
  rw [lines, lines, dropMark_returned, map_splitFrom_returned]

/-! ## byte order marks -/

/-- The character that is dropped at the start of a sheet. -/
def byteOrderMark : Char := '\uFEFF'

/-- **Byte order marks**: one in front of a text that has none does not count. -/
theorem lines_mark {cs : List Char} (h : dropMark cs = cs) :
    lines (byteOrderMark :: cs) = lines cs := by
  have hdrop : dropMark (byteOrderMark :: cs) = cs := rfl
  rw [lines, lines, hdrop, h]

/-! ## saved sheets -/

/-- A text as an editor saves it: with a byte order mark in front, with
carriage returns, with both or with neither. -/
def saved (mark returns : Bool) (text : String) : String :=
  let cs := if returns then returned text.toList else text.toList
  String.ofList (if mark then byteOrderMark :: cs else cs)

theorem lines_saved_format (mark returns : Bool) (entries : List (Int × String)) :
    lines (saved mark returns (format entries)).toList = lines (format entries).toList := by
  have hmark := dropMark_format entries
  have hreturned : dropMark (returned (format entries).toList) =
      returned (format entries).toList := by
    rw [dropMark_returned, hmark]
  cases mark <;> cases returns <;>
    simp [saved, lines_mark, lines_returned, hmark, hreturned]

/-- What is read depends on the lines alone. -/
theorem parse_congr {text text' : String} (h : lines text.toList = lines text'.toList) :
    parse text = parse text' := by
  rw [parse, parse, records, records, editedLines, editedLines, h]

/-- **Saved sheets**: a sheet is read as the dictionary of the strings it was
written from, whatever an editor has done to its line ends and to its start.
Of the texts of an address the last one counts. -/
theorem parse_saved (mark returns : Bool) {entries : List (Nat × String)}
    (h : ∀ e ∈ entries, e.1 < 2 ^ 32) :
    parse (saved mark returns (format (entries.map fun e => ((e.1 : Int), e.2)))) =
        .ok (Ordered.ofList entries).toList ∧
      ∀ address, (Ordered.ofList entries).toList.lookup address =
        entries.reverse.lookup address := by
  have haddress : ∀ e ∈ entries.map (fun e => ((e.1 : Int), e.2)), Addressable e.1 := by
    intro e he
    obtain ⟨e', he', rfl⟩ := List.mem_map.mp he
    have hlt := h e' he'
    constructor <;> dsimp only <;> omega
  have hback : (entries.map fun e => ((e.1 : Int), e.2)).map (fun e => (e.1.toNat, e.2)) =
      entries := by
    simp [Function.comp_def]
  constructor
  · rw [parse_congr (lines_saved_format mark returns _), parse_format haddress, hback]
  · intro address
    rw [← Ordered.get?_eq_lookup, Ordered.get?_ofList]

/-- Texts with every escape, with the marks themselves and with other ends of
lines, the first of which is replaced by the third. -/
theorem parse_saved_escapes :
    parse (saved true true (format [(0x2A, "a\\\r\n\t\u2028◆0000002A◆"), (0xFFFFFFFF, ""),
      (0x2A, "◇\\")])) = .ok [(0x2A, "◇\\"), (0xFFFFFFFF, "")] := by
  exact (@parse_saved true true [(0x2A, "a\\\r\n\t\u2028◆0000002A◆"), (0xFFFFFFFF, ""),
    (0x2A, "◇\\")] (by simp)).1

end Sheet

end Scenario
