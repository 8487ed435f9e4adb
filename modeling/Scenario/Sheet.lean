import Scenario.Error
import Scenario.Ordered
import Scenario.Text.Blank

/-!
# Scenario.Sheet

Bilingual sheets: text files in which the strings of a script are edited.
Every string has a block of three lines,

```
◇0000002A◇text as stored
◆0000002A◆text as edited
(empty)
```

keyed by the position of its reference in the code.

1. Texts are escaped to fit on one line: backslash, carriage return, line
   feed and tab have escapes.  Reading undoes them and leaves every other
   sequence alone.
2. Only the lines that start with `◆` are read back.  Such a line must go on
   with eight hexadecimal digits, `◆` and a text; anything else is an error.
3. A byte order mark at the start and carriage returns at the ends of lines
   are ignored.
4. When an address comes twice, the later text counts.
-/

namespace Scenario.Sheet

/-- Mark of a line that shows a string as stored. -/
def storedMark : Char := '◇'

/-- Mark of a line that holds a string as edited. -/
def editedMark : Char := '◆'

/-! ## Escapes -/

/-- How a character stands on a line. -/
def escapeChar (c : Char) : List Char :=
  if c = '\\' then ['\\', '\\']
  else if c = '\r' then ['\\', 'r']
  else if c = '\n' then ['\\', 'n']
  else if c = '\t' then ['\\', 't']
  else [c]

/-- The character that stands behind a backslash, if the two are an
escape. -/
def unescapeChar? (c : Char) : Option Char :=
  if c = '\\' then some '\\'
  else if c = 'r' then some '\r'
  else if c = 'n' then some '\n'
  else if c = 't' then some '\t'
  else none

/-- A text on one line. -/
def escapeChars (cs : List Char) : List Char := cs.flatMap escapeChar

/-- Undoes escapes; `read` holds the characters before, newest first. -/
def unescapeFrom (read : List Char) : List Char → List Char
  | [] => read.reverse
  | [c] => (c :: read).reverse
  | c :: d :: rest =>
    if c = '\\' then
      match unescapeChar? d with
      | some e => unescapeFrom (e :: read) rest
      | none => unescapeFrom (c :: read) (d :: rest)
    else unescapeFrom (c :: read) (d :: rest)

/-- The text of a line. -/
def unescapeChars (cs : List Char) : List Char := unescapeFrom [] cs

/-- A text on one line. -/
def escape (s : String) : String := String.ofList (escapeChars s.toList)

/-- The text of a line. -/
def unescape (s : String) : String := String.ofList (unescapeChars s.toList)

/-! ## Writing -/

/-- A line of a block. -/
def markedLine (mark : Char) (address : Int) (text : String) : List Char :=
  mark :: ((Numeral.hex 8 address).toList ++ mark :: escapeChars text.toList)

/-- The block of a string, each line with its line feed. -/
def block (address : Int) (text : String) : List Char :=
  markedLine storedMark address text ++ '\n' :: (markedLine editedMark address text ++ ['\n', '\n'])

/-- The sheet of a list of strings. -/
def format (entries : List (Int × String)) : String :=
  String.ofList (entries.flatMap fun (address, text) => block address text)

/-! ## Reading -/

/-- The parts of a text between line feeds; `line` holds the part in
progress, newest character first. -/
def splitFrom (line : List Char) : List Char → List (List Char)
  | [] => [line.reverse]
  | c :: cs => if c = '\n' then line.reverse :: splitFrom [] cs else splitFrom (c :: line) cs

/-- A text without a byte order mark at its start. -/
def dropMark : List Char → List Char
  | c :: cs => if c.toNat = 0xFEFF then cs else c :: cs
  | [] => []

/-- The lines of a sheet, without the carriage returns at their ends. -/
def lines (cs : List Char) : List (List Char) :=
  (splitFrom [] (dropMark cs)).map (Text.dropEndWhile (· == '\r'))

/-- The number that exactly `count` hexadecimal digits spell behind the
digits of `value`, and what follows them. -/
def hexField? : (count value : Nat) → List Char → Option (Nat × List Char)
  | 0, value, cs => some (value, cs)
  | _ + 1, _, [] => none
  | count + 1, value, c :: cs =>
    match Numeral.hexValue? c with
    | some d => hexField? count (16 * value + d) cs
    | none => none

/-- Whether a line is read back. -/
def isEdited (line : List Char) : Bool := line.head? == some editedMark

/-- Address and text of a line that starts with the mark. -/
def readLine? : List Char → Option (Nat × String)
  | mark :: rest =>
    match hexField? 8 0 rest with
    | some (address, c :: text) =>
      if c = mark then some (address, String.ofList (unescapeChars text)) else none
    | _ => none
  | [] => none

/-- An edited string and the number of its line. -/
structure Record where
  line : Nat
  address : Nat
  text : String
  deriving DecidableEq, Repr

/-- The lines that are read back, with their numbers. -/
def editedLines (text : String) : List (Nat × List Char) :=
  (((lines text.toList).zipIdx 1).map fun (line, number) => (number, line)).filter
    fun (_, line) => isEdited line

/-- The records of marked lines up to the first that is malformed, and that
one's error; `read` holds the records before, newest first. -/
def recordsFrom (read : List Record) : List (Nat × List Char) → List Record × Option Error
  | [] => (read.reverse, none)
  | (number, line) :: rest =>
    match readLine? line with
    | some (address, text) => recordsFrom (⟨number, address, text⟩ :: read) rest
    | none => (read.reverse, some (.malformedLine number (String.ofList line)))

/-- The records of a sheet up to the first malformed line. -/
def records (text : String) : List Record × Option Error := recordsFrom [] (editedLines text)

/-- The edited texts by address. -/
def entriesOf (records : List Record) : List (Nat × String) :=
  (Ordered.ofList (records.map fun r => (r.address, r.text))).toList

/-- Reads a sheet: the edited texts by address, in the order in which the
addresses first come. -/
def parse (text : String) : Except Error (List (Nat × String)) :=
  match records text with
  | (read, none) => .ok (entriesOf read)
  | (_, some e) => .error e

/-- The texts of a sheet as new texts by reference. -/
def toTexts (entries : List (Nat × String)) : Ordered Int String :=
  .ofList (entries.map fun (address, text) => ((address : Int), text))

/-- The records whose address came before; `seen` holds the addresses so
far. -/
def repeatsFrom (seen : List Nat) : List Record → List Record
  | [] => []
  | r :: rest =>
    if seen.contains r.address then r :: repeatsFrom seen rest
    else repeatsFrom (r.address :: seen) rest

/-- The records that replace an earlier one. -/
def repeats (records : List Record) : List Record := repeatsFrom [] records

end Scenario.Sheet
