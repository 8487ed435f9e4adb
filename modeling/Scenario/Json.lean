import Scenario.Text.Quoted

/-!
# Scenario.Json

JSON documents and their text, indented by two spaces for each level.

1. An object keeps its fields in the order given; an empty list or object is
   written on one line, any other with one item a line.
2. In strings the quote, the backslash and the control characters below
   U+0020 are escaped; every other character is written as it is.
-/

namespace Scenario

/-- A JSON document. -/
inductive Json where
  | int (value : Int)
  | text (value : String)
  | list (items : List Json)
  | object (fields : List (String × Json))

namespace Json

/-- How a character stands in a string. -/
def escapeChar (c : Char) : List Char :=
  if c = '\"' then ['\\', '\"']
  else if c = '\\' then ['\\', '\\']
  else if c = '\n' then ['\\', 'n']
  else if c = '\r' then ['\\', 'r']
  else if c = '\t' then ['\\', 't']
  else if c.toNat = 0x08 then ['\\', 'b']
  else if c.toNat = 0x0C then ['\\', 'f']
  else if c.toNat < 0x20 then '\\' :: 'u' :: Text.escapeDigits 4 c.toNat
  else [c]

/-- A string in quotes. -/
def quote (s : String) : String :=
  String.ofList ('\"' :: (s.toList.flatMap escapeChar ++ ['\"']))

/-- Start of a line at a level. -/
def newline (level : Nat) : String := String.ofList ('\n' :: List.replicate (2 * level) ' ')

/-- Items between brackets, each on a line of its own. -/
def enclose (opening closing : String) (level : Nat) (items : List String) : String :=
  if items.isEmpty then opening ++ closing
  else
    opening ++ newline (level + 1) ++ ("," ++ newline (level + 1)).intercalate items ++
      newline level ++ closing

mutual

/-- Text of a document whose brackets close at a level. -/
def renderAt (level : Nat) : Json → String
  | .int value => Numeral.decimal value
  | .text value => quote value
  | .list items => enclose "[" "]" level (renderItems (level + 1) items)
  | .object fields => enclose "\x7b" "\x7d" level (renderFields (level + 1) fields)

/-- Texts of the items of a list. -/
def renderItems (level : Nat) : List Json → List String
  | [] => []
  | item :: items => renderAt level item :: renderItems level items

/-- Texts of the fields of an object. -/
def renderFields (level : Nat) : List (String × Json) → List String
  | [] => []
  | (key, value) :: fields =>
    (quote key ++ ": " ++ renderAt level value) :: renderFields level fields

end

/-- Text of a document. -/
def render (document : Json) : String := renderAt 0 document

end Json

end Scenario
