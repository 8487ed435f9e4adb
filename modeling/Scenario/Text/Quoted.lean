import Scenario.Text.Numeral
import Scenario.Text.Printable

/-!
# Scenario.Text.Quoted

Texts as messages quote them.

1. The quotes are single, unless the text holds a single quote and no
   double quote; then they are double.
2. The backslash and the chosen quote are escaped with a backslash, and line
   feed, carriage return and tab have short escapes.
3. Every other character that is not printable is written as a lower case
   hexadecimal escape of two, four or eight digits, the fewest that hold it.
-/

namespace Scenario.Text

/-- Lower case hexadecimal digits of a number, zero-filled to `width`. -/
def escapeDigits (width n : Nat) : List Char :=
  ((Numeral.hexDigits n).map Char.toLower).leftpad width '0'

/-- How a character stands between quotes of the kind `mark`. -/
def quoteChar (mark c : Char) : List Char :=
  if c = mark ∨ c = '\\' then ['\\', c]
  else if c = '\n' then ['\\', 'n']
  else if c = '\r' then ['\\', 'r']
  else if c = '\t' then ['\\', 't']
  else if isPrintable c then [c]
  else if c.toNat < 0x100 then '\\' :: 'x' :: escapeDigits 2 c.toNat
  else if c.toNat < 0x10000 then '\\' :: 'u' :: escapeDigits 4 c.toNat
  else '\\' :: 'U' :: escapeDigits 8 c.toNat

/-- The quote that encloses a text. -/
def quoteMark (cs : List Char) : Char :=
  if cs.contains '\'' && !cs.contains '\"' then '\"' else '\''

/-- A text in quotes. -/
def quoted (s : String) : String :=
  let mark := quoteMark s.toList
  String.ofList (mark :: (s.toList.flatMap (quoteChar mark) ++ [mark]))

end Scenario.Text
