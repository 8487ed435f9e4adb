/-!
# Scenario.Text.Numeral

Numerals as listings, sheets and messages show them.

1. Hexadecimal digits are upper case, most significant first, with no
   leading zero other than the digit of zero itself.
2. A padded numeral is filled with zeros on the left up to its width.  The
   minus sign of a negative number counts towards the width and stands
   before the zeros.
3. A number that needs more digits than the width is written in full.
-/

namespace Scenario.Numeral

/-- The upper case hexadecimal digit of a value below 16. -/
def hexDigit (d : Nat) : Char :=
  if d < 10 then Char.ofNat (0x30 + d) else Char.ofNat (0x37 + d)

/-- Hexadecimal digits of a number, most significant first. -/
def hexDigits (n : Nat) : List Char :=
  if n < 16 then [hexDigit n] else hexDigits (n / 16) ++ [hexDigit (n % 16)]

/-- Value of a hexadecimal digit in either case; ASCII only. -/
def hexValue? (c : Char) : Option Nat :=
  let n := c.toNat
  if 0x30 ≤ n ∧ n ≤ 0x39 then some (n - 0x30)
  else if 0x41 ≤ n ∧ n ≤ 0x46 then some (n - 0x37)
  else if 0x61 ≤ n ∧ n ≤ 0x66 then some (n - 0x57)
  else none

/-- Decimal digits of a number, most significant first. -/
def decimalDigits (n : Nat) : List Char := (Nat.repr n).toList

/-- A number written with `digits`, zero-filled to `width` with its sign
counted in. -/
def padded (digits : Nat → List Char) (width : Nat) : Int → List Char
  | .ofNat n => (digits n).leftpad width '0'
  | .negSucc n => '-' :: (digits (n + 1)).leftpad (width - 1) '0'

/-- Zero-filled hexadecimal numeral. -/
def hex (width : Nat) (value : Int) : String := String.ofList (padded hexDigits width value)

/-- Zero-filled decimal numeral. -/
def decimalPadded (width : Nat) (value : Int) : String :=
  String.ofList (padded decimalDigits width value)

/-- Plain decimal numeral. -/
def decimal (value : Int) : String := decimalPadded 0 value

end Scenario.Numeral
