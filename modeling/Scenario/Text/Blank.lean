/-!
# Scenario.Text.Blank

White space: the characters that stripping removes and that leave a text
blank.  The zero width space, the byte order mark and the word joiner are
not among them.
-/

namespace Scenario.Text

/-- Whether a character is white space. -/
def isBlank (c : Char) : Bool :=
  let n := c.toNat
  (0x09 ≤ n && n ≤ 0x0D) || (0x1C ≤ n && n ≤ 0x20) || n == 0x85 || n == 0xA0 || n == 0x1680 ||
    (0x2000 ≤ n && n ≤ 0x200A) || n == 0x2028 || n == 0x2029 || n == 0x202F || n == 0x205F ||
    n == 0x3000

/-- Drops the characters that satisfy `p` from the end of a list. -/
def dropEndWhile (p : Char → Bool) (cs : List Char) : List Char :=
  (cs.reverse.dropWhile p).reverse

/-- Drops white space at both ends. -/
def strip (s : String) : String := String.ofList (dropEndWhile isBlank (s.toList.dropWhile isBlank))

/-- Whether a text is empty or holds white space only. -/
def isBlankText (s : String) : Bool := s.toList.all isBlank

end Scenario.Text
