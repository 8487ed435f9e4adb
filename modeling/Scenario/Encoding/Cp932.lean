import Scenario.Bytes
import Scenario.Encoding.Cp932.Table
import Scenario.Encoding.Utf8
import Std.Data.HashMap

/-!
# Scenario.Encoding.Cp932

Code page 932 (Shift JIS with the extensions of its Windows variant).

1. Bytes `00`-`80` stand for themselves, `A1`-`DF` for the half-width
   katakana, and `A0`, `FD`, `FE`, `FF` for the private characters
   U+F8F0 to U+F8F3.
2. Every other byte leads a pair.  Leads `F0`-`F9` are the private area from
   U+E000 on, 188 characters each; the other pairs are in the table.
3. A pair without a meaning gives a replacement character for its lead byte
   alone; the second byte is read again.
4. A character that has several codes is written with the lowest of them.
   Six characters that the page itself never produces are written with the
   code of their look-alike.
-/

namespace Scenario.Encoding.Cp932

/-! ## Pairs -/

/-- The table's rows as lists of characters. -/
def rows : List (UInt8 × List Char) := table.map fun (lead, row) => (lead, row.toList)

/-- The mark of an unassigned place in a row. -/
def unassigned : Char := '.'

/-- Place of a trail byte in its row. -/
def trailIndex? (b : UInt8) : Option Nat :=
  if 0x40 ≤ b ∧ b ≤ 0x7E then some (b.toNat - 0x40)
  else if 0x80 ≤ b ∧ b ≤ 0xFC then some (b.toNat - 0x41)
  else none

/-- Trail byte of a place in a row. -/
def trailByte (index : Nat) : UInt8 :=
  if index < 63 then UInt8.ofNat (0x40 + index) else UInt8.ofNat (0x41 + index)

/-- Whether a lead byte belongs to the private area. -/
def isPrivateLead (b : UInt8) : Bool := 0xF0 ≤ b && b ≤ 0xF9

/-- Character of a pair, if it has one. -/
def pair? (lead trail : UInt8) : Option Char := do
  let index ← trailIndex? trail
  if isPrivateLead lead then
    return Char.ofNat (0xE000 + 188 * (lead.toNat - 0xF0) + index)
  let row ← rows.lookup lead
  let c ← row[index]?
  if c = unassigned then none else some c

/-! ## Decoding -/

/-- Character of a byte that stands alone, if it does. -/
def single? (b : UInt8) : Option Char :=
  if b ≤ 0x80 then some (Char.ofNat b.toNat)
  else if b = 0xA0 then some (Char.ofNat 0xF8F0)
  else if 0xA1 ≤ b ∧ b ≤ 0xDF then some (Char.ofNat (0xFF61 + (b.toNat - 0xA1)))
  else if 0xFD ≤ b then some (Char.ofNat (0xF8F1 + (b.toNat - 0xFD)))
  else none

/-- Decoding in progress: the characters read, newest first, and the lead
byte that waits for its trail. -/
structure State where
  read : List Char
  lead : Option UInt8

/-- Takes a byte that starts a character. -/
def State.start (read : List Char) (b : UInt8) : State :=
  match single? b with
  | some c => ⟨c :: read, none⟩
  | none => ⟨read, some b⟩

/-- Takes one byte. -/
def State.step (state : State) (b : UInt8) : State :=
  match state.lead with
  | none => .start state.read b
  | some lead =>
    match pair? lead b with
    | some c => ⟨c :: state.read, none⟩
    | none => .start (replacement :: state.read) b

/-- The characters at the end of the input; a lead byte without a trail is
replaced. -/
def State.finish (state : State) : List Char :=
  match state.lead with
  | none => state.read.reverse
  | some _ => (replacement :: state.read).reverse

/-- Text of a byte string. -/
def decode (data : Bytes) : List Char := (data.foldl State.step ⟨[], none⟩).finish

/-! ## Encoding -/

/-- Characters that are written with the code of a look-alike. -/
def lookAlikes : List (Nat × UInt8 × UInt8) := [
  (0x00A2, 0x81, 0x91), (0x00A3, 0x81, 0x92), (0x00AC, 0x81, 0xCA), (0x2016, 0x81, 0x61),
  (0x2212, 0x81, 0x7C), (0x301C, 0x81, 0x60)]

/-- The characters of the table with their codes, in the order of codes. -/
def codes : List (Char × Bytes) :=
  rows.flatMap fun (lead, row) => row.zipIdx.map fun (c, index) => (c, [lead, trailByte index])

/-- The codes by code point; the lowest, where there are several. -/
def codeTable : Std.HashMap Nat Bytes :=
  codes.foldl (fun t (c, code) => t.insertIfNew c.toNat code) ∅

theorem getElem?_foldl_insertIfNew (t : Std.HashMap Nat Bytes) (l : List (Char × Bytes))
    (c : Char) :
    (l.foldl (fun t (c, code) => t.insertIfNew c.toNat code) t)[c.toNat]? =
      t[c.toNat]?.or (l.lookup c) := by
  induction l generalizing t with
  | nil => simp
  | cons first rest ih =>
    obtain ⟨d, code⟩ := first
    rw [List.foldl_cons, ih, Std.HashMap.getElem?_insertIfNew, List.lookup_cons]
    by_cases h : d = c
    · subst h
      by_cases hd : d.toNat ∈ t <;> simp [hd]
    · have hcd : (c == d) = false := by simpa using fun heq => h heq.symm
      have hne : d.toNat ≠ c.toNat := fun heq => h (Char.toNat_inj.mp heq)
      simp [hne, hcd]

/-- The table gives the first code of a character. -/
theorem getElem?_codeTable (c : Char) : codeTable[c.toNat]? = codes.lookup c := by
  rw [codeTable, getElem?_foldl_insertIfNew, Std.HashMap.getElem?_empty, Option.none_or]

/-- Code of a character, if it has one. -/
def encodeChar? (c : Char) : Option Bytes :=
  let n := c.toNat
  if n ≤ 0x80 then some [UInt8.ofNat n]
  else if 0xFF61 ≤ n ∧ n ≤ 0xFF9F then some [UInt8.ofNat (n - 0xFF61 + 0xA1)]
  else if n = 0xF8F0 then some [0xA0]
  else if 0xF8F1 ≤ n ∧ n ≤ 0xF8F3 then some [UInt8.ofNat (n - 0xF8F1 + 0xFD)]
  else if 0xE000 ≤ n ∧ n < 0xE000 + 1880 then
    some [UInt8.ofNat (0xF0 + (n - 0xE000) / 188), trailByte ((n - 0xE000) % 188)]
  else
    match lookAlikes.lookup n with
    | some (lead, trail) => some [lead, trail]
    | none => codeTable[n]?

/-- Bytes of a text, if every character has a code. -/
def encode? (cs : List Char) : Option Bytes := (cs.mapM encodeChar?).map List.flatten

end Scenario.Encoding.Cp932
