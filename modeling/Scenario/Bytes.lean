import Scenario.Error

/-!
# Scenario.Bytes

Byte strings and the unsigned little-endian fields inside them.

1. A field is read only where all of its bytes are present.
2. A value is written only into a field that can hold it.
3. Patching a field never changes the length of the buffer.
-/

namespace Scenario

/-- A byte string. -/
abbrev Bytes := List UInt8

namespace Bytes

/-! ## Values of fields -/

/-- Little-endian value of a byte string. -/
def toNat : Bytes → Nat
  | [] => 0
  | b :: rest => b.toNat + 256 * toNat rest

/-- The lowest `width` bytes of a number, little-endian. -/
def ofNat : (width : Nat) → Nat → Bytes
  | 0, _ => []
  | width + 1, n => UInt8.ofNat n :: ofNat width (n / 256)

/-- Value of two bytes, the low one first. -/
def word (low high : UInt8) : Nat := low.toNat + 256 * high.toNat

/-! ## Sizes -/

/-- Whether a number can be a size or a position: it fits a signed word of 64
bits. -/
def isCountable (n : Int) : Bool := -0x8000000000000000 ≤ n && n < 0x8000000000000000

/-- Greatest length of a byte string, which is stored with 33 bytes more. -/
def maxLength : Int := 0x8000000000000000 - 34

/-- Whether that many bytes may be kept in memory. -/
def isHeld (n : Int) : Bool := n < 0x1000000000

/-! ## Reading -/

/-- Value of the bytes from `offset` on, `width` of them or as many as there
are. -/
def field (data : Bytes) (offset width : Nat) : Nat := toNat ((data.drop offset).take width)

/-- The position that a bound stands for: below zero it counts from the end. -/
def bound (data : Bytes) (i : Int) : Nat := if i < 0 then (i + data.length).toNat else i.toNat

/-- The bytes from `start` up to `stop`, cut to the data; a bound below zero
counts from the end. -/
def slice (data : Bytes) (start stop : Int) : Bytes :=
  (data.drop (data.bound start)).take (data.bound stop - data.bound start)

/-- Value of the field of `width` bytes at `offset`, if it does not begin
before the data or end behind it. -/
def readUInt? (data : Bytes) (offset width : Int) : Option Nat :=
  if offset < 0 ∨ (data.length : Int) < offset + width then none
  else some (toNat (data.slice offset (offset + width)))

/-! ## Writing -/

/-- A value as one byte. -/
def byte (value : Int) : Except Error UInt8 :=
  if 0 ≤ value ∧ value < 256 then .ok (UInt8.ofNat value.toNat) else .error .byteRange

/-- A value as a field of `width` bytes. -/
def pack (width : Nat) (value : Int) : Except Error Bytes :=
  if 0 ≤ value ∧ value < Nat.pow 256 width then .ok (ofNat width value.toNat)
  else .error (.fieldRange (8 * width) value)

end Bytes

/-! ## Many reads and patches -/

/-- A byte string for reading and patching at any place. -/
abbrev Buffer := Array UInt8

namespace Buffer

/-- Value of the 16-bit field at `offset`, if it lies inside. -/
def readWord? (b : Buffer) (offset : Int) : Option Nat :=
  if offset < 0 then none
  else
    match b[offset.toNat]?, b[offset.toNat + 1]? with
    | some low, some high => some (Bytes.word low high)
    | _, _ => none

/-- Why a value cannot be put into the 16-bit field at `offset` of a buffer
of that size.  The place is checked before the value. -/
def patchFault? (size : Nat) (offset value : Int) : Option Error :=
  if offset < 0 ∨ (size : Int) < offset + 2 then some (.patchOutside offset size)
  else if 0 ≤ value ∧ value < 0x10000 then none
  else some (.fieldRange 16 value)

/-- Puts a value into a 16-bit field. -/
def setWord (b : Buffer) (offset value : Nat) : Buffer :=
  (b.setIfInBounds offset (UInt8.ofNat value)).setIfInBounds (offset + 1) (UInt8.ofNat (value / 256))

end Buffer

namespace Bytes

/-- Replaces the 16-bit field at `offset`. -/
def patchWord (buffer : Bytes) (offset value : Int) : Except Error Bytes :=
  match Buffer.patchFault? buffer.length offset value with
  | some e => .error e
  | none => .ok (Buffer.setWord buffer.toArray offset.toNat value.toNat).toList

end Bytes

namespace Buffer

/-- Patching keeps the size. -/
@[simp]
theorem size_setWord (b : Buffer) (offset value : Nat) : (b.setWord offset value).size = b.size := by
  simp [setWord]

/-- A field is read from the buffer as it is from the bytes. -/
theorem readWord?_toArray (data : Bytes) (offset : Int) :
    readWord? data.toArray offset = data.readUInt? offset 2 := by
  by_cases h : offset < 0
  · simp [readWord?, Bytes.readUInt?, h]
  · obtain ⟨n, rfl⟩ := Int.eq_ofNat_of_zero_le (Int.not_lt.1 h)
    have hslice : Bytes.slice data n (n + 2) = (data.drop n).take 2 := by
      simp only [Bytes.slice, Bytes.bound]
      rw [if_neg (by omega), if_neg (by omega)]
      congr 1
      omega
    have hlow : data[n]? = (data.drop n)[0]? := by simp
    have hhigh : data[n + 1]? = (data.drop n)[1]? := by simp
    have hlength : (data.drop n).length = data.length - n := by simp
    simp only [readWord?, if_neg h, List.getElem?_toArray, Int.toNat_natCast, Bytes.readUInt?,
      hslice, hlow, hhigh]
    match hd : data.drop n with
    | [] => rw [hd] at hlength; simp at hlength; simp; omega
    | [_] => rw [hd] at hlength; simp at hlength; simp; omega
    | low :: high :: _ =>
      rw [hd] at hlength
      simp only [List.length_cons] at hlength
      rw [if_neg (by omega)]
      simp [Bytes.word, Bytes.toNat]

end Buffer

end Scenario
