import Scenario.Bytes

/-!
# Scenario.Compression.Piece

The stream format of the sliding-window (LZSS) compression.  A stream is a
run of pieces: bytes that stand for themselves, and copies of earlier output.

1. The window holds the last 4096 bytes of output.  Output goes into its
   slots in turn, starting with slot `FEE`; slots not yet written hold
   spaces.
2. A copy names the slot it starts from and a length of 3 to 18.
3. Pieces come in groups of eight behind a control byte, whose bits, lowest
   first, tell copies (1) from literal bytes (0).  The last group may be
   shorter; its unused bits are zero.
4. A copy takes two bytes: the low eight bits of the slot, then its high four
   bits over the length less three.
-/

namespace Scenario.Compression

/-- Number of slots in the window. -/
def windowSize : Nat := 4096

/-- Slot of the first byte of output. -/
def windowStart : Nat := 0xFEE

/-- What the slots hold at first. -/
def fill : UInt8 := 0x20

/-- Length of the shortest copy. -/
def minCopy : Nat := 3

/-- Length of the longest copy. -/
def maxCopy : Nat := 18

/-- Number of pieces behind a control byte. -/
def groupSize : Nat := 8

/-- One piece of a stream. -/
inductive Piece where
  | literal (b : UInt8)
  /-- Copies `length` bytes of the window from `slot` on. -/
  | copy (slot length : Nat)
  deriving DecidableEq, Repr

namespace Piece

/-- The control bit of a piece. -/
def flag : Piece → Nat
  | literal _ => 0
  | copy .. => 1

/-- The bytes of a piece. -/
def bytes : Piece → Bytes
  | literal b => [b]
  | copy slot length =>
    [UInt8.ofNat (slot % 256), UInt8.ofNat (slot / 256 * 16 + (length - minCopy))]

/-- The control bits of a group as a number. -/
def control : List Piece → Nat
  | [] => 0
  | p :: rest => p.flag + 2 * control rest

/-- The bytes of a group with its control byte. -/
def groupBytes (group : List Piece) : Bytes :=
  UInt8.ofNat (control group) :: group.flatMap bytes

/-- The bytes of a stream. -/
def encode (pieces : List Piece) : Bytes :=
  match pieces with
  | [] => []
  | p :: rest =>
    groupBytes (p :: rest.take (groupSize - 1)) ++ encode (rest.drop (groupSize - 1))
termination_by pieces.length
decreasing_by simp only [List.length_drop, List.length_cons]; omega

end Piece

end Scenario.Compression
