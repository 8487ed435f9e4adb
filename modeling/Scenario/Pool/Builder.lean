import Scenario.Ordered
import Scenario.Pool

/-!
# Scenario.Pool.Builder

Building a string pool.  A builder starts from the bytes of a base pool and
adds strings behind them, each followed by a terminator.

1. A byte string that was added before is not written again; it keeps the
   offset of its first writing.
2. References hold 16 bits.  A string behind offset `FFFF` is refused, or,
   where that is allowed, its offset is stored modulo 65536.
3. A string that is refused for its offset has been written nevertheless.
   A text for which the encoding gives no bytes changes nothing.
-/

namespace Scenario

/-- Where a string of the pool begins, and the reference that asked for it. -/
structure Placement where
  offset : Nat
  reference : Int
  deriving DecidableEq, Repr

namespace Placement

/-- Greatest offset that a reference can hold. -/
def maxOffset : Nat := 0xFFFF

/-- Whether the offset is too large for a reference. -/
def wraps (p : Placement) : Bool := p.offset > maxOffset

/-- The 16 bits that are stored. -/
def field (p : Placement) : Nat := p.offset % (maxOffset + 1)

end Placement

namespace Pool

/-- The two zero bytes behind each string. -/
def terminator : Bytes := [0, 0]

/-- A pool under construction. -/
structure Builder where
  encoding : String
  /-- Whether offsets above `FFFF` are stored modulo 65536. -/
  allowOverflow : Bool
  terminator : Bytes
  /-- The pool so far. -/
  buffer : Array UInt8
  /-- The offsets of the byte strings added, in the order of adding. -/
  cache : Ordered Bytes Nat

namespace Builder

/-- A builder that adds behind `base`. -/
def start (encoding : String) (base : Bytes) (allowOverflow : Bool)
    (terminator : Bytes := Pool.terminator) : Builder :=
  { encoding, allowOverflow, terminator, buffer := base.toArray, cache := .empty }

/-- Offset of a byte string that was added before. -/
def offset? (b : Builder) (raw : Bytes) : Option Nat := b.cache.get? raw

/-- Writes a byte string behind the pool. -/
def write : Builder → Bytes → Builder
  | ⟨encoding, allowOverflow, terminator, buffer, cache⟩, raw =>
    let cache := cache.set raw buffer.size
    ⟨encoding, allowOverflow, terminator, buffer ++ raw ++ terminator, cache⟩

/-- The placement that a reference gets, or the refusal of its offset. -/
def place (b : Builder) (offset : Nat) (reference : Int) : Except Error Placement :=
  if offset > Placement.maxOffset && !b.allowOverflow then .error (.poolOverflow offset reference)
  else .ok ⟨offset, reference⟩

/-- Adds a byte string. -/
def addRaw (b : Builder) (raw : Bytes) (reference : Int) : Builder × Except Error Placement :=
  match b.offset? raw with
  | some offset => (b, b.place offset reference)
  | none =>
    let placement := b.place b.buffer.size reference
    (b.write raw, placement)

/-- Bytes of a text in the builder's encoding. -/
def encodeText [Codecs] (b : Builder) (text : String) (reference : Int) : Except Error Bytes := do
  let codec ← Encoding.ofName .encoding b.encoding
  match codec.encode text with
  | .ok raw => .ok raw
  | .error .unencodable => .error (.unencodable text b.encoding reference)
  | .error (.refused message) => .error (.refusingEncoding .encoding message)

/-- Adds a text. -/
def add [Codecs] (b : Builder) (text : String) (reference : Int) :
    Builder × Except Error Placement :=
  match b.encodeText text reference with
  | .error e => (b, .error e)
  | .ok raw => b.addRaw raw reference

/-- The pool built so far. -/
def value (b : Builder) : Bytes := b.buffer.toList

end Builder

end Pool

end Scenario
