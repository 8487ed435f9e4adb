import Scenario.Compression.Piece

/-!
# Scenario.Compression.Expand

Expanding a compressed stream.  Output passes through a ring of 4096 slots,
from which copies are taken, byte by byte, so that a copy may run into the
bytes it has just produced.

Expansion ends with the input, or as soon as the output has the size asked
for.  A stream may be cut anywhere: a control byte with nothing behind it and
half of a copy give no output.
-/

namespace Scenario.Compression

/-- The window and the output so far. -/
structure Expander where
  ring : Vector UInt8 windowSize
  /-- The slot that is written next. -/
  head : Fin windowSize
  output : Array UInt8

namespace Expander

/-- Nothing written into the given window. -/
def start (ring : Vector UInt8 windowSize) : Expander :=
  { ring, head := ⟨windowStart, by decide⟩, output := #[] }

/-- The slot behind a slot. -/
def next (slot : Fin windowSize) : Fin windowSize :=
  ⟨(slot.val + 1) % windowSize, Nat.mod_lt _ (by decide)⟩

/-- Writes one byte of output. -/
def emit (s : Expander) (b : UInt8) : Expander :=
  { ring := s.ring.set s.head b s.head.isLt
    head := next s.head
    output := s.output.push b }

/-- Whether the output has the size asked for. -/
def isFull (limit : Option Int) (s : Expander) : Bool :=
  match limit with
  | some size => size ≤ s.output.size
  | none => false

/-- Copies bytes of the window from `slot` on, until the output is full. -/
def copy (limit : Option Int) : (length : Nat) → (slot : Fin windowSize) → Expander → Expander
  | 0, _, s => s
  | length + 1, slot, s =>
    if s.isFull limit then s
    else copy limit length (next slot) (s.emit (s.ring.get slot))

/-- The slot that a copy's two bytes name. -/
def slotOf (low high : UInt8) : Fin windowSize :=
  ⟨(low.toNat + 256 * (high.toNat / 16)) % windowSize, Nat.mod_lt _ (by decide)⟩

/-- The length that a copy's second byte names. -/
def lengthOf (high : UInt8) : Nat := high.toNat % 16 + minCopy

/-- Expands a stream; of the control byte in use, `left` bits are left, in
the low bits of `flags`. -/
def run (limit : Option Int) : (flags left : Nat) → Expander → Bytes → Expander
  | _, _, s, [] => s
  | _, 0, s, control :: rest =>
    if s.isFull limit then s else run limit control.toNat groupSize s rest
  | flags, left + 1, s, b :: rest =>
    if s.isFull limit then s
    else if flags % 2 = 0 then run limit (flags / 2) left (s.emit b) rest
    else
      match rest with
      | [] => s
      | high :: rest =>
        run limit (flags / 2) left (s.copy limit (lengthOf high) (slotOf b high)) rest

end Expander

/-- The window at first. -/
def blankWindow : Vector UInt8 windowSize := Vector.replicate windowSize fill

/-- Expands a stream, up to `limit` bytes if one is given. -/
def expand (limit : Option Int) (stream : Bytes) : Bytes :=
  (Expander.run limit 0 0 (.start blankWindow) stream).output.toList

/-! ## Parts of the data -/

/-- Where a part ends that starts at `start`: `length` bytes behind it, or at
the end of the data. -/
def stop (data : Bytes) (start : Int) : (length : Option Int) → Int
  | none => data.length
  | some length => min data.length (start + length)

/-- The bytes at the positions from `start` up to `stop`.  Positions below
zero count from the end of the data, so a part that starts there goes on with
the first byte behind the last. -/
def wrapped (data : Bytes) (start stop : Int) : Bytes :=
  if start < 0 then
    (data.drop (start + data.length).toNat).take (min stop 0 - start).toNat ++
      data.take stop.toNat
  else (data.take stop.toNat).drop start.toNat

/-- Whether the output is full before anything is read. -/
def wantsNothing (limit : Option Int) : Bool := (Expander.start blankWindow).isFull limit

/-- Expands a part of the data.  It must not start further before the data
than there are bytes, unless nothing is read of it. -/
def expandRange (data : Bytes) (start : Int) (length limit : Option Int) : Except Error Bytes :=
  let stop := stop data start length
  if start < stop ∧ start + data.length < 0 ∧ !wantsNothing limit then
    .error (if Bytes.isCountable start then .streamOutside else .positionRange)
  else .ok (expand limit (wrapped data start stop))

end Scenario.Compression
