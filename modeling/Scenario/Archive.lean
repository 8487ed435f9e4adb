import Scenario.Compression.Compress
import Scenario.Compression.Expand

/-!
# Scenario.Archive

Archives of numbered files:

```
u32 count
u32 length of each entry, count of them
entries, each empty or
    u16 flags, u32 unpacked length, payload
```

Bit 0 of the flags marks a compressed payload.  Pictures and sounds that are
compressed already are stored as they are.  Entries have no names; they are
known by their index.
-/

namespace Scenario.Archive

/-- Length of an entry's header. -/
def entryHeaderSize : Nat := 6

/-- An archive has fewer entries than this. -/
def maxEntries : Nat := 400000

/-- First four bytes, as a number, of payloads that are not compressed: PNG
and OGG files. -/
def storedSignatures : List Nat := [0x474E5089, 0x5367674F]

/-- An entry of an archive's table.  Its fields are not restricted to what a
table can hold. -/
structure Entry where
  index : Int
  offset : Int
  length : Int
  flags : Int
  unpackedLength : Int
  deriving DecidableEq, Repr

namespace Entry

/-- The name of an entry as a file. -/
def name (e : Entry) : String := Numeral.decimalPadded 5 e.index

/-- Whether the payload is compressed. -/
def isCompressed (e : Entry) : Bool := e.flags % 2 = 1

end Entry

/-! ## Reading -/

/-- The 32-bit fields of a table. -/
def fieldsFrom (read : List Nat) : Bytes → List Nat
  | a :: b :: c :: d :: rest => fieldsFrom (Bytes.toNat [a, b, c, d] :: read) rest
  | _ => read.reverse

/-- The entries whose lengths are given, the first with its index and offset.
`size` is the length of the archive, `body` the data from `offset` on, and
`read` holds the entries before, newest first. -/
def entriesFrom (size : Nat) (read : List Entry) :
    (index offset : Nat) → (body : Bytes) → List Nat → Except Error (List Entry)
  | _, _, _, [] => .ok read.reverse
  | index, offset, body, length :: rest =>
    if size < offset + length then .error (.archive (.entryTooLong index))
    else if length = 0 then
      entriesFrom size (⟨index, offset, 0, 0, 0⟩ :: read) (index + 1) offset body rest
    else if length < entryHeaderSize then .error (.archive (.entryTooShort index))
    else
      entriesFrom size (⟨index, offset, length, body.field 0 2, body.field 2 4⟩ :: read)
        (index + 1) (offset + length) (body.drop length) rest

/-- The table of an archive. -/
def readIndex (data : Bytes) : Except Error (List Entry) :=
  match data.readUInt? 0 4 with
  | none => .error (.archive (.implausibleCount none))
  | some count =>
    let start := 4 + 4 * count
    if count = 0 ∨ maxEntries ≤ count then .error (.archive (.implausibleCount (some count)))
    else if data.length < start then .error (.archive .tableTooLong)
    else
      entriesFrom data.length [] 0 start (data.drop start)
        (fieldsFrom [] ((data.drop 4).take (4 * count)))

/-- The unpacked payload of an entry. -/
def payload (data : Bytes) (e : Entry) : Except Error Bytes :=
  if e.length = 0 then .ok []
  else
    let start := e.offset + entryHeaderSize
    let size := e.length - entryHeaderSize
    if e.isCompressed then
      Compression.expandRange data start (some size) (some e.unpackedLength)
    else .ok (data.slice start (start + size))

/-- The entries of an archive with their payloads. -/
def readAll (data : Bytes) : Except Error (List (Entry × Bytes)) := do
  let entries ← readIndex data
  entries.mapM fun e => do return (e, ← payload data e)

/-! ## Writing -/

/-- Whether a payload is worth compressing. -/
def worthCompressing (data : Bytes) : Bool :=
  match data.readUInt? 0 4 with
  | some signature => !storedSignatures.contains signature
  | none => true

/-- The body of an entry; `compressed` overrides what the payload suggests. -/
def packEntry (data : Bytes) (compressed : Option Bool) : Except Error Bytes :=
  if data.isEmpty then .ok []
  else do
    let size ← Bytes.pack 4 data.length
    if compressed.getD (worthCompressing data) then
      return Bytes.ofNat 2 1 ++ size ++ Compression.compress data
    else return Bytes.ofNat 2 0 ++ size ++ data

/-- The archive of payloads in index order. -/
def build (payloads : List Bytes) : Except Error Bytes :=
  if payloads.isEmpty then .error (.archive (.nothingToPack none))
  else do
    let bodies ← payloads.mapM fun data => packEntry data none
    let count ← Bytes.pack 4 bodies.length
    let lengths ← bodies.mapM fun body => Bytes.pack 4 body.length
    return count ++ lengths.flatten ++ bodies.flatten

end Scenario.Archive
