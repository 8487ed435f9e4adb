import Scenario.Bytes

/-!
# Scenario.Image

The sections of a script file:

```
u32 signature (zero)
u16 length of the label section
u16 length of the code
4 reserved bytes
label pairs (u16, u16), one for every 4 whole bytes of the label section
code
string pool, up to the end of the file
```

The length of the pool is not stored; it is what remains of the file.  When
the length of the label section is not a multiple of 4, the bytes behind the
last whole pair belong to the code.  Writing puts the header back as it was
read, so an image that was not changed gives its file again.
-/

namespace Scenario

/-- One pair of the label section. -/
structure Label where
  first : Int
  second : Int
  deriving DecidableEq, Repr

/-- The four sections of a script file. -/
structure Image where
  header : Bytes
  labels : List Label
  code : Bytes
  /-- File offset of the first code byte. -/
  codeBase : Int
  pool : Bytes
  deriving DecidableEq, Repr

namespace Image

/-- Length of the header. -/
def headerSize : Nat := 12

/-- Offset of the label section's length in the header. -/
def labelLengthOffset : Nat := 4

/-- Offset of the code's length in the header. -/
def codeLengthOffset : Nat := 6

/-- Length of the label section as the header gives it, zero when the header
is too short to hold it. -/
def labelLength (image : Image) : Nat := (image.header.readUInt? labelLengthOffset 2).getD 0

/-- Length of the code as the header gives it, zero when the header is too
short to hold it. -/
def codeLength (image : Image) : Nat := (image.header.readUInt? codeLengthOffset 2).getD 0

/-- Offset in the code of a file offset. -/
def codeOffset (image : Image) (address : Int) : Int := address - image.codeBase

/-- File offset of an offset in the code. -/
def absolute (image : Image) (offset : Int) : Int := image.codeBase + offset

/-! ## Loading -/

/-- The label pairs of a label section. -/
def readLabels : Bytes → List Label
  | a :: b :: c :: d :: rest => ⟨Bytes.word a b, Bytes.word c d⟩ :: readLabels rest
  | _ => []

/-- Splits a file into its sections. -/
def load (data : Bytes) : Except Error Image :=
  let header : Bytes := data.take headerSize
  let body := data.drop headerSize
  let labelBytes := 4 * (header.field labelLengthOffset 2 / 4)
  let codeBytes := header.field codeLengthOffset 2
  let rest := body.drop labelBytes
  if header.length < headerSize then .error (.truncated .header headerSize data.length)
  else if header.field 0 4 ≠ 0 then .error (.signature (header.field 0 4))
  else if body.length < labelBytes then .error (.truncated .label labelBytes body.length)
  else if rest.length < codeBytes then .error (.truncated .code codeBytes rest.length)
  else .ok
    { header
      labels := readLabels (body.take labelBytes)
      code := rest.take codeBytes
      codeBase := headerSize + labelBytes
      pool := rest.drop codeBytes }

/-- Length of the label section and of what follows its last whole pair,
when a file has a sound header and such bytes. -/
def labelRemainder? (data : Bytes) : Option (Nat × Nat) :=
  let header : Bytes := data.take headerSize
  let length := header.field labelLengthOffset 2
  if headerSize ≤ header.length ∧ header.field 0 4 = 0 ∧ length % 4 ≠ 0 then
    some (length, length % 4)
  else none

/-! ## Writing -/

/-- A label pair as it is stored. -/
def writeLabel (label : Label) : Except Error Bytes := do
  let first ← Bytes.pack 2 label.first
  let second ← Bytes.pack 2 label.second
  return first ++ second

/-- Puts the sections together again. -/
def write (image : Image) : Except Error Bytes :=
  if image.header.length ≠ headerSize then .error .headerSize
  else do
    let labels ← image.labels.mapM writeLabel
    return image.header ++ labels.flatten ++ image.code ++ image.pool

end Image

end Scenario
