import Scenario.Encoding.Cp932
import Scenario.Encoding.Registry
import Scenario.Encoding.Utf8

/-!
# Scenario.Encoding

The encodings in which a script can hold its texts, and their names.

1. A name may be given in any spelling: case does not matter, and a run of
   characters other than ASCII letters, digits and full stops counts as one
   underscore, or as nothing at either end.  Only a null character is
   refused.
2. A name is looked up when text is converted, not before, so a name without
   a codec harms nobody who converts nothing.
3. Four codecs are held here: cp932, UTF-8, ASCII and Latin-1.  They decode
   everything, bytes without a meaning becoming replacement characters, and
   encode every text whose characters all have a code.
4. The codecs of the other text encodings are a parameter, `Codecs`, of which
   nothing is assumed: such a codec may be absent, may refuse bytes, and may
   refuse a text for another reason than a character without a code.
-/

namespace Scenario

/-- Why a codec has no bytes for a text. -/
inductive EncodeFault where
  /-- A character has no code. -/
  | unencodable
  /-- The codec refuses the text for another reason. -/
  | refused (message : String)
  deriving DecidableEq, Repr

/-- The codec of an encoding. -/
structure Encoding where
  /-- Text of a byte string, or the wording of a refusal. -/
  decode : Bytes → Except String String
  /-- Bytes of a text. -/
  encode : String → Except EncodeFault Bytes
  /-- The characters that stand for lone surrogates in the texts of this
  codec.  UTF-8 cannot hold those. -/
  isSurrogate : Char → Bool := fun _ => false

/-- The codecs of the text encodings that are not held here, by canonical
name. -/
class Codecs where
  find? : (canonical : String) → Option Encoding

/-- No codecs but those that are held. -/
instance (priority := low) Codecs.heldOnly : Codecs := ⟨fun _ => none⟩

namespace Encoding

/-! ## Names -/

/-- Whether a character is kept in the normal form of a name. -/
def isNameChar (c : Char) : Bool := c.isAlphanum || c = '.'

/-- Words of a name: its maximal runs of kept characters, in lower case.
`word` is the run in progress, newest character first. -/
def nameWords (word : List Char) : List Char → List (List Char)
  | [] => if word.isEmpty then [] else [word.reverse]
  | c :: cs =>
    if isNameChar c then nameWords (c.toLower :: word) cs
    else if word.isEmpty then nameWords [] cs
    else word.reverse :: nameWords [] cs

/-- Normal form of a name. -/
def normalName (name : String) : String :=
  String.ofList (['_'].intercalate (nameWords [] name.toList))

/-- Canonical name of the encoding that a name stands for. -/
def canonicalName (name : String) : Except Error String :=
  if name.toList.contains '\x00' then .error .nullInName
  else
    match registered? (normalName name) with
    | some r => .ok r.canonical
    | none => .error (.unknownEncoding name)

/-- Greatest number of UTF-8 bytes of a name that a message on its kind
shows. -/
def maxShownName : Nat := 400

/-- A name cut to its first bytes; a character that is cut in two is
replaced. -/
def shownName (name : String) : String :=
  String.ofList (Utf8.decode ((Utf8.encode name).take maxShownName))

/-- Canonical names of the encodings of other things than text. -/
def nonTextual : List String := ["base64", "bz2", "hex", "quopri", "rot-13", "uu", "zlib"]

/-- The encoding of a script unless another is asked for. -/
def defaultName : String := "cp932"

/-! ## Codecs -/

/-- One byte for each character, all below `bound`. -/
def encodeBelow? (bound : Nat) (s : String) : Option Bytes :=
  if s.toList.all fun c => c.toNat < bound then some (s.toList.map fun c => UInt8.ofNat c.toNat)
  else none

/-- A codec that decodes everything, and encodes the texts for which there
are bytes. -/
def lenient (decode : Bytes → List Char) (encode? : String → Option Bytes) : Encoding where
  decode data := .ok (String.ofList (decode data))
  encode s :=
    match encode? s with
    | some raw => .ok raw
    | none => .error .unencodable

/-- The Japanese encoding of scripts. -/
def cp932 : Encoding := lenient Cp932.decode fun s => Cp932.encode? s.toList

/-- UTF-8. -/
def utf8 : Encoding := lenient Utf8.decode fun s => some (Utf8.encode s)

/-- ASCII. -/
def ascii : Encoding :=
  lenient (fun data => data.map fun b => if b < 0x80 then Char.ofNat b.toNat else replacement)
    (encodeBelow? 0x80)

/-- Latin-1, in which every byte is a character. -/
def latin1 : Encoding :=
  lenient (fun data => data.map fun b => Char.ofNat b.toNat) (encodeBelow? 0x100)

/-- The codec of a name for a conversion. -/
def ofName [Codecs] (way : Conversion) (name : String) : Except Error Encoding := do
  match way, ← canonicalName name with
  | _, "cp932" => .ok cp932
  | _, "utf-8" => .ok utf8
  | _, "ascii" => .ok ascii
  | _, "iso8859-1" => .ok latin1
  | _, "undefined" => .error (.codecFailed way name "undefined encoding")
  | .decoding, "idna" => .error (.codecFailed way name "Unsupported error handling replace")
  | _, canonical =>
    if nonTextual.contains canonical then .error (.noTextEncoding way (shownName name))
    else
      match Codecs.find? canonical with
      | some codec => .ok codec
      | none => .error (.unknownEncoding name)

/-- Whether UTF-8 can hold a text that was read in the encoding of that
name. -/
def isWritable [Codecs] (encoding text : String) : Bool :=
  match ofName .decoding encoding with
  | .ok codec => text.toList.all fun c => !codec.isSurrogate c
  | .error _ => true

end Encoding

end Scenario
