import Scenario.Text.Numeral
import Scenario.Text.Quoted

/-!
# Scenario.Error

Why an operation of this library fails.  Every cause is a constructor that
carries what is known about it; the wording is `Error.message` and nothing
else depends on it.

Causes that lie in a script, a sheet or an archive (`Error.isContentFault`)
are told apart from the rest: a run over many files goes on after one of
them, and stops at any other.
-/

namespace Scenario

/-- The sections of a script file whose length can be checked. -/
inductive Section where
  | header
  | label
  | code
  deriving DecidableEq, Repr

/-- The tables in which a code byte is looked up. -/
inductive CodeTable where
  | opcode
  | function
  deriving DecidableEq, Repr

/-- Why reading code stops; `address` is the file offset of the byte or
field at fault. -/
inductive DecodeError where
  /-- The code ends `wanted` bytes before the field at `address` does. -/
  | unexpectedEnd (address wanted : Int)
  /-- The byte has no entry in its table. -/
  | unknownCode (table : CodeTable) (byte : UInt8) (address : Int)
  /-- The byte is no operator of an expression. -/
  | unknownOperator (byte : UInt8) (address : Int)
  /-- A string reference points outside the pool; the address is absent when
  a pool is read on its own. -/
  | stringOffset (offset : Int) (poolLength : Nat) (address : Option Int)
  deriving DecidableEq, Repr

/-- Why an archive cannot be read or made. -/
inductive ArchiveError where
  /-- The entry count is absent or outside the accepted range. -/
  | implausibleCount (count : Option Nat)
  | tableTooLong
  | entryTooLong (index : Nat)
  | entryTooShort (index : Nat)
  /-- There is nothing to pack, in the directory if one is named. -/
  | nothingToPack (directory : Option String)
  | missingFile (index : Nat) (directory : String)
  deriving DecidableEq, Repr

/-- Why the file tree refuses an operation. -/
inductive FileFault where
  | notFound
  | exists
  | notDirectory
  | isDirectory
  | nameTooLong
  /-- The file is locked. -/
  | denied
  deriving DecidableEq, Repr

/-- Why an operation on files fails; the path is the one asked for. -/
inductive FileError where
  | refused (fault : FileFault) (path : String)
  | noScript (path : String)
  | noSheet (path : String)
  /-- A path holds a null character, so there is no such path. -/
  | nullInPath
  /-- A directory would have more new ones above it than can be made. -/
  | tooDeep
  /-- Standard output cannot take a line. -/
  | unprintable (line : String)
  /-- A text holds a lone surrogate, and UTF-8 has none. -/
  | unwritable
  deriving DecidableEq, Repr

/-- A format version as the caller names it. -/
inductive VersionKey where
  | text (name : String)
  | number (value : Int)
  /-- The name was left blank. -/
  | blank
  deriving DecidableEq, Repr

/-- What an argument that was left blank was needed for. -/
inductive BlankUse where
  | path
  /-- The directory above a path. -/
  | above
  /-- A directory to make. -/
  | directory
  | encoding
  deriving DecidableEq, Repr

/-- Which way text is converted. -/
inductive Conversion where
  | decoding
  | encoding
  deriving DecidableEq, Repr

/-- Every cause of failure. -/
inductive Error where
  /-- A value does not fit a field of `bits` bits. -/
  | fieldRange (bits : Nat) (value : Int)
  /-- A 16-bit field would lie outside the buffer that is patched. -/
  | patchOutside (offset : Int) (length : Nat)
  /-- An opcode or function code is no byte. -/
  | codeRange
  /-- An operator selector, a case count or a case number is no byte. -/
  | byteRange
  | rawTooLarge
  | rawNegative
  /-- An uninterpreted field has fewer than no bytes. -/
  | widthNegative
  /-- An uninterpreted field has more bytes than can be counted. -/
  | widthRange
  /-- An uninterpreted field has more bytes than a byte string can have. -/
  | widthTooLong
  /-- A field or a numeral is larger than any memory. -/
  | outOfMemory
  /-- A numeral would have fewer than no digits. -/
  | digitsNegative (count : Int)
  /-- A numeral would have more digits than can be counted. -/
  | digitsRange
  /-- An operator selector would be read as a load or as the end. -/
  | operatorSelector (flag : Int)
  | operatorCode (code : Int)
  | expressionEnded
  /-- An operand of no known kind has no written form. -/
  | unsupportedOperand
  /-- An operand of no known kind has no size. -/
  | unsizedOperand
  | headerSize
  | signature (value : Nat)
  | truncated (part : Section) (expected actual : Nat)
  | decode (cause : DecodeError)
  | poolOverflow (offset : Nat) (reference : Int)
  | unencodable (text encoding : String) (reference : Int)
  | unknownEncoding (name : String)
  /-- The name of an encoding holds a null character. -/
  | nullInName
  /-- A name stands for an encoding of something else than text. -/
  | noTextEncoding (way : Conversion) (name : String)
  /-- A codec refuses the bytes or the text it was given. -/
  | refusingEncoding (way : Conversion) (message : String)
  | unknownVersion (key : VersionKey)
  | unknownKind (letter : Char) (letters : String)
  | functionCode (code : Int)
  | malformedLine (number : Nat) (line : String)
  | referenceOutside (reference : Int) (length : Nat)
  | unknownMode (name : String)
  | archive (cause : ArchiveError)
  /-- A compressed stream would start before the data. -/
  | streamOutside
  /-- A compressed stream would start at a position that cannot be counted. -/
  | positionRange
  | file (cause : FileError)
  /-- An argument was left blank where it is needed. -/
  | blank (use : BlankUse)
  /-- A sheet file is not UTF-8. -/
  | undecodableSheet
  deriving DecidableEq, Repr

open Numeral

/-- The name of a section in messages. -/
def Section.name : Section → String
  | .header => "header"
  | .label => "label"
  | .code => "code"

/-- What a table holds, in messages. -/
def CodeTable.label : CodeTable → String
  | .opcode => "opcode"
  | .function => "function code"

/-- A version key as messages show it. -/
def VersionKey.shown : VersionKey → String
  | .text name => Text.quoted name
  | .number value => decimal value
  | .blank => "[]"

/-- File offset at which reading stopped, `-1` when there is none. -/
def DecodeError.address : DecodeError → Int
  | .unexpectedEnd address _ => address
  | .unknownCode _ _ address => address
  | .unknownOperator _ address => address
  | .stringOffset _ _ address => address.getD (-1)

/-- Wording of a decoding failure. -/
def DecodeError.message : DecodeError → String
  | .unexpectedEnd address wanted =>
    "Unexpected end of code at " ++ hex 8 address ++ " (needed " ++ decimal wanted ++
      " more byte(s))"
  | .unknownCode table byte address =>
    "Unexpected " ++ table.label ++ " " ++ hex 2 byte.toNat ++ " at " ++ hex 8 address
  | .unknownOperator byte address =>
    "Unexpected operator " ++ hex 2 byte.toNat ++ " at " ++ hex 8 address
  | .stringOffset offset poolLength address =>
    "Unexpected string offset 0x" ++ hex 4 offset ++
      (match address with
        | some a => " at " ++ hex 8 a
        | none => "") ++
      " (pool holds " ++ decimal poolLength ++ " bytes)"

/-- Wording of an archive failure. -/
def ArchiveError.message : ArchiveError → String
  | .implausibleCount (some count) => "Implausible entry count " ++ decimal count
  | .implausibleCount none => "Implausible entry count None"
  | .tableTooLong => "Entry table runs past the end of the archive"
  | .entryTooLong index =>
    "Entry " ++ decimalPadded 5 index ++ " runs past the end of the archive"
  | .entryTooShort index => "Entry " ++ decimalPadded 5 index ++ " is shorter than its header"
  | .nothingToPack none => "No files were found to pack"
  | .nothingToPack (some directory) => "No files were found to pack in " ++ directory
  | .missingFile index directory =>
    "Missing file \"" ++ decimalPadded 5 index ++ "\" in directory \"" ++ directory ++ "\""

/-- Number and wording of a refusal. -/
def FileFault.message : FileFault → String
  | .notFound => "[Errno 2] No such file or directory"
  | .exists => "[Errno 17] File exists"
  | .notDirectory => "[Errno 20] Not a directory"
  | .isDirectory => "[Errno 21] Is a directory"
  | .nameTooLong => "[Errno 36] File name too long"
  | .denied => "[Errno 13] Permission denied"

/-- Wording of a file failure. -/
def FileError.message : FileError → String
  | .refused fault path => fault.message ++ ": " ++ Text.quoted path
  | .noScript path => "Script not found: " ++ path
  | .noSheet path => "Translation file not found: " ++ path
  | .nullInPath => "embedded null byte"
  | .tooDeep => "maximum recursion depth exceeded while calling a Python object"
  | .unprintable line => "standard output cannot encode " ++ Text.quoted line
  | .unwritable => "surrogates not allowed"

/-- Wording of an argument that is missed. -/
def BlankUse.message : BlankUse → String
  | .path => "expected str, bytes or os.PathLike object, not list"
  | .above => "'list' object has no attribute 'parent'"
  | .directory => "'list' object has no attribute 'mkdir'"
  | .encoding => "lookup() argument must be str, not list"

/-- The name of a conversion. -/
def Conversion.name : Conversion → String
  | .decoding => "decoding"
  | .encoding => "encoding"

/-- What converts other things than text. -/
def Conversion.function : Conversion → String
  | .decoding => "codecs.decode()"
  | .encoding => "codecs.encode()"

/-- The failure of an encoding that refuses everything. -/
def Error.codecFailed (way : Conversion) (name reason : String) : Error :=
  .refusingEncoding way
    (way.name ++ " with '" ++ name ++ "' codec failed (UnicodeError: " ++ reason ++ ")")

/-- Wording of every failure. -/
def Error.message : Error → String
  | .fieldRange bits value =>
    "value " ++ decimal value ++ " does not fit in " ++ decimal bits ++ " bits"
  | .patchOutside offset length =>
    "cannot patch u16 at " ++ hex 8 offset ++ "; buffer holds " ++ decimal length ++ " bytes"
  | .codeRange => "bytes must be in range(0, 256)"
  | .byteRange => "byte must be in range(0, 256)"
  | .rawTooLarge => "int too big to convert"
  | .rawNegative => "can't convert negative int to unsigned"
  | .widthNegative => "length argument must be non-negative"
  | .widthRange => "Python int too large to convert to C ssize_t"
  | .widthTooLong => "byte string is too large"
  | .outOfMemory => ""
  | .digitsNegative count =>
    "Invalid format specifier '0" ++ decimal count ++ "X' for object of type 'int'"
  | .digitsRange => "Too many decimal digits in format string"
  | .operatorSelector flag => "operator selector cannot be 0x" ++ hex 2 flag
  | .operatorCode code => "unknown operator code 0x" ++ hex 2 code
  | .expressionEnded => "expression already terminated"
  | .unsupportedOperand => "Unsupported operand type: <class 'NoneType'>"
  | .unsizedOperand => "'NoneType' object has no attribute 'size'"
  | .headerSize => "image header must be exactly 12 bytes"
  | .signature value =>
    "Invalid signature 0x" ++ hex 8 value ++ "; this may not be a valid AIL script file"
  | .truncated part expected actual =>
    "Truncated " ++ part.name ++ " section: expected " ++ decimal expected ++ " bytes, found " ++
      decimal actual
  | .decode cause => cause.message
  | .poolOverflow offset reference =>
    "String offset 0x" ++ hex 0 offset ++ " for reference " ++ hex 8 reference ++
      " exceeds 0xFFFF"
  | .unencodable text encoding reference =>
    "Text " ++ Text.quoted text ++ " for reference " ++ hex 8 reference ++
      " cannot be encoded as " ++ encoding
  | .unknownEncoding name => "unknown encoding: " ++ name
  | .nullInName => "embedded null character"
  | .noTextEncoding way name =>
    "'" ++ name ++ "' is not a text encoding; use " ++ way.function ++
      " to handle arbitrary codecs"
  | .refusingEncoding _ message => message
  | .unknownVersion key => "Unknown script version: " ++ key.shown
  | .unknownKind letter letters =>
    "Unknown operand kind " ++ Text.quoted (String.ofList [letter]) ++ " in signature " ++
      Text.quoted letters
  | .functionCode code => "function code " ++ decimal code ++ " out of range"
  | .malformedLine number line =>
    "line " ++ decimal number ++ ": malformed translation line " ++ Text.quoted line
  | .referenceOutside reference length =>
    "string reference " ++ hex 8 reference ++ " lies outside the code buffer (" ++
      decimal length ++ " bytes)"
  | .unknownMode name =>
    "Unknown import mode " ++ Text.quoted name ++ "; expected one of ('append', 'rebuild')"
  | .archive cause => cause.message
  | .streamOutside => "index out of range"
  | .positionRange => "cannot fit 'int' into an index-sized integer"
  | .file cause => cause.message
  | .blank use => use.message
  | .undecodableSheet => "the sheet is not UTF-8"

/-- Whether the cause lies in the content of a script, sheet or archive. -/
def Error.isContentFault : Error → Bool
  | .signature _ | .truncated .. | .decode _ | .poolOverflow .. | .unencodable ..
  | .malformedLine .. | .archive _ => true
  | _ => false

end Scenario
