import Scenario.Session

/-!
# Scenario.Note

What the tools say about their work, as log lines of a level and an origin.
Notes are values like any other: the operations themselves say nothing, and
what there is to say about them is computed from what went in and came out.
-/

namespace Scenario

/-- How important a note is. -/
inductive Level where
  | debug
  | info
  | warning
  | error
  deriving DecidableEq, Repr

/-- Something to tell about an operation. -/
inductive Note where
  | labelRemainder (length rest : Nat)
  | loaded (image : Image)
  | padding (address count : Int)
  | decodedCode (decoded : Decoded)
  | decodedFile (name : String) (decoded : Decoded)
  | wrapped (placement : Placement)
  | exporting (kept total : Nat)
  | poolReplaced (before after : Nat)
  | revised (report : Report)
  | wroteScript (path : String) (size : Nat)
  | repeatedAddress (record : Sheet.Record)
  | readSheet (count : Nat) (path : String)
  | wroteSheet (path : String)
  | extracted (count : Nat) (path : String)
  | packed (count : Nat) (path : String) (size : Nat)
  | fileFailed (name : String) (cause : Error)
  | someFailed (count total : Nat)
  | failed (cause : Error)

namespace Level

/-- The name of a level. -/
def name : Level → String
  | debug => "DEBUG"
  | info => "INFO"
  | warning => "WARNING"
  | error => "ERROR"

/-- Whether a level is shown: debugging notes only on request. -/
def isShown (verbose : Bool) : Level → Bool
  | debug => verbose
  | _ => true

/-- Whether a level is that of a warning or above. -/
def isWarning : Level → Bool
  | warning | error => true
  | debug | info => false

end Level

namespace Note

open Numeral

/-- The level of a note. -/
def level : Note → Level
  | labelRemainder .. | wrapped _ | someFailed .. => .warning
  | loaded _ | padding .. | decodedCode _ | exporting .. | poolReplaced ..
  | repeatedAddress _ => .debug
  | decodedFile .. | revised _ | wroteScript .. | readSheet .. | wroteSheet _ | extracted ..
  | packed .. => .info
  | fileFailed .. | failed _ => .error

/-- The part of the tools that a note comes from. -/
def origin : Note → String
  | labelRemainder .. | loaded _ | poolReplaced .. | wroteScript .. => "ailscript.image"
  | padding .. | decodedCode _ => "ailscript.decoder"
  | decodedFile .. => "ailscript.script"
  | wrapped _ => "ailscript.pool"
  | exporting .. | revised _ => "ailscript.importer"
  | repeatedAddress _ | readSheet .. | wroteSheet _ => "ailscript.translation"
  | extracted .. | packed .. => "ailscript.archive"
  | fileFailed .. | someFailed .. | failed _ => "ailscript.cli"

/-- Singular or plural of "entry". -/
def entryWord (count : Nat) : String := if count = 1 then "entry" else "entries"

/-- An error as a log shows it.  The name of a version is quoted as a
whole. -/
def errorText : Error → String
  | .unknownVersion key => Text.quoted (Error.unknownVersion key).message
  | e => e.message

/-- Wording of a note. -/
def message : Note → String
  | labelRemainder length rest =>
    "Label section length " ++ decimal length ++ " is not a multiple of 4; trailing " ++
      decimal rest ++ " byte(s) belong to code"
  | loaded image =>
    "Loaded script: " ++ decimal image.labels.length ++ " label(s), code 0x" ++
      hex 0 image.code.length ++ " bytes at 0x" ++ hex 0 image.codeBase ++ ", pool 0x" ++
      hex 0 image.pool.length ++ " bytes"
  | padding address count =>
    "Stopping at " ++ hex 8 address ++ ": " ++ decimal count ++ " trailing zero byte(s)"
  | decodedCode decoded =>
    "Decoded " ++ decimal decoded.instructions.length ++ " instruction(s) and " ++
      decimal decoded.stringRefs.length ++ " string reference(s) with " ++ decoded.version
  | decodedFile name decoded =>
    "Decoded " ++ name ++ ": " ++ decimal decoded.instructions.length ++ " instruction(s), " ++
      decimal decoded.stringRefs.length ++ " string reference(s)"
  | wrapped placement =>
    "String offset 0x" ++ hex 0 placement.offset ++ " for reference " ++
      hex 8 placement.reference ++ " wraps to 0x" ++ hex 4 placement.field
  | exporting kept total =>
    "Exporting " ++ decimal kept ++ " of " ++ decimal total ++ " string reference(s)"
  | poolReplaced before after =>
    "Replacing string pool (" ++ decimal before ++ " -> " ++ decimal after ++ " bytes)"
  | revised report =>
    report.mode.name ++ " import: patched " ++ decimal report.patched ++ " of " ++
      decimal report.references ++ " reference(s), pool 0x" ++ hex 0 report.poolBefore ++
      " -> 0x" ++ hex 0 report.poolAfter ++ " bytes"
  | wroteScript path size => "Wrote " ++ path ++ " (" ++ decimal size ++ " bytes)"
  | repeatedAddress record =>
    "Address " ++ hex 8 record.address ++ " appears again on line " ++ decimal record.line ++
      "; keeping the later text"
  | readSheet count path =>
    "Loaded " ++ decimal count ++ " translation " ++ entryWord count ++ " from " ++ path
  | wroteSheet path => "Wrote translation file " ++ path
  | extracted count path =>
    "Extracted " ++ decimal count ++ " " ++ entryWord count ++ " from " ++ path
  | packed count path size =>
    "Packed " ++ decimal count ++ " file(s) into " ++ path ++ " (" ++ decimal size ++ " bytes)"
  | fileFailed name cause => name ++ ": " ++ errorText cause
  | someFailed count total =>
    decimal count ++ " of " ++ decimal total ++ " file(s) failed"
  | failed cause => errorText cause

/-- A note as lines of the log, of which there are several if a name in it
has line feeds. -/
def lines (n : Note) : List String :=
  (n.level.name ++ " " ++ n.origin ++ ": " ++ n.message).splitOn "\n"

/-- The wordings of the warnings among some notes. -/
def warnings (notes : List Note) : List String :=
  (notes.filter fun n => n.level.isWarning).map message

/-! ## What there is to say -/

/-- On splitting a file into sections. -/
def ofLoad (data : Bytes) : List Note :=
  (match Image.labelRemainder? data with
    | some (length, rest) => [labelRemainder length rest]
    | none => []) ++
  (match Image.load data with
    | .ok image => [loaded image]
    | .error _ => [])

/-- On decoding the code of an image. -/
def ofDecode (image : Image) (decoded : Decoded) : List Note :=
  (if decoded.consumed < image.code.length then
    [padding (image.absolute decoded.consumed) (image.code.length - decoded.consumed)]
  else []) ++ [decodedCode decoded]

/-- On strings that were placed in a pool. -/
def ofPlacements (placements : List Placement) : List Note :=
  (placements.filter Placement.wraps).map wrapped

/-- On a revision. -/
def ofRevision (placements : List Placement) (result : Except Error Report) : List Note :=
  ofPlacements placements ++
  (match result with
    | .ok report => [poolReplaced report.poolBefore report.poolAfter, revised report]
    | .error _ => [])

/-- On reading the records of a sheet. -/
def ofRecords (records : List Sheet.Record) : List Note :=
  (Sheet.repeats records).map repeatedAddress

end Note

end Scenario
