import Scenario.Archive
import Scenario.Archive.Numbering
import Scenario.Command.Arguments
import Scenario.Note

/-!
# Scenario.Command

Carrying commands out on a tree of files.

A command changes the tree, says notes and prints lines as it goes.  Where it
fails, what it has done until then stays.  Failures end in a note and the
exit status 1.  Only these are passed on: a sheet that is not UTF-8, a codec
that refuses what it is given, a text that UTF-8 cannot hold, a line that
standard output cannot take, a value without a place in its format, an
argument left blank where it is needed, a null character in a path or in the
name of an encoding, and directories that are too deep.

A listing or a sheet can be made for every file of a directory at once.
Then a fault in one file is noted and the others are still worked on.
-/

namespace Scenario

/-- The files, and what has been said and printed, the newest first. -/
structure World where
  files : Tree
  notes : List Note
  printed : List String

/-- A step of a command. -/
abbrev Run := EStateM Error World

namespace Run

variable [Codecs] [Host]

/-- Says something. -/
def say (notes : List Note) : Run Unit := fun w =>
  .ok () { w with notes := notes.reverse ++ w.notes }

/-- Prints a line, if standard output can take it. -/
def print (line : String) : Run Unit := fun w =>
  if Host.prints line then .ok () { w with printed := line :: w.printed }
  else .error (.file (.unprintable line)) w

/-- Fails or goes on. -/
def check {α : Type} (r : Except Error α) : Run α := fun w =>
  match r with
  | .ok a => .ok a w
  | .error e => .error e w

/-- Fails or goes on with a result of the tree. -/
def ask {α : Type} (f : Tree → Except FileError α) : Run α := fun w =>
  match f w.files with
  | .ok a => .ok a w
  | .error e => .error (.file e) w

/-- Changes the tree.  The world is taken apart, so that nothing else holds on
to the tree while it changes. -/
def change (f : Tree → Tree × Except FileError Unit) : Run Unit := fun ⟨files, notes, printed⟩ =>
  match f files with
  | (files, .ok ()) => .ok () ⟨files, notes, printed⟩
  | (files, .error e) => .error (.file e) ⟨files, notes, printed⟩

/-- Does a step and gives its failure as a value. -/
def attempt {α : Type} (r : Run α) : Run (Except Error α) := fun w =>
  match r w with
  | .ok a w => .ok (.ok a) w
  | .error e w => .ok (.error e) w

/-! ## Files -/

/-- The contents of a file. -/
def readFile (p : Path) : Run Bytes := ask fun t => t.readFile p

/-- Writes a file in a directory that exists. -/
def writeFile (p : Path) (data : Bytes) : Run Unit := do
  let l ← ask fun t => t.target p
  change fun t => (t.set l (.file data), .ok ())

/-- Makes a directory. -/
def makeDirectory (p : Path) : Run Unit := change fun t => t.makeDirectory p

/-- Writes a file, and makes the directories above it. -/
def writeBelow (p : Path) (data : Bytes) : Run Unit := do
  makeDirectory p.parent
  writeFile p data

/-- Writes a text as UTF-8; `encoding` is that of the strings in it.  Where
UTF-8 cannot hold the text, the file is left empty. -/
def writeText (encoding : String) (p : Path) (text : String) : Run Unit :=
  if Encoding.isWritable encoding text then writeFile p (Encoding.Utf8.encode text)
  else do
    writeFile p []
    check (.error (.file .unwritable))

/-! ## Scripts -/

/-- Lines of a trace. -/
def traceLines (instructions : List Instruction) : Bytes :=
  Encoding.Utf8.encode (String.join (instructions.map fun i =>
    Listing.mnemonicLine i.address i.mnemonic ++ "\n"))

/-- Writes a trace, if there is one. -/
def writeTrace (trace : Option (Argument Path)) (instructions : List Instruction) : Run Unit :=
  match trace with
  | some p => do
    let p ← check (p.need .above)
    writeBelow p (traceLines instructions)
  | none => pure ()

/-- Loads a script with options.  The trace holds the instructions read, also
when decoding fails. -/
def loadWith (p : Path) (options : Options) (trace : Option (Argument Path)) : Run Session := do
  if !(← ask fun t => t.isFile p) then check (.error (.file (.noScript p.toString)))
  let data ← readFile p
  say (Note.ofLoad data)
  match Session.load data options with
  | .error interrupted =>
    writeTrace trace interrupted.instructions
    check (.error interrupted.error)
  | .ok session =>
    writeTrace trace session.decoded.instructions
    say (Note.ofDecode session.image session.decoded ++ [.decodedFile p.name session.decoded])
    return session

/-- Loads a script.  The trace is there before anything else is looked at. -/
def loadScript (p : Path) (options : Except Error Options) (trace : Option (Argument Path)) :
    Run Session := do
  writeTrace trace []
  let options ← check options
  loadWith p options trace

/-- Canonical name of the encoding that an argument names. -/
def encodingName (encoding : Argument String) : Except Error String := do
  Encoding.canonicalName (← encoding.need .encoding)

/-- The options that arguments ask for, checked in the order of
`Options.make`. -/
def optionsOf (script : ScriptArguments) (outputEncoding : Option (Argument String))
    (allowOverflow : Bool) : Except Error Options := do
  let version ← Version.ofKey script.version
  let encoding ← encodingName script.encoding
  let outputEncoding ← outputEncoding.mapM encodingName
  return { version, encoding, outputEncoding, allowOverflow }

/-- Options of a script that is only read. -/
def readingOptions (script : ScriptArguments) : Except Error Options := optionsOf script none false

/-- Writes the listing of a script. -/
def writeListing (json : Bool) (session : Session) (output : Argument Path) : Run Unit := do
  let p ← check (output.need (if json then .above else .path))
  makeDirectory p.parent
  let text ← check (if json then Listing.renderJson session.decoded.instructions
    else session.listing)
  writeText session.options.encoding p text

/-- Writes the sheet of a script. -/
def writeSheet (session : Session) (output : Argument Path) : Run Unit := do
  let entries ← check session.entries
  say [.exporting entries.length session.refs.length]
  let p ← check (output.need .path)
  makeDirectory p.parent
  writeText session.options.encoding p (Sheet.format entries)
  say [.wroteSheet p.toString]

/-- Where the trace of one file of a directory goes.  A blank is no trace. -/
def fileTrace (trace : Option (Argument Path)) (name : String) : Option (Argument Path) :=
  match trace with
  | some (.given p) => some (.given (p.child (name ++ ".log")))
  | _ => none

/-- Works on one file of a directory.  A fault in its content is noted;
whether there was one is the result. -/
def eachFile (script : ScriptArguments) (work : Session → Argument Path → Run Unit)
    (output : Path) (ending name : String) : Run Bool := do
  let result ← attempt do
    let session ← loadScript (script.input.child name) (readingOptions script)
      (fileTrace script.trace name)
    work session (.given (output.child (name ++ ending)))
  match result with
  | .ok () => return false
  | .error e =>
    if e.isContentFault then
      say [.fileFailed name e]
      return true
    else check (.error e)

/-- Works on files of a directory one after the other; the result is how many
had a fault. -/
def allFiles (script : ScriptArguments) (work : Session → Argument Path → Run Unit)
    (output : Path) (ending : String) : List String → Run Nat
  | [] => pure 0
  | name :: rest => do
    let failed ← eachFile script work output ending name
    let more ← allFiles script work output ending rest
    return (if failed then 1 else 0) + more

/-- Works on a script, or on every file of a directory behind a progress bar
of that title. -/
def forScripts (title : String) (script : ScriptArguments)
    (work : Session → Argument Path → Run Unit) (output : Argument Path) (ending : String) : Run Nat := do
  if ← ask fun t => t.isDirectory script.input then
    let names ← ask fun t => t.fileNames script.input
    let output ← check (output.need .directory)
    makeDirectory output
    let failures ← allFiles script work output ending (Host.progress title names)
    if failures = 0 then return 0
    else
      say [.someFailed failures names.length]
      return 1
  else
    let session ← loadScript script.input (readingOptions script) script.trace
    work session output
    return 0

/-! ## Sheets -/

/-- Text with every line end as a line feed; `read` holds the characters
before, newest first. -/
def unifyLines (read : List Char) : List Char → List Char
  | [] => read.reverse
  | '\r' :: '\n' :: rest => unifyLines ('\n' :: read) rest
  | '\r' :: rest => unifyLines ('\n' :: read) rest
  | c :: rest => unifyLines (c :: read) rest

/-- The texts of a sheet file. -/
def readSheet (sheet : Argument Path) : Run (Ordered Int String) := do
  let p ← check (sheet.need .path)
  if !(← ask fun t => t.isFile p) then check (.error (.file (.noSheet p.toString)))
  let data ← readFile p
  match Encoding.Utf8.decodeStrict? data with
  | none => check (.error .undecodableSheet)
  | some text =>
    let text := String.ofList (unifyLines [] text.toList)
    say (Note.ofRecords (Sheet.records text).1)
    let entries ← check (Sheet.parse text)
    say [.readSheet entries.length p.toString]
    return Sheet.toTexts entries

/-- Writes a script file. -/
def saveScript (session : Session) (output : Argument Path) : Run Unit := do
  let data ← check session.toBytes
  let p ← check (output.need .path)
  writeBelow p data
  say [.wroteScript p.toString data.length]

/-- The line on a revision. -/
def reportLine (report : Report) : String :=
  report.mode.name ++ ": patched " ++ Numeral.decimal report.patched ++ "/" ++
    Numeral.decimal report.references ++ " reference(s), pool " ++
    Numeral.decimal report.poolBefore ++ " -> " ++ Numeral.decimal report.poolAfter ++ " bytes"

/-- Puts the texts of a sheet into a script. -/
def revise (mode : Mode) (script : ScriptArguments) (sheet output : Argument Path)
    (outputEncoding : Option (Argument String)) (allowOverflow : Bool) : Run Nat := do
  let options := optionsOf script outputEncoding allowOverflow
  let session ← loadScript script.input options script.trace
  let texts ← readSheet sheet
  let outcome := session.apply mode texts
  say (Note.ofRevision outcome.placements outcome.result)
  let report ← check outcome.result
  saveScript outcome.session output
  print (reportLine report)
  return 0

/-! ## Archives -/

/-- Writes the payloads of entries into a directory. -/
def writeEntries (data : Bytes) (output : Path) : List Archive.Entry → Run Unit
  | [] => pure ()
  | e :: rest => do
    writeFile (output.child e.name) (← check (Archive.payload data e))
    writeEntries data output rest

/-- Extracts an archive into a directory; the result is the directory and the
number of files. -/
def extract (input : Path) (output : Argument Path) : Run (Path × Nat) := do
  let data ← readFile input
  let entries ← check (Archive.readIndex data)
  let output ← check (output.need .path)
  makeDirectory output
  writeEntries data output (Host.progress input.name entries)
  say [.extracted entries.length input.toString]
  return (output, entries.length)

/-- The line on an archive that was extracted. -/
def extractedLine (output : Path) (count : Nat) : String :=
  "Extracted " ++ Numeral.decimal count ++ " file(s) to " ++ output.toString

/-- Extracts an archive and says so. -/
def unpack (input : Path) (output : Argument Path) : Run Nat := do
  let (output, count) ← extract input output
  print (extractedLine output count)
  return 0

/-- The contents of files of a directory. -/
def readFiles (p : Path) : List String → Run (List Bytes)
  | [] => pure []
  | name :: rest => do
    let first ← readFile (p.child name)
    let others ← readFiles p rest
    return first :: others

/-- Puts the numbered files of a directory into an archive; the result is the
path of the archive. -/
def create (input : Path) (output : Argument Path) : Run Path := do
  let names ← ask fun t => t.fileNames input
  let files ← check (Archive.numberedFiles input.toString names)
  let payloads ← readFiles input (Host.progress "pack" files)
  let data ← check (Archive.build payloads)
  let output ← check (output.need .path)
  writeBelow output data
  say [.packed files.length output.toString data.length]
  return output

/-- The line on files that were packed. -/
def packedLine (input output : Path) : String :=
  "Packed " ++ input.toString ++ " into " ++ output.toString

/-- Packs the numbered files of a directory and says so. -/
def pack (input : Path) (output : Argument Path) : Run Nat := do
  let output ← create input output
  print (packedLine input output)
  return 0

/-- Carries out an action; the result is the exit status. -/
def action : Action → Run Nat
  | .list script output json =>
    forScripts "disasm" script (writeListing json) output (if json then ".json" else ".txt")
  | .export script output => forScripts "export" script writeSheet output ".txt"
  | .revise mode script sheet output outputEncoding allowOverflow =>
    revise mode script sheet output outputEncoding allowOverflow
  | .unpack input output => unpack input output
  | .pack input output => pack input output

end Run

/-! ## Whole commands -/

/-- Whether a failure ends in a note and an exit status; any other is passed
on. -/
def Error.isReported (e : Error) : Bool :=
  e.isContentFault ||
    match e with
    | .file .nullInPath | .file .tooDeep | .file (.unprintable _) | .file .unwritable => false
    | .file _ | .unknownEncoding _ | .noTextEncoding .. | .unknownVersion _ | .patchOutside ..
    | .referenceOutside .. | .streamOutside | .positionRange => true
    | _ => false

/-- What became of a command. -/
structure CommandOutcome where
  files : Tree
  log : List String
  printed : List String
  /-- The exit status, or the failure that is passed on. -/
  status : Except Error Nat

namespace Command

/-- The log lines of notes, the newest of which comes first. -/
def logLines (c : Command) (notes : List Note) : List String :=
  (notes.reverse.filter fun n => n.level.isShown c.verbose).flatMap Note.lines

/-- Carries a command out. -/
def run [Codecs] [Host] (c : Command) (files : Tree) : CommandOutcome :=
  match Run.action c.action ⟨files, [], []⟩ with
  | .ok status w => ⟨w.files, c.logLines w.notes, w.printed.reverse, .ok status⟩
  | .error e w =>
    if e.isReported then
      ⟨w.files, c.logLines (.failed e :: w.notes), w.printed.reverse, .ok 1⟩
    else ⟨w.files, c.logLines w.notes, w.printed.reverse, .error e⟩

end Command

end Scenario
