import Scenario.Dialect
import Scenario.Encoding
import Scenario.Files
import Scenario.Revision
import Scenario.Text.Digit

/-!
# Scenario.Command.Arguments

From command line words to commands.

1. Settings may stand anywhere behind the command.  A long setting's value
   follows it, or is joined to it by an equals sign; a short setting's value
   follows it, or is joined to it.
2. A long setting may be cut short as long as it stays unambiguous.  Short
   settings without a value may be joined to one word with others.
3. Behind the separator `--` nothing is a setting.  A lone dash, a negative
   number and a word with a space in it are none either.
4. A value that is no more than the separator leaves its place blank, and so
   does a second separator among the other words.
5. Of a setting that is given twice the last value counts.
6. A call for help is heeded where it stands, so it wins over what is wrong
   behind it, and over settings that are not known anywhere, but not over
   ambiguous ones.
-/

namespace Scenario

/-! ## Commands -/

/-- A value of the command line, which may have been left blank. -/
inductive Argument (α : Type) where
  | blank
  | given (value : α)
  deriving DecidableEq, Repr

namespace Argument

variable {α β : Type}

/-- What a function makes of a value. -/
def map (f : α → β) : Argument α → Argument β
  | blank => blank
  | given value => given (f value)

/-- The value, unless the place is blank. -/
def toOption : Argument α → Option α
  | blank => none
  | given value => some value

/-- The value; a blank is missed where it is used. -/
def need (use : BlankUse) : Argument α → Except Error α
  | blank => .error (.blank use)
  | given value => .ok value

end Argument

/-- How a script is read. -/
structure ScriptArguments where
  input : Path
  version : VersionKey
  encoding : Argument String
  /-- Where to write a line for every instruction decoded. -/
  trace : Option (Argument Path)

/-- What the tools can do. -/
inductive Action where
  /-- Writes a listing of a script, or of every script in a directory. -/
  | list (script : ScriptArguments) (output : Argument Path) (json : Bool)
  /-- Writes the sheet of a script, or of every script in a directory. -/
  | export (script : ScriptArguments) (output : Argument Path)
  /-- Puts the texts of a sheet into a script. -/
  | revise (mode : Mode) (script : ScriptArguments) (sheet output : Argument Path)
      (outputEncoding : Option (Argument String)) (allowOverflow : Bool)
  | unpack (input : Path) (output : Argument Path)
  | pack (input : Path) (output : Argument Path)

/-- The paths that an action names. -/
def Action.paths : Action → List Path
  | .list script output _ | .export script output =>
    script.input :: ([output] ++ script.trace.toList).filterMap Argument.toOption
  | .revise _ script sheet output _ _ =>
    script.input :: ([sheet, output] ++ script.trace.toList).filterMap Argument.toOption
  | .unpack input output | .pack input output => input :: output.toOption.toList

/-- A command line. -/
structure Command where
  verbose : Bool
  action : Action

namespace Arguments

/-! ## Words -/

/-- A setting of a command. -/
structure Setting where
  /-- All spellings; the last is the one it is known by. -/
  names : List String
  takesValue : Bool
  /-- The values it takes; any value, if none are listed. -/
  choices : List String

/-- The spelling that a setting is known by. -/
def Setting.key (s : Setting) : String := s.names.getLast?.getD ""

/-- Why a command line is not carried out. -/
inductive Refusal where
  /-- Help was asked for. -/
  | help
  | misuse
  deriving DecidableEq, Repr

/-- What a word is. -/
inductive Word where
  | plain
  /-- A setting, and the text that is joined to it. -/
  | setting (s : Setting) (joined : Option String)
  | unknown
  | ambiguous

/-- The word behind which nothing is a setting. -/
def separator : String := "--"

/-- Whether all characters are digits, and there is one. -/
def isNumber (cs : List Char) : Bool := !cs.isEmpty && cs.all Text.isDecimalDigit

/-- Whether the characters behind a minus sign make a number, with or without
a decimal point. -/
def isUnsigned (cs : List Char) : Bool :=
  isNumber cs ||
    match cs.dropWhile Text.isDecimalDigit with
    | '.' :: fraction => isNumber fraction
    | _ => false

/-- Whether a word is a negative number.  One line feed behind it does not
count. -/
def isNegative : List Char → Bool
  | '-' :: cs => isUnsigned cs || (cs.getLast? == some '\n' && isUnsigned cs.dropLast)
  | _ => false

/-- A word split at its first equals sign. -/
def splitValue (cs : List Char) : String × Option String :=
  match cs.span (· != '=') with
  | (name, []) => (String.ofList name, none)
  | (name, _ :: value) => (String.ofList name, some (String.ofList value))

/-- The setting with a spelling. -/
def find? (settings : List Setting) (name : String) : Option Setting :=
  settings.find? fun s => s.names.contains name

/-- The spellings that start with a text, each with its setting. -/
def completions (settings : List Setting) (start : String) : List Setting :=
  settings.flatMap fun s => (s.names.filter fun name => name.startsWith start).map fun _ => s

/-- What a word that starts with a dash may stand for, if it is no spelling:
a long setting cut short, or a short one with its value joined to it. -/
def guesses (settings : List Setting) (word : String) : List Word :=
  let cs := word.toList
  if word.startsWith "--" then
    let (name, value) := splitValue cs
    (completions settings name).map fun s => .setting s value
  else
    (match find? settings (String.ofList (cs.take 2)) with
      | some s => [.setting s (some (String.ofList (cs.drop 2)))]
      | none => []) ++
    (completions settings word).map fun s => .setting s none

/-- Tells what a word is. -/
def classify (settings : List Setting) (word : String) : Word :=
  let cs := word.toList
  if cs.head? != some '-' then .plain
  else
    match find? settings word, splitValue cs with
    | some s, _ => .setting s none
    | none, (name, value) =>
      if word = "-" then .plain
      else
        match value, find? settings name with
        | some value, some s => .setting s (some value)
        | _, _ =>
          match guesses settings word with
          | [guess] => guess
          | [] => if isNegative cs || cs.contains ' ' then .plain else .unknown
          | _ => .ambiguous

/-! ## Settings in a word -/

/-- The settings in a word that starts with a short setting, to which a text
is joined: its value, or else further short settings. -/
def joinedSettings (settings : List Setting) (s : Setting) :
    List Char → Except Refusal (List (Setting × Option String))
  | [] => if s.takesValue then .ok [(s, some "")] else .error .misuse
  | c :: rest =>
    if s.takesValue then .ok [(s, some (String.ofList (c :: rest)))]
    else
      match find? settings (String.ofList ['-', c]) with
      | none => .error .misuse
      | some next =>
        if rest.isEmpty then .ok [(s, none), (next, none)]
        else do
          let others ← joinedSettings settings next rest
          return (s, none) :: others

/-- The settings in a word. -/
def settingsIn (settings : List Setting) (word : String) (s : Setting) :
    (joined : Option String) → Except Refusal (List (Setting × Option String))
  | none => .ok [(s, none)]
  | some text =>
    if s.takesValue then .ok [(s, some text)]
    else if word.startsWith separator then .error .misuse
    else joinedSettings settings s text.toList

/-- Whether settings end with one whose value has to follow. -/
def wantsValue (found : List (Setting × Option String)) : Bool :=
  match found.getLast? with
  | some (s, none) => s.takesValue
  | _ => false

/-! ## Scanning -/

/-- What was found among the words, the newest first. -/
structure Found where
  plain : List (Argument String)
  /-- Settings by key; one that takes no value has the empty one. -/
  values : List (String × Argument String)
  /-- Whether there was a word that looks like a setting and is none. -/
  unknown : Bool

/-- A value as it stands in a word. -/
def argumentOf (word : String) : Argument String :=
  if word = separator then .blank else .given word

namespace Found

/-- Nothing found yet. -/
def none : Found := ⟨[], [], false⟩

/-- The value of a setting, the last one given. -/
def value? (f : Found) (key : String) : Option (Argument String) := f.values.lookup key

/-- Whether a setting was given. -/
def has (f : Found) (key : String) : Bool := (f.value? key).isSome

/-- Adds words that are no settings. -/
def add (f : Found) (words : List (Argument String)) : Found :=
  { f with plain := words.reverse ++ f.plain }

/-- Records a setting, if its value is one it takes. -/
def record (f : Found) (s : Setting) (value : Argument String) : Except Refusal Found :=
  match value with
  | .given text =>
    if !s.choices.isEmpty && !s.choices.contains text then .error .misuse
    else .ok { f with values := (s.key, value) :: f.values }
  | .blank => .ok { f with values := (s.key, value) :: f.values }

end Found

/-- The spelling of the setting that asks for help. -/
def helpKey : String := "--help"

/-- Heeds the settings of a word, of which the last may have its value in the
next word. -/
def heed (f : Found) (next : String) : List (Setting × Option String) → Except Refusal Found
  | [] => .ok f
  | (s, value) :: rest =>
    if s.key = helpKey then .error .help
    else do
      let f ← f.record s (argumentOf (value.getD next))
      heed f next rest

/-- The words behind a separator.  One that directly follows a separator at
the head of its run is taken as it stands. -/
def behindSeparator (inRun : Bool) : List String → Except Refusal (List (Argument String))
  | [] => if inRun then .ok [] else .error .misuse
  | first :: rest =>
    .ok ((if inRun then argumentOf first else .given first) :: rest.map argumentOf)

/-- Reads words up to their end.  `inRun` tells whether the word before was no
setting and no value of one. -/
def scan (settings : List Setting) (f : Found) (inRun : Bool) :
    List String → Except Refusal Found
  | [] => .ok f
  | word :: rest =>
    if word = separator then do
      let words ← behindSeparator inRun rest
      return f.add words
    else
      match classify settings word with
      | .plain => scan settings (f.add [.given word]) true rest
      | .unknown => scan settings { f with unknown := true } false rest
      | .ambiguous => .error .misuse
      | .setting s joined => do
        let found ← settingsIn settings word s joined
        if wantsValue found then
          match rest with
          | [] => .error .misuse
          | value :: rest =>
            match value == separator, classify settings value with
            | false, .plain => do
              let f ← heed f value found
              scan settings f false rest
            | _, _ => .error .misuse
        else do
          let f ← heed f "" found
          scan settings f false rest

/-- Whether a word in front of the separator is ambiguous. -/
def anyAmbiguous (settings : List Setting) (words : List String) : Bool :=
  (words.takeWhile (· != separator)).any fun word =>
    match classify settings word with
    | .ambiguous => true
    | _ => false

/-- Reads all words behind a command; settings that are not known are not
let pass. -/
def read (settings : List Setting) (words : List String) : Except Refusal Found := do
  if anyAmbiguous settings words then .error .misuse
  let f ← scan settings .none false words
  if f.unknown then .error .misuse else .ok f

/-! ## Grammar -/

/-- A setting that is on or off. -/
def toggle (names : List String) : Setting := ⟨names, false, []⟩

/-- A setting with a value. -/
def valued (names : List String) : Setting := ⟨names, true, []⟩

/-- The setting that asks for help. -/
def help : Setting := toggle ["-h", helpKey]

/-- The setting that shows more notes; it stands in front of the command. -/
def verbose : Setting := toggle ["--verbose"]

/-- Where the result goes. -/
def output : Setting := valued ["-o", "--output"]

/-- The settings of every command that reads a script. -/
def scriptSettings : List Setting :=
  [help, output, ⟨["--version"], true, Version.choices⟩, valued ["--encoding"], valued ["--trace"]]

/-- How a script is read. -/
def scriptArguments (f : Found) (input : String) : ScriptArguments :=
  { input := .ofString input
    version :=
      match f.value? "--version" with
      | some (.given name) => .text name
      | some .blank => .blank
      | none => .text Version.default.name
    encoding := (f.value? "--encoding").getD (.given Encoding.defaultName)
    trace := (f.value? "--trace").map (Argument.map Path.ofString) }

/-- Where the result goes; it has to be said. -/
def outputPath (f : Found) : Except Refusal (Argument Path) :=
  match f.value? output.key with
  | some path => .ok (path.map Path.ofString)
  | none => .error .misuse

/-- The command that lists scripts. -/
def parseList (words : List String) : Except Refusal Action := do
  let f ← read (scriptSettings ++ [toggle ["--json"]]) words
  match f.plain with
  | [.given input] => return .list (scriptArguments f input) (← outputPath f) (f.has "--json")
  | _ => .error .misuse

/-- The command that writes sheets. -/
def parseExport (words : List String) : Except Refusal Action := do
  let f ← read scriptSettings words
  match f.plain with
  | [.given input] => return .export (scriptArguments f input) (← outputPath f)
  | _ => .error .misuse

/-- The commands that put texts back. -/
def parseRevise (mode : Mode) (words : List String) : Except Refusal Action := do
  let f ← read
    (scriptSettings ++ [valued ["--output-encoding"], toggle ["--allow-offset-overflow"]]) words
  match f.plain with
  | [sheet, .given input] =>
    return .revise mode (scriptArguments f input) (sheet.map Path.ofString) (← outputPath f)
      (f.value? "--output-encoding") (f.has "--allow-offset-overflow")
  | _ => .error .misuse

/-- The commands on archives, which have two paths and no settings. -/
def parsePaths (make : Path → Argument Path → Action) (words : List String) :
    Except Refusal Action := do
  let f ← read [help] words
  match f.plain with
  | [output, .given input] => return make (.ofString input) (output.map Path.ofString)
  | _ => .error .misuse

/-- The command of a name. -/
def parseAction (name : String) (words : List String) : Except Refusal Action :=
  match name with
  | "disasm" => parseList words
  | "export" => parseExport words
  | "import" => parseRevise .append words
  | "rebuild" => parseRevise .rebuild words
  | "unpack" => parsePaths .unpack words
  | "pack" => parsePaths .pack words
  | _ => .error .misuse

/-- The settings in front of the command. -/
def commonSettings : List Setting := [help, verbose]

/-- Reads a command line; `f` holds what was found in front of the
command's name. -/
def parseFrom (f : Found) : List String → Except Refusal Command
  | [] => .error .misuse
  | word :: rest =>
    match classify commonSettings word with
    | .plain => do
      let action ← parseAction word rest
      if f.unknown then .error .misuse else .ok { verbose := f.has verbose.key, action }
    | .unknown => parseFrom { f with unknown := true } rest
    | .setting s joined => do
      let found ← settingsIn commonSettings word s joined
      let f ← heed f "" found
      parseFrom f rest
    | .ambiguous => .error .misuse

/-- Reads a command line. -/
def parse (words : List String) : Except Refusal Command :=
  if anyAmbiguous commonSettings words then .error .misuse else parseFrom .none words

/-- How the program is called. -/
def usage : String := "\n".intercalate [
  "usage: [--verbose] COMMAND ...",
  "  disasm INPUT -o OUTPUT [--json] [READING]",
  "  export INPUT -o OUTPUT [READING]",
  "  import INPUT SHEET -o OUTPUT [WRITING] [READING]",
  "  rebuild INPUT SHEET -o OUTPUT [WRITING] [READING]",
  "  unpack ARCHIVE DIRECTORY",
  "  pack DIRECTORY ARCHIVE",
  "READING: [--version VERSION] [--encoding NAME] [--trace PATH]",
  "WRITING: [--output-encoding NAME] [--allow-offset-overflow]"]

end Arguments

end Scenario
