import Scenario.Proofs.History
import Scenario.Proofs.Listable
import Scenario.Proofs.Outputs
import Scenario.Proofs.Refusals

/-!
# Scenario.Proofs.Exits

How commands end.

1. `Action.PassesOn` — the failures that an action can pass on, each with what
   must be wrong with the arguments or the files for it.
2. `Run.Gives` — a step whose results and whose failures are known.  It is
   built up along the commands from what their parts can fail with.  Listings
   and script files are written without fail once a script was decoded.
3. `Command.status_run` — a command ends with the status 0 or 1, or passes on
   one of these failures.  A sheet that is not UTF-8 is always passed on.
-/

namespace Scenario

/-! ## failures that are passed on -/

namespace Action

/-- The paths behind an action's first, which can be left blank. -/
def places : Action → List (Argument Path)
  | .list script output _ | .export script output => output :: script.trace.toList
  | .revise _ script sheet output _ _ => sheet :: output :: script.trace.toList
  | .unpack _ output | .pack _ output => [output]

/-- The names of encodings that an action is given. -/
def encodings : Action → List (Argument String)
  | .list script _ _ | .export script _ => [script.encoding]
  | .revise _ script _ _ outputEncoding _ => script.encoding :: outputEncoding.toList
  | .unpack .. | .pack .. => []

/-- The script of an action can be loaded, and its sheet is then a file that
is not UTF-8. -/
def MisreadsSheet [Codecs] [Host] (a : Action) (files : Tree) : Prop :=
  ∃ mode script sheet output outputEncoding allowOverflow session w data,
    a = .revise mode script (.given sheet) output outputEncoding allowOverflow ∧
    Run.loadScript script.input (Run.optionsOf script outputEncoding allowOverflow) script.trace
      ⟨files, [], []⟩ = .ok session w ∧
    w.files.readFile sheet = .ok data ∧ Encoding.Utf8.decodeStrict? data = none

/-- The files to pack need a number in the archive that does not fit a 32-bit
field. -/
def Overfills (a : Action) (files : Tree) (n : Nat) : Prop :=
  ∃ input output names numbered payloads,
    a = .pack input output ∧
    files.fileNames input = .ok names ∧
    Archive.numberedFiles input.toString names = .ok numbered ∧
    List.Forall₂ (fun name payload => files.readFile (input.child name) = .ok payload)
      numbered payloads ∧
    Archive.Overflows payloads n

/-- Whether an action writes the texts of scripts into UTF-8 files. -/
def writesTexts : Action → Bool
  | .list .. | .export .. => true
  | .revise .. | .unpack .. | .pack .. => false

/-- The lines with a path in them that an action prints. -/
inductive Prints (files : Tree) : Action → String → Prop where
  | unpack {input path : Path} {data : Bytes} {entries : List Archive.Entry}
      (hdata : files.readFile input = .ok data) (hentries : Archive.readIndex data = .ok entries) :
      Prints files (.unpack input (.given path)) (Run.extractedLine path entries.length)
  | pack (input path : Path) :
      Prints files (.pack input (.given path)) (Run.packedLine input path)

/-- The failures that an action can pass on. -/
inductive PassesOn [Codecs] [Host] (a : Action) (files : Tree) : Error → Prop where
  | undecodableSheet (h : a.MisreadsSheet files) : PassesOn a files .undecodableSheet
  | blankPlace (use : BlankUse) (h : .blank ∈ a.places) : PassesOn a files (.blank use)
  | blankName (use : BlankUse) (h : .blank ∈ a.encodings) : PassesOn a files (.blank use)
  | nullInPath {p : Path} (hp : p ∈ a.paths) (h : p.hasNull = true) :
      PassesOn a files (.file .nullInPath)
  | tooDeep {p : Path} (hp : .given p ∈ a.places) (h : Host.maxDepth < p.parts.length) :
      PassesOn a files (.file .tooDeep)
  | nullInName {name : String} (hname : .given name ∈ a.encodings) (h : '\x00' ∈ name.toList) :
      PassesOn a files .nullInName
  | refusingEncoding {name c message : String} {way : Conversion}
      (hname : .given name ∈ a.encodings) (hc : Encoding.canonicalName name = .ok c)
      (h : Encoding.Refuses way c message) : PassesOn a files (.refusingEncoding way message)
  | unwritable {name c text : String} (hwrites : a.writesTexts = true)
      (hname : .given name ∈ a.encodings) (hc : Encoding.canonicalName name = .ok c)
      (h : Encoding.isWritable c text = false) : PassesOn a files (.file .unwritable)
  | unprintable {line : String} (hline : Prints files a line) (h : Host.prints line = false) :
      PassesOn a files (.file (.unprintable line))
  | fieldRange {n : Nat} (h : a.Overfills files n) : PassesOn a files (.fieldRange 32 n)

end Action

/-! ## covered arguments -/

section Covered

variable (P : Error → Prop)

/-- `P` holds of the failures that come from a path as such. -/
structure Path.Covered [Host] (p : Path) : Prop where
  null : p.hasNull = true → P (.file .nullInPath)
  deep : Host.maxDepth < p.parts.length → P (.file .tooDeep)

/-- `P` holds of the failures that come from a path as such when a file is
written there. -/
structure Path.Writable [Host] (p : Path) : Prop where
  null : p.hasNull = true → P (.file .nullInPath)
  above : p.parent.Covered P

/-- `P` holds of the failures that come from the name of an encoding. -/
structure Encoding.Covered [Codecs] (name : String) : Prop where
  null : '\x00' ∈ name.toList → P .nullInName
  refuses : ∀ {way c message}, canonicalName name = .ok c → Refuses way c message →
    P (.refusingEncoding way message)

/-- `P` holds of the failures that come from a blank argument, and a given one
is covered by `C`. -/
def Argument.Covered {α : Type} (C : α → Prop) : Argument α → Prop
  | .blank => ∀ use, P (.blank use)
  | .given a => C a

/-- `P` holds of the failures of converting text in the encodings of a session. -/
structure Options.Covered [Codecs] (o : Options) : Prop where
  decoding : ∀ e, Encoding.Fails o.encoding .decoding e → P e
  encoding : ∀ e, Encoding.Fails o.newEncoding .encoding e → P e

/-- `P` holds of the failures that come from how a script is to be read. -/
structure ScriptArguments.Covered [Codecs] [Host] (script : ScriptArguments) : Prop where
  input : script.input.hasNull = true → P (.file .nullInPath)
  encoding : script.encoding.Covered P (Encoding.Covered P)
  trace : ∀ place, script.trace = some place → place.Covered P (Path.Covered P)

end Covered

section Paths

variable [Host] {P : Error → Prop} {p : Path}

theorem Path.Covered.writable (h : p.Covered P) : p.Writable P where
  null := h.null
  above :=
    { null := fun hnull => h.null (by
        by_contra hfree
        simp [Path.hasNull_parent (Bool.eq_false_iff.mpr hfree)] at hnull)
      deep := fun hdeep => h.deep (by
        have hlength : p.parent.parts.length = p.parts.length - 1 := List.length_dropLast
        omega) }

omit [Host] in
theorem Path.hasNull_of_child {name : String} (hname : '\x00' ∉ name.toList)
    (h : (p.child name).hasNull = true) : p.hasNull = true := by
  simpa [Path.hasNull_child, hname] using h

theorem Path.Covered.writable_child (h : p.Covered P) {name : String}
    (hname : '\x00' ∉ name.toList) : (p.child name).Writable P where
  null hnull := h.null (Path.hasNull_of_child hname hnull)
  above := by
    have hparent : (p.child name).parent = p := by simp [Path.child, Path.parent]
    rwa [hparent]

theorem Argument.Covered.writable {place : Argument Path}
    (h : place.Covered P (Path.Covered P)) : place.Covered P (Path.Writable P) := by
  cases place with
  | blank => exact h
  | given p => exact Path.Covered.writable h

/-- A trace is a file that is written. -/
theorem ScriptArguments.Covered.writable_trace [Codecs] {script : ScriptArguments}
    (h : script.Covered P) (place : Argument Path) (hplace : script.trace = some place) :
    place.Covered P (Path.Writable P) :=
  (h.trace place hplace).writable

end Paths

/-! ## written files and names -/

/-- The file of a script that was loaded and revised. -/
theorem Session.exists_toBytes_of_apply [Codecs] {data : Bytes} {o : Options} {s : Session}
    {mode : Mode} {texts : Ordered Int String} {report : Report} (hload : load data o = .ok s)
    (h : (s.apply mode texts).result = .ok report) :
    ∃ out, (s.apply mode texts).session.toBytes = .ok out := by
  obtain ⟨⟨bs, hfile⟩, -, hdecode⟩ := load_eq_ok hload
  rw [result_apply] at h
  obtain ⟨b, hdone⟩ := Revision.exists_done_of_run (Image.fieldsIn_of_decode hdecode) h
  have hrevised := hfile.revised hdone.header hdone.labels hdone.codeBase hdone.length_code
  exact ⟨_, by rw [toBytes, image_session_apply, hrevised.write]⟩

namespace Archive

/-- The entries of an archive have names without null characters. -/
theorem null_notMem_name {data : Bytes} {entries : List Entry} (h : readIndex data = .ok entries)
    {e : Entry} (he : e ∈ entries) : '\x00' ∉ e.name.toList := by
  obtain ⟨index, hindex⟩ := exists_fileName_of_readIndex h he
  rw [← hindex]
  exact fun hnull => absurd (isDigit_of_mem_fileName hnull) (by decide)

/-- Files are packed that are in the directory. -/
theorem mem_of_numberedFiles {directory : String} {names numbered : List String}
    (h : numberedFiles directory names = .ok numbered) {name : String} (hname : name ∈ numbered) :
    name ∈ names := by
  rw [numberedFiles] at h
  split at h
  · cases h
  · split at h
    · cases h
    · cases h
      exact List.mem_of_mem_filter (List.mem_mergeSort.mp hname)

end Archive

namespace Run

/-! ## steps -/

variable {α β : Type} {P : Error → Prop} {Q : α → Prop} {R : β → Prop} {w : World}

/-- A step whose results satisfy `Q`, and whose failures satisfy `P`. -/
structure Gives (P : Error → Prop) (Q : α → Prop) (x : Run α) (w : World) : Prop where
  ok : ∀ {a w'}, x w = .ok a w' → Q a
  error : ∀ {e w'}, x w = .error e w' → P e

theorem Gives.bind {x : Run α} {f : α → Run β} (hx : Gives P Q x w)
    (hf : ∀ {a w'}, x w = .ok a w' → Q a → Gives P R (f a) w') : Gives P R (x >>= f) w where
  ok h := by
    obtain ⟨a, w₁, h₁, h₂⟩ := runThen_eq_ok_iff.mp h
    exact (hf h₁ (hx.ok h₁)).ok h₂
  error h := by
    rcases runThen_eq_error_iff.mp h with h₁ | ⟨a, w₁, h₁, h₂⟩
    · exact hx.error h₁
    · exact (hf h₁ (hx.ok h₁)).error h₂

theorem gives_pure {a : α} (h : Q a) : Gives P Q (pure a) w where
  ok hok := by
    cases hok
    exact h
  error herror := by cases herror

theorem gives_say (notes : List Note) : Gives P (fun _ => True) (say notes) w :=
  ⟨fun _ => trivial, fun h => by cases h⟩

theorem gives_print [Host] {line : String}
    (h : Host.prints line = false → P (.file (.unprintable line))) :
    Gives P (fun _ => True) (print line) w where
  ok _ := trivial
  error herror := by
    rw [print] at herror
    split at herror
    · cases herror
    · next hprints =>
      cases herror
      exact h (Bool.eq_false_iff.mpr hprints)

theorem gives_fail {e : Error} (h : P e) : Gives P Q (check (.error e)) w where
  ok hok := by cases hok
  error herror := by
    cases herror
    exact h

/-- A result that is known leaves the world as it is. -/
theorem gives_checkThen {r : Except Error α} {next : α → Run β} (hr : ∀ e, r = .error e → P e)
    (hnext : ∀ a, r = .ok a → Gives P R (next a) w) : Gives P R (check r >>= next) w := by
  cases r with
  | error e => exact (gives_fail (Q := fun _ => True) (hr e rfl)).bind fun h => by cases h
  | ok a => exact hnext a rfl

theorem ask_eq_error {f : Tree → Except FileError α} {e : Error} {w' : World}
    (h : ask f w = .error e w') : ∃ cause, f w.files = .error cause ∧ e = .file cause := by
  rw [ask.eq_def] at h
  split at h
  · cases h
  · next cause hcause =>
    cases h
    exact ⟨cause, hcause, rfl⟩

theorem gives_askThen {f : Tree → Except FileError α} {next : α → Run β}
    (hf : ∀ e, f w.files = .error e → P (.file e))
    (hnext : ∀ a, f w.files = .ok a → Gives P R (next a) w) : Gives P R (ask f >>= next) w where
  ok h := by
    obtain ⟨a, ha, h⟩ := askThen_eq_ok_iff.mp h
    exact (hnext a ha).ok h
  error h := by
    rcases runThen_eq_error_iff.mp h with h₁ | ⟨a, w₁, h₁, h₂⟩
    · obtain ⟨cause, hcause, rfl⟩ := ask_eq_error h₁
      exact hf cause hcause
    · obtain ⟨ha, rfl⟩ := ask_eq_ok_iff.mp h₁
      exact (hnext a ha).error h₂

/-- A failure that is given as a value is one of the step. -/
theorem gives_attempt {x : Run α} (hx : Gives P Q x w) :
    Gives P (fun result => ∀ e, result = .error e → P e) (attempt x) w where
  ok h e he := by
    subst he
    rw [attempt] at h
    split at h
    · cases h
    · next hx' =>
      cases h
      exact hx.error hx'
  error h := by
    rw [attempt] at h
    split at h <;> cases h

theorem gives_needThen {use : BlankUse} {C : α → Prop} {argument : Argument α}
    {next : α → Run β} (h : argument.Covered P C)
    (hnext : ∀ a, argument = .given a → C a → Gives P R (next a) w) :
    Gives P R (check (argument.need use) >>= next) w := by
  cases argument with
  | blank =>
      refine gives_checkThen (fun e he => ?_) fun a ha => by cases ha
      cases he
      exact h use
  | given a =>
      refine gives_checkThen (fun e he => by cases he) fun a' ha => ?_
      cases ha
      exact hnext a rfl h

theorem gives_guard {b : Bool} {e : Error} {next : Unit → Run α} (he : P e)
    (h : Gives P Q (next ()) w) :
    Gives P Q (if !b then check (.error e) >>= next else next ()) w := by
  split
  · exact (gives_fail (Q := fun _ => True) he).bind fun hok => by cases hok
  · exact h

/-- The trace of one file of a directory is covered if that of all is. -/
theorem fileTrace_covered [Host] {trace : Option (Argument Path)}
    (h : ∀ place, trace = some place → place.Covered P (Path.Covered P)) {name : String}
    (hname : '\x00' ∉ name.toList) (place : Argument Path)
    (hplace : fileTrace trace name = some place) : place.Covered P (Path.Writable P) := by
  rw [fileTrace.eq_def] at hplace
  split at hplace
  · next p =>
    cases hplace
    exact Path.Covered.writable_child (h _ rfl) (by simpa using hname)
  · cases hplace

/-! ## files -/

section Reported

variable (hP : ∀ e : Error, e.isReported = true → P e)
include hP

theorem covered_at {p : Path} (hnull : p.hasNull = true → P (.file .nullInPath)) {e : FileError}
    (h : e.At p) : P (.file e) := by
  cases h with
  | refused fault path => exact hP _ rfl
  | nullInPath h => exact hnull h

theorem gives_isFileThen {p : Path} {next : Bool → Run β}
    (hnext : ∀ b, Gives P R (next b) w) : Gives P R (ask (fun t => t.isFile p) >>= next) w := by
  refine gives_askThen (fun e he => ?_) fun b _ => hnext b
  obtain ⟨fault, path, rfl⟩ := Tree.isFile_eq_error he
  exact hP _ rfl

theorem gives_readFileThen {p : Path} {next : Bytes → Run β}
    (hnull : p.hasNull = true → P (.file .nullInPath))
    (hnext : ∀ data, w.files.readFile p = .ok data → Gives P R (next data) w) :
    Gives P R (readFile p >>= next) w :=
  gives_askThen (fun _ he => covered_at hP hnull (Tree.answer_eq_error he)) hnext

theorem gives_makeDirectory [Host] {p : Path} (hp : p.Covered P) :
    Gives P (fun _ => True) (makeDirectory p) w where
  ok _ := trivial
  error h := by
    rw [makeDirectory, change.eq_def] at h
    dsimp only at h
    split at h
    · cases h
    · next t cause hmade =>
      cases h
      obtain hat | ⟨rfl, hdeep⟩ := Tree.makeDirectory_eq_error hmade
      · exact covered_at hP hp.null hat
      · exact hp.deep hdeep

theorem gives_writeFile {p : Path} (hnull : p.hasNull = true → P (.file .nullInPath))
    (data : Bytes) : Gives P (fun _ => True) (writeFile p data) w := by
  refine gives_askThen (fun e he => covered_at hP hnull (Tree.answer_eq_error he)) fun l _ => ?_
  exact ⟨fun _ => trivial, fun h => by cases h⟩

theorem gives_writeBelow [Host] {p : Path} (hp : p.Writable P) (data : Bytes) :
    Gives P (fun _ => True) (writeBelow p data) w :=
  (gives_makeDirectory hP hp.above).bind fun _ _ => gives_writeFile hP hp.null data

/-- A text is written, unless UTF-8 cannot hold it. -/
theorem gives_writeText [Codecs] {encoding text : String} {p : Path}
    (hnull : p.hasNull = true → P (.file .nullInPath))
    (hwritable : Encoding.isWritable encoding text = false → P (.file .unwritable)) :
    Gives P (fun _ => True) (writeText encoding p text) w := by
  rw [writeText]
  split
  · exact gives_writeFile hP hnull _
  · next hnot =>
    exact (gives_writeFile hP hnull _).bind fun _ _ =>
      gives_fail (hwritable (Bool.eq_false_iff.mpr hnot))

/-! ## scripts -/

theorem gives_writeTrace [Host] {trace : Option (Argument Path)}
    (h : ∀ place, trace = some place → place.Covered P (Path.Writable P))
    (is : List Instruction) : Gives P (fun _ => True) (writeTrace trace is) w := by
  cases trace with
  | none => exact gives_pure trivial
  | some place =>
      exact gives_needThen (h place rfl) fun p _ hp => gives_writeBelow hP hp _

/-- What was loaded was decoded, with options that are covered. -/
def Loaded [Codecs] (P : Error → Prop) (options : Except Error Options) (session : Session) :
    Prop :=
  ∃ data o, options = .ok o ∧ o.Covered P ∧ Session.load data o = .ok session

theorem gives_loadScript [Codecs] [Host] {p : Path} {options : Except Error Options}
    {trace : Option (Argument Path)} (hnull : p.hasNull = true → P (.file .nullInPath))
    (herror : ∀ e, options = .error e → P e) (hok : ∀ o, options = .ok o → o.Covered P)
    (htrace : ∀ place, trace = some place → place.Covered P (Path.Writable P)) :
    Gives P (Loaded P options) (loadScript p options trace) w := by
  refine (gives_writeTrace hP htrace []).bind fun {_ w} _ _ => ?_
  refine gives_checkThen herror fun o ho => ?_
  refine gives_isFileThen hP fun isFile => gives_guard (hP _ rfl) ?_
  refine gives_readFileThen hP hnull fun data _ => (gives_say _).bind fun {_ w} _ _ => ?_
  cases hload : Session.load data o with
  | error interrupted =>
      refine (gives_writeTrace hP htrace _).bind fun {_ w} _ _ => gives_fail ?_
      rcases Session.load_eq_error hload with hreported | hcodec
      · exact hP _ hreported
      · exact (hok o ho).decoding _ hcodec
  | ok session =>
      refine (gives_writeTrace hP htrace _).bind fun {_ w} _ _ => ?_
      exact (gives_say _).bind fun _ _ => gives_pure ⟨data, o, ho, hok o ho, hload⟩

/-! ## options -/

theorem encodingName_eq_error [Codecs] {encoding : Argument String}
    (h : encoding.Covered P (Encoding.Covered P)) {e : Error}
    (he : encodingName encoding = .error e) : P e := by
  cases encoding with
  | blank =>
      cases he
      exact h .encoding
  | given name =>
      obtain hreported | ⟨rfl, hnull⟩ := Encoding.canonicalName_eq_error he
      · exact hP _ hreported
      · exact h.null hnull

theorem fails_encodingName [Codecs] {encoding : Argument String}
    (h : encoding.Covered P (Encoding.Covered P)) {c : String} (hc : encodingName encoding = .ok c)
    {way : Conversion} {e : Error} (he : Encoding.Fails c way e) : P e := by
  cases encoding with
  | blank => cases hc
  | given name =>
      obtain hreported | ⟨message, hrefuses, rfl⟩ := he.of_canonical hc
      · exact hP _ hreported
      · exact h.refuses hc hrefuses

omit hP in
/-- The encoding of options is the one that was asked for. -/
theorem exists_encoding_of_optionsOf {script : ScriptArguments}
    {outputEncoding : Option (Argument String)} {allowOverflow : Bool} {o : Options}
    (h : optionsOf script outputEncoding allowOverflow = .ok o) :
    ∃ name, script.encoding = .given name ∧ Encoding.canonicalName name = .ok o.encoding := by
  obtain ⟨version, -, h⟩ := andThen_eq_ok_iff.mp h
  obtain ⟨encoding, hencoding, h⟩ := andThen_eq_ok_iff.mp h
  obtain ⟨output, -, h⟩ := andThen_eq_ok_iff.mp h
  cases h
  obtain ⟨name, hname, hc⟩ := andThen_eq_ok_iff.mp hencoding
  exact ⟨name, need_eq_ok_iff.mp hname, hc⟩

/-- Options that arguments ask for are covered if the arguments are. -/
theorem optionsOf_covered [Codecs] {script : ScriptArguments}
    {outputEncoding : Option (Argument String)} (allowOverflow : Bool)
    (hscript : script.encoding.Covered P (Encoding.Covered P))
    (houtput : ∀ name, outputEncoding = some name → name.Covered P (Encoding.Covered P)) :
    (∀ e, optionsOf script outputEncoding allowOverflow = .error e → P e) ∧
      ∀ o, optionsOf script outputEncoding allowOverflow = .ok o → o.Covered P := by
  constructor
  · intro e he
    rcases andThen_eq_error_iff.mp he with he | ⟨version, -, he⟩
    · rw [Version.ofKey] at he
      split at he
      · cases he
      · cases he
        exact hP _ rfl
    rcases andThen_eq_error_iff.mp he with he | ⟨encoding, -, he⟩
    · exact encodingName_eq_error hP hscript he
    rcases andThen_eq_error_iff.mp he with he | ⟨output, -, he⟩
    · cases outputEncoding with
      | none => cases he
      | some name =>
          rcases andThen_eq_error_iff.mp he with he | ⟨c, -, he⟩
          · exact encodingName_eq_error hP (houtput name rfl) he
          · cases he
    · cases he
  · intro o ho
    obtain ⟨version, -, ho⟩ := andThen_eq_ok_iff.mp ho
    obtain ⟨encoding, hencoding, ho⟩ := andThen_eq_ok_iff.mp ho
    obtain ⟨output, hmapped, ho⟩ := andThen_eq_ok_iff.mp ho
    cases ho
    refine ⟨fun e he => fails_encodingName hP hscript hencoding he, fun e he => ?_⟩
    cases outputEncoding with
    | none =>
        cases hmapped
        exact fails_encodingName hP hscript hencoding he
    | some name =>
        obtain ⟨c, hc, hmapped⟩ := andThen_eq_ok_iff.mp hmapped
        cases hmapped
        exact fails_encodingName hP (houtput name rfl) hc he

theorem readingOptions_covered [Codecs] {script : ScriptArguments}
    (hscript : script.encoding.Covered P (Encoding.Covered P)) :
    (∀ e, readingOptions script = .error e → P e) ∧
      ∀ o, readingOptions script = .ok o → o.Covered P :=
  optionsOf_covered hP false hscript (by simp)

/-! ## listings and sheets -/

section Texts

variable [Codecs] [Host] {options : Except Error Options} {session : Session}
  {output : Argument Path} (hloaded : Loaded P options session)
  (houtput : output.Covered P (Path.Writable P))
  (hwritable : ∀ o text, options = .ok o → Encoding.isWritable o.encoding text = false →
    P (.file .unwritable))
include hloaded houtput hwritable

/-- Listings of what was decoded can be written, if UTF-8 can hold them. -/
theorem gives_writeListing (json : Bool) :
    Gives P (fun _ => True) (writeListing json session output) w := by
  obtain ⟨data, o, ho, -, hload⟩ := hloaded
  obtain ⟨-, rfl, hdecode⟩ := Session.load_eq_ok hload
  obtain ⟨hrender, text, htext⟩ := Image.exists_render_of_decode hdecode
  obtain ⟨listing, hlisting⟩ := hrender (some session.image) session.decoded.version
  refine gives_needThen houtput fun p _ hp => ?_
  refine (gives_makeDirectory hP hp.above).bind fun {_ w} _ _ => ?_
  refine gives_checkThen (fun e he => ?_) fun text _ =>
    gives_writeText hP hp.null (hwritable _ text ho)
  -- the instructions can be rendered either way, so this step never fails
  cases json with
  | true => cases htext.symm.trans he
  | false => cases hlisting.symm.trans he

theorem gives_writeSheet : Gives P (fun _ => True) (writeSheet session output) w := by
  obtain ⟨data, o, ho, hcovered, hload⟩ := hloaded
  obtain ⟨-, rfl, -⟩ := Session.load_eq_ok hload
  refine gives_checkThen (fun e he => ?_) fun entries _ => (gives_say _).bind fun {_ w} _ _ => ?_
  · exact (Session.entries_eq_error he).elim (hP e) (hcovered.decoding e)
  · refine gives_needThen houtput fun p _ hp => ?_
    refine (gives_makeDirectory hP hp.above).bind fun {_ w} _ _ => ?_
    exact (gives_writeText hP hp.null (hwritable _ _ ho)).bind fun _ _ => gives_say _

end Texts

/-! ## directories of scripts -/

/-- Work on scripts whose failures are all covered. -/
def Works [Codecs] [Host] (P : Error → Prop) (options : Except Error Options)
    (work : Session → Argument Path → Run Unit) : Prop :=
  ∀ {session output w}, Loaded P options session → Argument.Covered P (Path.Writable P) output →
    Gives P (fun _ => True) (work session output) w

section Scripts

variable [Codecs] [Host] {script : ScriptArguments} {work : Session → Argument Path → Run Unit}
  (hscript : script.Covered P) (hwork : Works P (readingOptions script) work)
include hscript hwork

theorem gives_eachFile {output : Path} (houtput : output.Covered P) {ending name : String}
    (hending : '\x00' ∉ ending.toList) (hname : '\x00' ∉ name.toList) :
    Gives P (fun _ => True) (eachFile script work output ending name) w := by
  obtain ⟨herror, hok⟩ := readingOptions_covered hP hscript.encoding
  have hinput : (script.input.child name).hasNull = true → P (.file .nullInPath) := fun hnull =>
    hscript.input (Path.hasNull_of_child hname hnull)
  have houtput : (output.child (name ++ ending)).Writable P :=
    houtput.writable_child (by simp [hname, hending])
  have hone : Gives P (fun _ => True) (do
      let session ← loadScript (script.input.child name) (readingOptions script)
        (fileTrace script.trace name)
      work session (.given (output.child (name ++ ending)))) w :=
    (gives_loadScript hP hinput herror hok (fileTrace_covered hscript.trace hname)).bind
      fun _ hloaded => hwork hloaded houtput
  refine (gives_attempt hone).bind fun {result w} _ hresult => ?_
  cases result with
  | ok _ => exact gives_pure trivial
  | error e =>
      dsimp only
      split
      · exact (gives_say _).bind fun _ _ => gives_pure trivial
      · exact gives_fail (hresult e rfl)

theorem gives_allFiles {output : Path} (houtput : output.Covered P) {ending : String}
    (hending : '\x00' ∉ ending.toList) {names : List String}
    (hnames : ∀ name ∈ names, '\x00' ∉ name.toList) :
    Gives P (fun _ => True) (allFiles script work output ending names) w := by
  induction names generalizing w with
  | nil => exact gives_pure trivial
  | cons name names ih =>
      rw [List.forall_mem_cons] at hnames
      refine (gives_eachFile hP hscript hwork houtput hending hnames.1).bind fun {_ w} _ _ => ?_
      exact (ih hnames.2).bind fun _ _ => gives_pure trivial

/-- A script, or a directory of scripts, ends with the status 0 or 1. -/
theorem gives_forScripts {output : Argument Path} (houtput : output.Covered P (Path.Covered P))
    (title : String) {ending : String} (hending : '\x00' ∉ ending.toList) :
    Gives P (fun n => n = 0 ∨ n = 1) (forScripts title script work output ending) w := by
  obtain ⟨herror, hok⟩ := readingOptions_covered hP hscript.encoding
  refine gives_askThen (fun e he => ?_) fun isDirectory _ => ?_
  · obtain ⟨fault, path, rfl⟩ := Tree.isDirectory_eq_error he
    exact hP _ rfl
  · cases isDirectory with
    | false =>
        have hloads := gives_loadScript (w := w) hP hscript.input herror hok hscript.writable_trace
        refine hloads.bind fun {_ w} _ hloaded => ?_
        exact (hwork hloaded houtput.writable).bind fun _ _ => gives_pure (.inl rfl)
    | true =>
        refine gives_askThen (fun e he => ?_) fun names hnames => ?_
        · exact covered_at hP hscript.input (Tree.fileNames_eq_error he)
        refine gives_needThen houtput fun directory _ hdirectory => ?_
        refine (gives_makeDirectory hP hdirectory).bind fun {_ w} _ _ => ?_
        have hall := gives_allFiles (w := w) hP hscript hwork hdirectory hending
          fun name hname => Tree.null_notMem_of_fileNames hnames hname
        rw [Host.progress_eq]
        refine hall.bind fun {failures w} _ _ => ?_
        split
        · exact gives_pure (.inl rfl)
        · exact (gives_say _).bind fun _ _ => gives_pure (.inr rfl)

end Scripts

/-! ## revisions -/

/-- A sheet fails on its path, or is not UTF-8, or is malformed. -/
theorem gives_readSheet [Host] {sheet : Argument Path} (hsheet : sheet.Covered P (Path.Covered P))
    (hutf8 : ∀ p data, sheet = .given p → w.files.readFile p = .ok data →
      Encoding.Utf8.decodeStrict? data = none → P .undecodableSheet) :
    Gives P (fun _ => True) (readSheet sheet) w := by
  refine gives_needThen hsheet fun p hgiven hp => ?_
  refine gives_isFileThen hP fun isFile => gives_guard (hP _ rfl) ?_
  refine gives_readFileThen hP hp.null fun data hdata => ?_
  split
  · next hnone => exact gives_fail (hutf8 p data hgiven hdata hnone)
  · refine (gives_say _).bind fun {_ w} _ _ => ?_
    refine gives_checkThen (fun e he => hP e (Sheet.parse_eq_error he)) fun entries _ => ?_
    exact (gives_say _).bind fun _ _ => gives_pure trivial

/-- A script that was loaded and revised can be written. -/
theorem gives_saveScript [Host] {session : Session} {output : Argument Path}
    (hwrite : ∃ data, session.toBytes = .ok data) (houtput : output.Covered P (Path.Covered P)) :
    Gives P (fun _ => True) (saveScript session output) w := by
  obtain ⟨data, hdata⟩ := hwrite
  refine gives_checkThen (fun e he => by cases hdata.symm.trans he) fun data _ => ?_
  refine gives_needThen houtput fun p _ hp => ?_
  exact (gives_writeBelow hP hp.writable _).bind fun _ _ => gives_say _

theorem gives_revise [Codecs] [Host] {mode : Mode} {script : ScriptArguments}
    {sheet output : Argument Path} {outputEncoding : Option (Argument String)}
    {allowOverflow : Bool}
    (hscript : script.Covered P) (hsheet : sheet.Covered P (Path.Covered P))
    (houtput : output.Covered P (Path.Covered P))
    (hencoding : ∀ name, outputEncoding = some name → name.Covered P (Encoding.Covered P))
    (hutf8 : ∀ {session w' p data},
      loadScript script.input (optionsOf script outputEncoding allowOverflow) script.trace w =
        .ok session w' → sheet = .given p → w'.files.readFile p = .ok data →
      Encoding.Utf8.decodeStrict? data = none → P .undecodableSheet) :
    Gives P (fun n => n = 0 ∨ n = 1)
      (revise mode script sheet output outputEncoding allowOverflow) w := by
  obtain ⟨herror, hok⟩ := optionsOf_covered hP allowOverflow hscript.encoding hencoding
  have hloads := gives_loadScript (w := w) hP hscript.input herror hok hscript.writable_trace
  refine hloads.bind fun {session w} hrun hloaded => ?_
  obtain ⟨data, o, -, ho, hload⟩ := hloaded
  obtain ⟨-, rfl, -⟩ := Session.load_eq_ok hload
  have hsheet := gives_readSheet hP hsheet fun p data hgiven hdata hnone =>
    hutf8 hrun hgiven hdata hnone
  refine hsheet.bind fun {texts w} _ _ => (gives_say _).bind fun {_ w} _ _ => ?_
  refine gives_checkThen (fun e he => ?_) fun report hreport => ?_
  · rw [Session.result_apply] at he
    rcases Revision.result_eq_error he with hreported | hdecoding | hencoding
    · exact hP e hreported
    · exact ho.decoding e hdecoding
    · exact ho.encoding e hencoding
  · have hwrite := Session.exists_toBytes_of_apply hload hreport
    refine (gives_saveScript hP hwrite houtput).bind fun _ _ => ?_
    exact (gives_print (by simp [prints_reportLine])).bind fun _ _ => gives_pure (.inl rfl)

/-! ## archives -/

theorem gives_writeEntries {data : Bytes} {output : Path} {entries : List Archive.Entry}
    (hnull : ∀ e ∈ entries, (output.child e.name).hasNull = true → P (.file .nullInPath)) :
    Gives P (fun _ => True) (writeEntries data output entries) w := by
  induction entries generalizing w with
  | nil => exact gives_pure trivial
  | cons e entries ih =>
      rw [List.forall_mem_cons] at hnull
      refine gives_checkThen (fun e he => hP e (Archive.payload_eq_error he)) fun payload _ => ?_
      exact (gives_writeFile hP hnull.1 payload).bind fun _ _ => ih hnull.2

theorem gives_extract [Host] {input : Path} {output : Argument Path}
    (hinput : input.hasNull = true → P (.file .nullInPath))
    (houtput : output.Covered P (Path.Covered P)) :
    Gives P (fun _ => True) (extract input output) w := by
  refine gives_readFileThen hP hinput fun data _ => ?_
  refine gives_checkThen (fun e he => hP e (Archive.readIndex_eq_error he))
    fun entries hentries => ?_
  refine gives_needThen houtput fun p _ hp => ?_
  refine (gives_makeDirectory hP hp).bind fun {_ w} _ _ => ?_
  have hnull : ∀ e ∈ entries, (p.child e.name).hasNull = true → P (.file .nullInPath) :=
    fun e he => (hp.writable_child (Archive.null_notMem_name hentries he)).null
  rw [Host.progress_eq]
  refine (gives_writeEntries hP hnull).bind fun {_ w} _ _ => ?_
  exact (gives_say _).bind fun _ _ => gives_pure trivial

theorem gives_unpack [Host] {input : Path} {output : Argument Path}
    (hinput : input.hasNull = true → P (.file .nullInPath))
    (houtput : output.Covered P (Path.Covered P))
    (hprints : ∀ {path data entries}, output = .given path → w.files.readFile input = .ok data →
      Archive.readIndex data = .ok entries →
      Host.prints (extractedLine path entries.length) = false →
      P (.file (.unprintable (extractedLine path entries.length)))) :
    Gives P (fun n => n = 0 ∨ n = 1) (unpack input output) w := by
  refine (gives_extract hP hinput houtput).bind fun {result w'} hrun _ => ?_
  obtain ⟨path, count⟩ := result
  obtain ⟨hgiven, entries, rfl, data, hdata, hentries, -⟩ := extract_eq_ok hrun
  exact (gives_print (hprints hgiven hdata hentries)).bind fun _ _ => gives_pure (.inl rfl)

/-- Reading files leaves the world as it is. -/
theorem gives_readFilesThen {p : Path} {names : List String} {next : List Bytes → Run β}
    (hnull : ∀ name ∈ names, (p.child name).hasNull = true → P (.file .nullInPath))
    (hnext : ∀ payloads, List.Forall₂
      (fun name payload => w.files.readFile (p.child name) = .ok payload) names payloads →
      Gives P R (next payloads) w) :
    Gives P R (readFiles p names >>= next) w := by
  have hread : Gives P (fun _ => True) (readFiles p names) w := by
    clear hnext
    induction names with
    | nil => exact gives_pure trivial
    | cons name names ih =>
        rw [List.forall_mem_cons] at hnull
        refine gives_readFileThen hP hnull.1 fun data _ => ?_
        exact (ih hnull.2).bind fun _ _ => gives_pure trivial
  refine hread.bind fun {payloads w'} hrun _ => ?_
  obtain ⟨rfl, hpayloads⟩ := readFiles_eq_ok hrun
  exact hnext payloads hpayloads

theorem gives_create [Host] {input : Path} {output : Argument Path}
    (hinput : input.hasNull = true → P (.file .nullInPath))
    (houtput : output.Covered P (Path.Covered P))
    (hfits : ∀ {names numbered payloads n}, w.files.fileNames input = .ok names →
      Archive.numberedFiles input.toString names = .ok numbered →
      List.Forall₂ (fun name payload => w.files.readFile (input.child name) = .ok payload)
        numbered payloads →
      Archive.Overflows payloads n → P (.fieldRange 32 n)) :
    Gives P (fun _ => True) (create input output) w := by
  refine gives_askThen (fun e he => ?_) fun names hnames => ?_
  · exact covered_at hP hinput (Tree.fileNames_eq_error he)
  refine gives_checkThen (fun e he => hP e (Archive.numberedFiles_eq_error he))
    fun numbered hnumbered => ?_
  have hnull : ∀ name ∈ numbered, (input.child name).hasNull = true → P (.file .nullInPath) := by
    intro name hname hnull
    have hmem := Archive.mem_of_numberedFiles hnumbered hname
    have hfree := Tree.null_notMem_of_fileNames hnames hmem
    exact hinput (Path.hasNull_of_child hfree hnull)
  rw [Host.progress_eq]
  refine gives_readFilesThen hP hnull fun payloads hpayloads => ?_
  refine gives_checkThen (fun e he => ?_) fun data _ => ?_
  · obtain hreported | ⟨n, hn, rfl⟩ := Archive.build_eq_error he
    · exact hP e hreported
    · exact hfits hnames hnumbered hpayloads hn
  · refine gives_needThen houtput fun p _ hp => ?_
    refine (gives_writeBelow hP hp.writable data).bind fun {_ w} _ _ => ?_
    exact (gives_say _).bind fun _ _ => gives_pure trivial

end Reported

/-! ## actions -/

/-- A revision passes on that its sheet is not UTF-8. -/
theorem revise_of_undecodable [Codecs] [Host] {mode : Mode} {script : ScriptArguments}
    {sheet : Path} {output : Argument Path} {outputEncoding : Option (Argument String)}
    {allowOverflow : Bool} {session : Session} {w' : World} {data : Bytes}
    (hload : loadScript script.input (optionsOf script outputEncoding allowOverflow) script.trace
      w = .ok session w')
    (hdata : w'.files.readFile sheet = .ok data)
    (hnone : Encoding.Utf8.decodeStrict? data = none) :
    revise mode script (.given sheet) output outputEncoding allowOverflow w =
      .error .undecodableSheet w' := by
  have hfile : ask (fun t => t.isFile sheet) w' = .ok true w' :=
    ask_of_ok (Tree.isFile_of_readFile hdata)
  have hsheet : readSheet (.given sheet) w' = .error .undecodableSheet w' := by
    rw [readSheet, bind_of_ok (check_need_given .path), bind_of_ok hfile]
    simp only [Bool.not_true, Bool.false_eq_true, if_false]
    rw [bind_of_ok (readFile_of_ok hdata), hnone]
    rfl
  rw [revise]
  exact runThen_eq_error_iff.mpr (.inr ⟨session, w', hload, runThen_eq_error_iff.mpr (.inl hsheet)⟩)

end Run

namespace Action

/-- A failure that is reported or that the action can pass on. -/
def MayFail [Codecs] [Host] (a : Action) (files : Tree) (e : Error) : Prop :=
  e.isReported = true ∨ a.PassesOn files e

variable [Codecs] [Host] {a : Action} {files : Tree}

theorem covered_null {p : Path} (hp : p ∈ a.paths) (h : p.hasNull = true) :
    a.MayFail files (.file .nullInPath) :=
  .inr (.nullInPath hp h)

omit [Codecs] [Host] in
theorem paths_eq (a : Action) :
    ∃ input, a.paths = input :: a.places.filterMap Argument.toOption := by
  cases a with
  | list script output json => exact ⟨script.input, rfl⟩
  | «export» script output => exact ⟨script.input, rfl⟩
  | revise mode script sheet output outputEncoding allowOverflow => exact ⟨script.input, rfl⟩
  | unpack input output => exact ⟨input, by cases output <;> rfl⟩
  | pack input output => exact ⟨input, by cases output <;> rfl⟩

omit [Codecs] [Host] in
theorem mem_paths_of_mem_places {p : Path} (h : .given p ∈ a.places) : p ∈ a.paths := by
  obtain ⟨input, hpaths⟩ := a.paths_eq
  rw [hpaths]
  exact List.mem_cons_of_mem _ (List.mem_filterMap.mpr ⟨.given p, h, rfl⟩)

theorem covered_place {place : Argument Path} (h : place ∈ a.places) :
    place.Covered (a.MayFail files) (Path.Covered (a.MayFail files)) := by
  cases place with
  | blank => exact fun use => .inr (.blankPlace use h)
  | given p =>
      exact {
        null := covered_null (mem_paths_of_mem_places h)
        deep := fun hdeep => .inr (.tooDeep h hdeep) }

theorem covered_encoding {name : Argument String} (h : name ∈ a.encodings) :
    name.Covered (a.MayFail files) (Encoding.Covered (a.MayFail files)) := by
  cases name with
  | blank => exact fun use => .inr (.blankName use h)
  | given name =>
      exact {
        null := fun hnull => .inr (.nullInName h hnull)
        refuses := fun hc hrefuses => .inr (.refusingEncoding h hc hrefuses) }

/-- The texts of a script are written if UTF-8 can hold them. -/
theorem covered_texts {script : ScriptArguments} (hwrites : a.writesTexts = true)
    (hencoding : script.encoding ∈ a.encodings) (o : Options) (text : String)
    (ho : Run.readingOptions script = .ok o)
    (htext : Encoding.isWritable o.encoding text = false) :
    a.MayFail files (.file .unwritable) := by
  obtain ⟨name, hname, hc⟩ := Run.exists_encoding_of_optionsOf ho
  exact .inr (.unwritable hwrites (hname ▸ hencoding) hc htext)

theorem covered_script {script : ScriptArguments} (hinput : script.input ∈ a.paths)
    (hencoding : script.encoding ∈ a.encodings) (htrace : script.trace.toList ⊆ a.places) :
    script.Covered (a.MayFail files) where
  input := covered_null hinput
  encoding := covered_encoding hencoding
  trace _ h := covered_place (htrace (Option.mem_toList.mpr h))

/-- An action ends with the status 0 or 1, or with a failure that is reported
or passed on. -/
theorem gives (a : Action) (files : Tree) :
    Run.Gives (a.MayFail files) (fun n => n = 0 ∨ n = 1) (Run.action a) ⟨files, [], []⟩ := by
  have hP : ∀ e : Error, e.isReported = true → a.MayFail files e := fun _ => .inl
  cases a with
  | list script output json =>
      have hscript : script.Covered (MayFail (.list script output json) files) :=
        covered_script (by simp [paths]) (by simp [encodings]) (by simp [places])
      refine Run.gives_forScripts hP hscript (fun hloaded houtput => ?_) ?_ _ ?_
      · exact Run.gives_writeListing hP hloaded houtput
          (covered_texts rfl (by simp [encodings])) json
      · exact covered_place (by simp [places])
      · cases json <;> decide
  | «export» script output =>
      have hscript : script.Covered (MayFail (.export script output) files) :=
        covered_script (by simp [paths]) (by simp [encodings]) (by simp [places])
      refine Run.gives_forScripts hP hscript (fun hloaded houtput => ?_) ?_ _ (by decide)
      · exact Run.gives_writeSheet hP hloaded houtput (covered_texts rfl (by simp [encodings]))
      · exact covered_place (by simp [places])
  | revise mode script sheet output outputEncoding allowOverflow =>
      refine Run.gives_revise hP (covered_script ?_ ?_ ?_) (covered_place ?_) (covered_place ?_)
        (fun name hname => covered_encoding ?_) fun hload hsheet hdata hnone => ?_
      · simp [paths]
      · simp [encodings]
      · simp [places]
      · simp [places]
      · simp [places]
      · simp [encodings, hname]
      · subst hsheet
        exact .inr (.undecodableSheet ⟨_, _, _, _, _, _, _, _, _, rfl, hload, hdata, hnone⟩)
  | unpack input output =>
      refine Run.gives_unpack hP (covered_null ?_) (covered_place ?_) ?_
      · simp [paths]
      · simp [places]
      · rintro path data entries rfl hdata hentries hprints
        exact .inr (.unprintable (.unpack hdata hentries) hprints)
  | pack input output =>
      refine (Run.gives_create hP (covered_null ?_) (covered_place ?_) ?_).bind
        fun {path w} hrun _ => ?_
      · simp [paths]
      · simp [places]
      · intro names numbered payloads n hnames hnumbered hpayloads hn
        exact .inr (.fieldRange ⟨_, _, _, _, _, rfl, hnames, hnumbered, hpayloads, hn⟩)
      · obtain ⟨rfl, -⟩ := Run.create_eq_ok hrun
        refine (Run.gives_print fun hprints => ?_).bind fun _ _ => Run.gives_pure (.inl rfl)
        exact .inr (.unprintable (.pack input path) hprints)

end Action

namespace Command

/-- **Commands end with the status 0 or 1**, or they pass on a failure that
has one of the causes of `Action.PassesOn`.  That a sheet is not UTF-8 is
always passed on. -/
theorem status_run [Codecs] [Host] (c : Command) (files : Tree) :
    ((c.run files).status = .ok 0 ∨ (c.run files).status = .ok 1 ∨
      ∃ e, (c.run files).status = .error e ∧ c.action.PassesOn files e) ∧
    (c.action.MisreadsSheet files → (c.run files).status = .error .undecodableSheet) := by
  constructor
  · have hgives := c.action.gives files
    rw [run]
    split
    · next n w hrun =>
      exact (hgives.ok hrun).imp (congrArg _) fun h => .inl (congrArg _ h)
    · next e w hrun =>
      split
      · exact .inr (.inl rfl)
      · next hunreported =>
        exact .inr (.inr ⟨e, rfl, (hgives.error hrun).resolve_left hunreported⟩)
  · rintro ⟨mode, script, sheet, output, outputEncoding, allowOverflow, session, w, data, haction,
      hload, hdata, hnone⟩
    have hrun : Run.action c.action ⟨files, [], []⟩ = .error .undecodableSheet w := by
      rw [haction]
      exact Run.revise_of_undecodable hload hdata hnone
    rw [run, hrun]
    rfl

/-- A script without code, and a sheet of one byte, which is not UTF-8. -/
abbrev besideBytes : Tree := besideSheet (List.replicate 12 0) [0xFF]

theorem exists_loadScript_besideBytes :
    ∃ session w, Run.loadScript plainScript.input (Run.optionsOf plainScript none false)
      plainScript.trace ⟨besideBytes, [], []⟩ = .ok session w ∧
      w.files.readFile ⟨0, ["t.txt"]⟩ = .ok [0xFF] := by
  have hload := load_empty [] plainOptions
  have hdata : besideBytes.readFile plainScript.input = .ok (List.replicate 12 0) := rfl
  rw [List.append_nil] at hload
  obtain ⟨w, hw, hfiles⟩ :=
    Run.loadScript_of_load (w := ⟨besideBytes, [], []⟩) optionsOf_plainScript hdata hload
  exact ⟨_, w, hw, by rw [hfiles]; rfl⟩

/-- A sheet that is not UTF-8 is no fault of the arguments. -/
theorem status_run_besideBytes :
    let c : Command := ⟨false, .revise .rebuild plainScript (.given ⟨0, ["t.txt"]⟩)
      (.given ⟨0, ["b.ail"]⟩) none false⟩
    c.action.MisreadsSheet besideBytes ∧
      (c.run besideBytes).status = .error .undecodableSheet := by
  intro c
  obtain ⟨session, w, hload, hdata⟩ := exists_loadScript_besideBytes
  have hmisreads : c.action.MisreadsSheet besideBytes :=
    ⟨_, _, _, _, _, _, session, w, [0xFF], rfl, hload, hdata, rfl⟩
  exact ⟨hmisreads, (status_run c besideBytes).2 hmisreads⟩

/-- A command with sound arguments can end without a status. -/
theorem import_passes_on_undecodable :
    let a : Action := .revise .append plainScript (.given ⟨0, ["t.txt"]⟩) (.given ⟨0, ["b.ail"]⟩)
      none false
    ((∀ p ∈ a.paths, p.hasNull = false ∧ p.parts.length = 1) ∧ .blank ∉ a.places ∧
      a.encodings = [.given "cp932"]) ∧
    ∀ n, (run ⟨false, a⟩ besideBytes).status ≠ .ok n := by
  intro a
  obtain ⟨session, w, hload, hdata⟩ := exists_loadScript_besideBytes
  have hrun : Run.action a ⟨besideBytes, [], []⟩ = .error .undecodableSheet w :=
    Run.revise_of_undecodable hload hdata rfl
  refine ⟨⟨by decide, by decide, rfl⟩, fun n => ?_⟩
  rw [run, hrun]
  intro hstatus
  cases hstatus

end Command

end Scenario
