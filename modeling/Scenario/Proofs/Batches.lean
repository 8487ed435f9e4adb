import Scenario.Proofs.Exits
import Scenario.Proofs.Unedited

/-!
# Scenario.Proofs.Batches

Listings and sheets of all the scripts of a directory, compared with those of
each script on its own.

1. `Product.of?` — what is made of a script depends on its file alone.  A
   command for one script writes it, unless the name of the output is too long
   (`Product.single_cases`).
2. `Product.allFiles_eq` — the loop over a directory writes the same, file by
   file.  It goes on behind a script that cannot be read.  It does not go on
   behind a name that is too long, since that is no fault of a script.
3. `Product.batch_writes` — hence a batch writes what its scripts would give
   one by one, as far as it goes.
-/

namespace Scenario

/-! ## what is made of a script -/

/-- What is made of scripts: a listing, of lines or as a document, or a
sheet. -/
inductive Product where
  | listing (json : Bool)
  | sheet

namespace Product

/-- What the name of an output ends with in a batch. -/
def ending : Product → String
  | listing json => if json then ".json" else ".txt"
  | sheet => ".txt"

/-- The title of the progress bar over a batch. -/
def title : Product → String
  | listing _ => "disasm"
  | sheet => "export"

/-- The action that makes it. -/
def action (k : Product) (script : ScriptArguments) (output : Path) : Action :=
  match k with
  | listing json => .list script (.given output) json
  | sheet => .export script (.given output)

theorem append_ending_ne_dots (k : Product) (name : String) : name ++ k.ending ≠ ".." := by
  have hending : 4 ≤ k.ending.length := by rcases k with (_ | _) | _ <;> decide
  intro hdots
  have hlength := congrArg String.length hdots
  rw [String.length_append] at hlength
  have htwo : "..".length = 2 := by decide
  omega

theorem null_notMem_append_ending (k : Product) {name : String} (h : '\x00' ∉ name.toList) :
    '\x00' ∉ (name ++ k.ending).toList := by
  rcases k with (_ | _) | _ <;> simp [ending, h]

theorem append_ending_inj {k : Product} {a b : String} (h : a ++ k.ending = b ++ k.ending) :
    a = b := by
  rw [← String.toList_inj] at h ⊢
  simpa using h

/-- The step that writes it. -/
def work [Codecs] [Host] : Product → Session → Argument Path → Run Unit
  | listing json => Run.writeListing json
  | sheet => Run.writeSheet

theorem action_eq [Codecs] [Host] (k : Product) (script : ScriptArguments) (output : Path) :
    Run.action (k.action script output) =
      Run.forScripts k.title script k.work (.given output) k.ending := by
  cases k <;> rfl

/-- The text of it. -/
def text [Codecs] (k : Product) (session : Session) : Except Error String :=
  match k with
  | listing json =>
    if json then Listing.renderJson session.decoded.instructions else session.listing
  | sheet => session.sheet

/-- The bytes that are made of a file with a script, if it can be read. -/
def of? [Codecs] (k : Product) (options : Options) (files : Tree) (p : Path) : Option Bytes := do
  let data ← (files.readFile p).toOption
  let session ← (Session.load data options).toOption
  let text ← (k.text session).toOption
  return Encoding.Utf8.encode text

/-- There is a text of every script that was loaded. -/
theorem exists_text [Codecs] {data : Bytes} {options : Options} {s : Session}
    (h : Session.load data options = .ok s) (k : Product) : ∃ text, k.text s = .ok text := by
  obtain ⟨-, -, hdecode⟩ := Session.load_eq_ok h
  obtain ⟨hlines, hdocument⟩ := Image.exists_render_of_decode hdecode
  cases k with
  | listing json =>
      cases json with
      | true => exact hdocument
      | false => exact hlines (some s.image) s.decoded.version
  | sheet =>
      obtain ⟨stored, hstored⟩ := Session.exists_storedTexts_of_load h
      rw [text, Session.sheet, Session.entries_of_storedTexts hstored]
      exact ⟨_, rfl⟩

theorem of?_of_load [Codecs] {options : Options} {files : Tree} {p : Path} {data : Bytes}
    {s : Session} {text : String} (k : Product) (hdata : files.readFile p = .ok data)
    (hload : Session.load data options = .ok s) (htext : k.text s = .ok text) :
    k.of? options files p = some (Encoding.Utf8.encode text) := by
  simp [of?, hdata, hload, htext, Except.toOption]

theorem of?_of_error [Codecs] {options : Options} {files : Tree} {p : Path} {data : Bytes}
    {interrupted : Interrupted} (k : Product) (hdata : files.readFile p = .ok data)
    (hload : Session.load data options = .error interrupted) : k.of? options files p = none := by
  simp [of?, hdata, hload, Except.toOption]

end Product

/-! ## writing it -/

namespace Run

variable {α β : Type} {w w' : World}

theorem bind_of_error {x : Run α} {f : α → Run β} {e : Error} (h : x w = .error e w') :
    (x >>= f) w = .error e w' :=
  runThen_eq_error_iff.mpr (.inl h)

theorem makeDirectory_of_ok [Host] {p : Path} {t : Tree}
    (h : w.files.makeDirectory p = (t, .ok ())) :
    makeDirectory p w = .ok () { w with files := t } :=
  makeDirectory_eq_ok_iff.mpr ⟨t, h, rfl⟩

theorem writeText_of_writable [Codecs] {encoding text : String}
    (h : Encoding.isWritable encoding text = true) (p : Path) :
    writeText encoding p text = writeFile p (Encoding.Utf8.encode text) :=
  if_pos h

theorem writeFile_of_error {p : Path} {e : FileError} (h : w.files.target p = .error e)
    (data : Bytes) : writeFile p data w = .error (.file e) w := by
  apply bind_of_error
  rw [ask, h]

theorem attempt_of_ok {x : Run α} {a : α} (h : x w = .ok a w') : attempt x w = .ok (.ok a) w' := by
  rw [attempt, h]

theorem attempt_of_error {x : Run α} {e : Error} (h : x w = .error e w') :
    attempt x w = .ok (.error e) w' := by
  rw [attempt, h]

end Run

namespace Product

section Work

variable [Codecs] [Host] {w : World} {k : Product} {s : Session} {text : String}
  (htext : k.text s = .ok text) (hwritable : Encoding.isWritable s.options.encoding text = true)
  {p : Path} {t : Tree} (hmade : w.files.makeDirectory p.parent = (t, .ok ()))
include htext hwritable hmade

/-- Listings and sheets differ in what comes before the output is written; none
of it can fail, or has anything to do with files. -/
theorem work_eq :
    ∃ w₁ : World, w₁.files = t ∧ ∃ next : Unit → Run Unit, (∀ u, Run.Quiet (next u)) ∧
      k.work s (.given p) w =
        (Run.writeFile p (Encoding.Utf8.encode text) >>= next) w₁ := by
  cases k with
  | listing json =>
      rw [Product.text] at htext
      refine ⟨{ w with files := t }, rfl, pure, Run.quiet_pure, ?_⟩
      rw [work, Run.writeListing, Run.bind_of_ok (Run.check_need_given _),
        Run.bind_of_ok (Run.makeDirectory_of_ok hmade), Run.bind_of_ok (Run.check_of_ok htext),
        Run.writeText_of_writable hwritable, bind_pure]
  | sheet =>
      obtain ⟨entries, hentries, hformat⟩ := andThen_eq_ok_iff.mp htext
      cases hformat
      let note : Note := .exporting entries.length s.refs.length
      have hsay : Run.say [note] w = .ok () { w with notes := note :: w.notes } := rfl
      refine ⟨{ w with notes := note :: w.notes, files := t }, rfl,
        fun _ => Run.say [.wroteSheet p.toString], fun _ => Run.quiet_say _, ?_⟩
      rw [work, Run.writeSheet, Run.bind_of_ok (Run.check_of_ok hentries), Run.bind_of_ok hsay,
        Run.bind_of_ok (Run.check_need_given _),
        Run.bind_of_ok (Run.makeDirectory_of_ok (w := { w with notes := note :: w.notes }) hmade),
        Run.writeText_of_writable hwritable]

theorem work_of_target {l : Location} (htarget : t.target p = .ok l) :
    ∃ w', k.work s (.given p) w = .ok () w' ∧
      w'.files = t.set l (.file (Encoding.Utf8.encode text)) := by
  obtain ⟨w₁, rfl, next, hnext, hwork⟩ := work_eq htext hwritable hmade
  obtain ⟨⟨⟩, w', hquiet, hfiles⟩ := hnext () _
  rw [hwork, Run.bind_of_ok (Run.writeFile_of_target htarget _)]
  exact ⟨w', hquiet, hfiles⟩

theorem work_of_refused {e : FileError} (htarget : t.target p = .error e) :
    ∃ w', k.work s (.given p) w = .error (.file e) w' ∧ w'.files = t := by
  obtain ⟨w₁, rfl, next, -, hwork⟩ := work_eq htext hwritable hmade
  exact ⟨w₁, hwork.trans (Run.bind_of_error (Run.writeFile_of_error htarget _)), rfl⟩

end Work

/-! ## one script -/

/-- What a command for one script of a directory does, when it is carried out
on its own. -/
def single [Codecs] [Host] (k : Product) (verbose : Bool) (script : ScriptArguments)
    (output : Path) (files : Tree) (name : String) : CommandOutcome :=
  Command.run ⟨verbose, k.action { script with input := script.input.child name }
    (output.child (name ++ k.ending))⟩ files

/-- What a command for all the scripts of a directory does. -/
def batch [Codecs] [Host] (k : Product) (verbose : Bool) (script : ScriptArguments) (output : Path)
    (files : Tree) : CommandOutcome :=
  Command.run ⟨verbose, k.action script output⟩ files

end Product

namespace Tree

variable {t : Tree} {p : Path} {l : Location}

theorem isDirectory_of_readFile {data : Bytes} (h : t.readFile p = .ok data) :
    t.isDirectory p = .ok false := by
  obtain ⟨hnull, l, hlocate, hget⟩ := readFile_eq_ok_iff.mp h
  rw [isDirectory, find?, hnull, find_of_locate hlocate hget]
  rfl

theorem DirectoryAt.isDirectory_eq (h : t.DirectoryAt p l) : t.isDirectory p = .ok true := by
  rw [Tree.isDirectory, find?, h.hasNull, h.find]
  rfl

/-- The names in a directory are sorted. -/
theorem pairwise_names (t : Tree) (l : Location) : (t.names l).Pairwise (· ≤ ·) := by
  rw [names_eq]
  exact Archive.pairwise_mergeSort_le _

/-- A name is refused that is too long, or makes the path too long. -/
theorem DirectoryAt.target_child_of_not_nameFits (h : t.DirectoryAt p l) {name : String}
    (hdots : name ≠ "..") (hnull : '\x00' ∉ name.toList) (hname : ¬NameFits p name) :
    ∃ path, t.target (p.child name) = .error (.refused .nameTooLong path) := by
  have hnullChild : (p.child name).hasNull = false := by
    rw [Path.hasNull_child, h.hasNull, Bool.false_or]
    simpa using hnull
  have hlocate : t.locate (p.child name) = .error .nameTooLong := by
    by_cases hpath : (p.child name).toString.utf8ByteSize ≤ maxPath
    · have hsize : maxName < name.utf8ByteSize := by
        by_contra hsize
        exact hname ⟨hdots, Nat.not_lt.mp hsize, hpath, hnull⟩
      have hparts := h.locate
      rw [Tree.locate] at hparts ⊢
      rw [if_neg (Nat.not_lt.mpr hpath)]
      split at hparts
      · cases hparts
      · have hchild : (p.child name).parts = p.parts ++ [name] := rfl
        have hstart : (p.child name).start = p.start := rfl
        rw [hchild, hstart, List.foldlM_append, hparts]
        refine andThen_eq_error_iff.mpr (.inr ⟨l, rfl, ?_⟩)
        rw [List.foldlM_cons, step, h.isDirectory]
        dsimp only
        rw [if_neg hdots, if_pos hsize]
        rfl
    · rw [Tree.locate, if_pos (Nat.not_le.mp hpath)]
  refine ⟨(p.child name).toString, ?_⟩
  rw [target, hlocate, answer.eq_def, hnullChild]
  rfl

end Tree

/-- A directory of files that can all be read, what is to be known of how they
are read, and a directory `made` for outputs that is empty.  The encoding has a
codec that decodes every string, to characters that UTF-8 can hold. -/
structure Ready [Codecs] [Host] (script : ScriptArguments) (output : Path) (files made : Tree)
    (l : Location) (options : Options) (names : List String) : Prop where
  trace : script.trace = none
  reading : Run.readingOptions script = .ok options
  decodes : Encoding.Decodes options.encoding
  writable : ∀ text, Encoding.isWritable options.encoding text = true
  isDirectory : files.isDirectory script.input = .ok true
  fileNames : files.fileNames script.input = .ok names
  readable : ∀ name ∈ names, ∃ data, files.readFile (script.input.child name) = .ok data
  makes : files.makeDirectory output = (made, .ok ())
  directoryAt : made.DirectoryAt output l
  empty : made.names l = []

namespace Ready

variable [Codecs] [Host] {script : ScriptArguments} {output : Path} {files made : Tree}
  {l : Location} {options : Options} {names : List String}

/-- Files that are put into the directory for outputs do not change those that
are read. -/
theorem readFile_put (h : Ready script output files made l options names) {p : Path} {data : Bytes}
    (hdata : files.readFile p = .ok data) (done : List (String × Bytes)) :
    (made.put l done).readFile p = .ok data := by
  have hsame := files.sameBut_makeDirectory output
  rw [h.makes] at hsame
  obtain ⟨hnull, m, hlocate, hget⟩ := Tree.readFile_eq_ok_iff.mp (hsame.readFile hdata (by simp))
  have hfree : ∀ name, made.get? (l.child name) = none := Tree.get?_child_of_empty h.empty
  have hkeeps : made.Keeps (made.put l done) :=
    Tree.keeps_put fun f _ => Tree.isFree_of_none (hfree f.1)
  refine Tree.readFile_eq_ok_iff.mpr ⟨hnull, m, Tree.locate_of_keeps hkeeps hlocate, ?_⟩
  rw [Tree.get?_put_of_forall_ne, hget]
  rintro f - rfl
  simp [hfree f.1] at hget

theorem directoryAt_put (h : Ready script output files made l options names)
    (done : List (String × Bytes)) : (made.put l done).DirectoryAt output l := by
  refine h.directoryAt.keeps (Tree.keeps_put fun f _ => ?_)
  exact Tree.isFree_of_none (Tree.get?_child_of_empty h.empty f.1)

end Ready

/-! ## working on one file -/

namespace Product

/-- Reads a script and writes what is made of it. -/
def oneFile [Codecs] [Host] (k : Product) (script : ScriptArguments) (input output : Path) :
    Run Unit := do
  let session ← Run.loadScript input (Run.readingOptions script) none
  k.work session (.given output)

section Ready

variable [Codecs] [Host] {script : ScriptArguments} {output : Path} {files made : Tree}
  {l : Location} {options : Options} {names : List String}
  (h : Ready script output files made l options names) {name : String} (hname : name ∈ names)
  (k : Product) {w : World}

include h hname

/-- The three ways it can go: the script cannot be read, what is made of it is
written, or there is no room for its name. -/
theorem oneFile_cases {t : Tree}
    (hread : ∀ data, files.readFile (script.input.child name) = .ok data →
      w.files.readFile (script.input.child name) = .ok data)
    (hmade : w.files.makeDirectory output = (t, .ok ())) (ht : t.DirectoryAt output l)
    (hfree : t.IsFree (l.child (name ++ k.ending))) :
    let made? := k.of? options files (script.input.child name)
    let run := k.oneFile script (script.input.child name) (output.child (name ++ k.ending)) w
    (made? = none ∧ ∃ e w', run = .error e w' ∧ e.isContentFault = true ∧ w'.files = w.files) ∨
    (∃ bytes, made? = some bytes ∧ Tree.NameFits output (name ++ k.ending) ∧
      ∃ w', run = .ok () w' ∧ w'.files = t.set (l.child (name ++ k.ending)) (.file bytes)) ∨
    (∃ bytes, made? = some bytes ∧ ¬Tree.NameFits output (name ++ k.ending) ∧
      ∃ path w', run = .error (.file (.refused .nameTooLong path)) w' ∧ w'.files = t) := by
  intro made? run
  obtain ⟨data, hdata⟩ := h.readable name hname
  cases hload : Session.load data options with
  | error interrupted =>
      obtain ⟨w', hrun, hfiles⟩ := Run.loadScript_of_interrupted h.reading (hread data hdata) hload
      have hfault : interrupted.error.isContentFault = true :=
        (Session.isContentFault_of_load hload).resolve_right fun hfails =>
          h.decodes.not_fails hfails
      exact .inl ⟨k.of?_of_error hdata hload, _, w', Run.bind_of_error hrun, hfault, hfiles⟩
  | ok session =>
      obtain ⟨text, htext⟩ := k.exists_text hload
      obtain ⟨-, rfl, -⟩ := Session.load_eq_ok hload
      have hwritable := h.writable text
      obtain ⟨w₁, hrun, hfiles⟩ := Run.loadScript_of_load h.reading (hread data hdata) hload
      have hparent : (output.child (name ++ k.ending)).parent = output := by
        simp [Path.child, Path.parent]
      have hmade₁ : w₁.files.makeDirectory (output.child (name ++ k.ending)).parent =
          (t, .ok ()) := by
        rw [hparent, hfiles, hmade]
      right
      by_cases hfits : Tree.NameFits output (name ++ k.ending)
      · obtain ⟨w', hwork, hfiles'⟩ := work_of_target htext hwritable hmade₁
          (ht.target_child hfits hfree)
        exact .inl ⟨_, k.of?_of_load hdata hload htext, hfits, w',
          (Run.bind_of_ok hrun).trans hwork, hfiles'⟩
      · have hnull := Tree.null_notMem_of_fileNames h.fileNames hname
        obtain ⟨path, hrefused⟩ := ht.target_child_of_not_nameFits (k.append_ending_ne_dots name)
          (k.null_notMem_append_ending hnull) hfits
        obtain ⟨w', hwork, hfiles'⟩ := work_of_refused htext hwritable hmade₁ hrefused
        exact .inr ⟨_, k.of?_of_load hdata hload htext, hfits, path, w',
          (Run.bind_of_ok hrun).trans hwork, hfiles'⟩

/-- A command for one script: it fails if the script cannot be read or there is
no room for the name of the output, and writes what is made of the script
otherwise. -/
theorem single_cases (verbose : Bool) :
    let made? := k.of? options files (script.input.child name)
    let outcome := k.single verbose script output files name
    (made? = none ∧ outcome.status = .ok 1) ∨
    (∃ bytes, made? = some bytes ∧ Tree.NameFits output (name ++ k.ending) ∧
      outcome.status = .ok 0 ∧
      outcome.files.get? (l.child (name ++ k.ending)) = some (.file bytes)) ∨
    (∃ bytes, made? = some bytes ∧ ¬Tree.NameFits output (name ++ k.ending) ∧
      outcome.status = .ok 1) := by
  intro made? outcome
  obtain ⟨data, hdata⟩ := h.readable name hname
  have hfree : made.IsFree (l.child (name ++ k.ending)) :=
    Tree.isFree_of_none (Tree.get?_child_of_empty h.empty _)
  have hrun : Run.action (k.action { script with input := script.input.child name }
      (output.child (name ++ k.ending))) ⟨files, [], []⟩ =
        (k.oneFile script (script.input.child name) (output.child (name ++ k.ending)) >>=
          fun _ => pure 0) ⟨files, [], []⟩ := by
    rw [action_eq, Run.forScripts, Run.bind_of_ok (Run.ask_of_ok
      (Tree.isDirectory_of_readFile hdata)), oneFile, bind_assoc]
    simp only [Bool.false_eq_true, if_false, h.trace]
    rfl
  have houtcome : outcome = Command.run ⟨verbose, k.action
      { script with input := script.input.child name } (output.child (name ++ k.ending))⟩ files :=
    rfl
  rw [houtcome, Command.run, hrun]
  rcases oneFile_cases h hname k (w := ⟨files, [], []⟩) (fun _ => id) h.makes h.directoryAt hfree
    with ⟨hnone, e, w', hone, hfault, -⟩ | ⟨bytes, hsome, hfits, w', hone, hfiles⟩ |
      ⟨bytes, hsome, hfits, path, w', hone, -⟩
  · rw [Run.bind_of_error hone]
    dsimp only
    rw [if_pos (Error.isReported_of_isContentFault hfault)]
    exact .inl ⟨hnone, rfl⟩
  · rw [Run.bind_of_ok hone]
    refine .inr (.inl ⟨bytes, hsome, hfits, rfl, ?_⟩)
    have hget : w'.files.get? (l.child (name ++ k.ending)) = some (.file bytes) := by
      rw [hfiles, Tree.get?_set _ _ (l.names_child_ne_nil _), if_pos rfl]
    exact hget
  · rw [Run.bind_of_error hone]
    exact .inr (.inr ⟨bytes, hsome, hfits, rfl⟩)

/-- The step of a batch, behind some that have been done. -/
theorem eachFile_cases {done : List (String × Bytes)} (hw : w.files = made.put l done) :
    let made? := k.of? options files (script.input.child name)
    let run := Run.eachFile script k.work output k.ending name w
    (made? = none ∧ ∃ w', run = .ok true w' ∧ w'.files = made.put l done) ∨
    (∃ bytes, made? = some bytes ∧ Tree.NameFits output (name ++ k.ending) ∧
      ∃ w', run = .ok false w' ∧ w'.files = made.put l (done ++ [(name ++ k.ending, bytes)])) ∨
    (∃ bytes, made? = some bytes ∧ ¬Tree.NameFits output (name ++ k.ending) ∧
      ∃ path w', run = .error (.file (.refused .nameTooLong path)) w' ∧
        w'.files = made.put l done) := by
  intro made? run
  have hdirectory := h.directoryAt_put done
  have hmade : w.files.makeDirectory output = (made.put l done, .ok ()) := by
    rw [hw, hdirectory.makeDirectory]
  have hread : ∀ data, files.readFile (script.input.child name) = .ok data →
      w.files.readFile (script.input.child name) = .ok data := by
    intro data hdata
    rw [hw, h.readFile_put hdata]
  have hfree : (made.put l done).IsFree (l.child (name ++ k.ending)) :=
    (Tree.isFree_of_none (Tree.get?_child_of_empty h.empty _)).put
  have htrace : Run.fileTrace script.trace name = none := by
    rw [h.trace]
    rfl
  have hrun : run = Run.eachFile script k.work output k.ending name w := rfl
  rw [hrun, Run.eachFile, htrace]
  rcases oneFile_cases h hname k hread hmade hdirectory hfree
    with ⟨hnone, e, w', hone, hfault, hfiles⟩ | ⟨bytes, hsome, hfits, w', hone, hfiles⟩ |
      ⟨bytes, hsome, hfits, path, w', hone, hfiles⟩
  · rw [oneFile] at hone
    rw [Run.bind_of_ok (Run.attempt_of_error hone)]
    dsimp only
    rw [if_pos hfault]
    exact .inl ⟨hnone, _, rfl, hfiles.trans hw⟩
  · rw [oneFile] at hone
    rw [Run.bind_of_ok (Run.attempt_of_ok hone)]
    refine .inr (.inl ⟨bytes, hsome, hfits, w', rfl, ?_⟩)
    rw [hfiles, Tree.put_append]
    rfl
  · rw [oneFile] at hone
    rw [Run.bind_of_ok (Run.attempt_of_error hone)]
    exact .inr (.inr ⟨bytes, hsome, hfits, path, w', rfl, hfiles⟩)

end Ready

/-! ## a batch -/

/-- A script that can be read, though what is made of it has no room for its
name. -/
def Stops [Codecs] (k : Product) (options : Options) (files : Tree) (input output : Path)
    (name : String) : Prop :=
  (k.of? options files (input.child name)).isSome ∧ ¬Tree.NameFits output (name ++ k.ending)

/-- What is made of scripts, with the names it is written under. -/
def written [Codecs] (k : Product) (options : Options) (files : Tree) (input : Path)
    (names : List String) : List (String × Bytes) :=
  names.filterMap fun name =>
    (k.of? options files (input.child name)).map fun bytes => (name ++ k.ending, bytes)

theorem mem_written [Codecs] {k : Product} {options : Options} {files : Tree} {input : Path}
    {reached : List String} {f : String × Bytes} :
    f ∈ k.written options files input reached ↔
      ∃ n ∈ reached, k.of? options files (input.child n) = some f.2 ∧ f.1 = n ++ k.ending := by
  simp only [written, List.mem_filterMap, Option.map_eq_some_iff]
  constructor
  · rintro ⟨n, hn, bytes, hbytes, rfl⟩
    exact ⟨n, hn, hbytes, rfl⟩
  · rintro ⟨n, hn, hbytes, hname⟩
    exact ⟨n, hn, f.2, hbytes, by rw [← hname]⟩

/-- What was made of a script is where it was written. -/
theorem get?_put_written [Codecs] {k : Product} {options : Options} {files : Tree} {input : Path}
    (t : Tree) (l : Location) {reached : List String} {n : String} (hn : n ∈ reached)
    {bytes : Bytes} (hbytes : k.of? options files (input.child n) = some bytes) :
    (t.put l (k.written options files input reached)).get? (l.child (n ++ k.ending)) =
      some (.file bytes) := by
  have hmem : (n ++ k.ending, bytes) ∈ k.written options files input reached :=
    mem_written.mpr ⟨n, hn, hbytes, rfl⟩
  refine Tree.get?_put_of_agree hmem fun g hg hname => ?_
  obtain ⟨m, -, hm, hgname⟩ := mem_written.mp hg
  obtain rfl := append_ending_inj (hgname.symm.trans hname)
  exact Option.some.inj (hm.symm.trans hbytes)

section Ready

variable [Codecs] [Host] {script : ScriptArguments} {output : Path} {files made : Tree}
  {l : Location} {options : Options} {names : List String}
  (h : Ready script output files made l options names) (k : Product)

include h

/-- The run of a batch: it works on the scripts one after the other, up to the
first that stops it. -/
theorem allFiles_eq {remaining : List String} (hremaining : ∀ n ∈ remaining, n ∈ names)
    {done : List (String × Bytes)} {w : World} (hw : w.files = made.put l done) :
    ∃ reached rest w', remaining = reached ++ rest ∧
      (∀ n ∈ reached, ¬k.Stops options files script.input output n) ∧
      w'.files = made.put l (done ++ k.written options files script.input reached) ∧
      ((rest = [] ∧ ∃ count,
          Run.allFiles script k.work output k.ending remaining w = .ok count w' ∧
          (count = 0 ↔ ∀ n ∈ reached, (k.of? options files (script.input.child n)).isSome)) ∨
        ∃ n rest' path, rest = n :: rest' ∧ k.Stops options files script.input output n ∧
          Run.allFiles script k.work output k.ending remaining w =
            .error (.file (.refused .nameTooLong path)) w') := by
  induction remaining generalizing done w with
  | nil => exact ⟨[], [], w, rfl, by simp, by simpa [written] using hw, .inl ⟨rfl, 0, rfl, by simp⟩⟩
  | cons n remaining ih =>
      rw [List.forall_mem_cons] at hremaining
      rcases eachFile_cases h hremaining.1 k hw with
        ⟨hnone, w₁, hone, hfiles⟩ | ⟨bytes, hsome, hfits, w₁, hone, hfiles⟩ |
          ⟨bytes, hsome, hfits, path, w₁, hone, hfiles⟩
      · obtain ⟨reached, rest, w', rfl, hgoes, hwritten, houtcome⟩ := ih hremaining.2 hfiles
        refine ⟨n :: reached, rest, w', rfl, ?_, ?_, ?_⟩
        · exact List.forall_mem_cons.mpr ⟨fun hstops => by simp [Stops, hnone] at hstops, hgoes⟩
        · simpa [written, hnone] using hwritten
        · rw [Run.allFiles, Run.bind_of_ok hone]
          rcases houtcome with ⟨rfl, count, hall, -⟩ | ⟨m, rest', path, rfl, hstops, hall⟩
          · refine .inl ⟨rfl, 1 + count, ?_, by simp [hnone]⟩
            rw [Run.bind_of_ok hall]
            rfl
          · exact .inr ⟨m, rest', path, rfl, hstops, Run.bind_of_error hall⟩
      · obtain ⟨reached, rest, w', rfl, hgoes, hwritten, houtcome⟩ := ih hremaining.2 hfiles
        refine ⟨n :: reached, rest, w', rfl, ?_, ?_, ?_⟩
        · exact List.forall_mem_cons.mpr ⟨fun hstops => hstops.2 hfits, hgoes⟩
        · simpa [written, hsome] using hwritten
        · rw [Run.allFiles, Run.bind_of_ok hone]
          rcases houtcome with ⟨rfl, count, hall, hcount⟩ | ⟨m, rest', path, rfl, hstops, hall⟩
          · refine .inl ⟨rfl, count, ?_, by simpa [hsome] using hcount⟩
            rw [Run.bind_of_ok hall, if_neg (by decide), Nat.zero_add]
            rfl
          · exact .inr ⟨m, rest', path, rfl, hstops, Run.bind_of_error hall⟩
      · refine ⟨[], n :: remaining, w₁, rfl, by simp, by simpa [written] using hfiles, .inr ?_⟩
        refine ⟨n, remaining, path, rfl, ⟨by simp [hsome], hfits⟩, ?_⟩
        rw [Run.allFiles, Run.bind_of_error hone]

/-- What a batch leaves behind, and its exit status. -/
theorem batch_eq (verbose : Bool) :
    ∃ reached rest, names = reached ++ rest ∧
      (∀ n ∈ reached, ¬k.Stops options files script.input output n) ∧
      (∀ n ∈ rest.head?, k.Stops options files script.input output n) ∧
      (k.batch verbose script output files).files =
        made.put l (k.written options files script.input reached) ∧
      ((k.batch verbose script output files).status = .ok 0 ∧ rest = [] ∧
          (∀ n ∈ reached, (k.of? options files (script.input.child n)).isSome) ∨
        (k.batch verbose script output files).status = .ok 1 ∧
          (rest = [] → ∃ n ∈ reached, k.of? options files (script.input.child n) = none)) := by
  obtain ⟨reached, rest, w', hsplit, hgoes, hwritten, houtcome⟩ :=
    @allFiles_eq _ _ _ _ _ _ _ _ _ h k names (fun _ => id) [] ⟨made, [], []⟩ rfl
  have hstart : Run.action (k.action script output) ⟨files, [], []⟩ =
      (Run.allFiles script k.work output k.ending names >>= fun failures =>
        if failures = 0 then pure 0
        else Run.say [.someFailed failures names.length] >>= fun _ => pure 1)
          ⟨made, [], []⟩ := by
    rw [action_eq, Run.forScripts, Run.bind_of_ok (Run.ask_of_ok h.isDirectory)]
    simp only [if_true]
    rw [Run.bind_of_ok (Run.ask_of_ok h.fileNames), Run.bind_of_ok (Run.check_need_given _),
      Run.bind_of_ok (Run.makeDirectory_of_ok h.makes), Host.progress_eq]
  refine ⟨reached, rest, hsplit, hgoes, ?_⟩
  rw [batch, Command.run, hstart]
  rcases houtcome with ⟨rfl, count, hall, hcount⟩ | ⟨n, rest', path, rfl, hstops, hall⟩
  · rw [Run.bind_of_ok hall]
    by_cases hzero : count = 0
    · rw [if_pos hzero]
      exact ⟨by simp, hwritten, .inl ⟨rfl, rfl, hcount.mp hzero⟩⟩
    · rw [if_neg hzero]
      refine ⟨by simp, hwritten, .inr ⟨rfl, fun _ => ?_⟩⟩
      by_contra hall
      push Not at hall
      exact hzero (hcount.mpr fun n hn => Option.isSome_iff_ne_none.mpr (hall n hn))
  · rw [Run.bind_of_error hall]
    refine ⟨?_, hwritten, .inr ⟨rfl, fun hnil => by cases hnil⟩⟩
    rintro m hm
    cases hm
    exact hstops

theorem status_single_eq_zero_iff (verbose : Bool) {n : String} (hn : n ∈ names) :
    (k.single verbose script output files n).status = .ok 0 ↔
      (k.of? options files (script.input.child n)).isSome ∧
        Tree.NameFits output (n ++ k.ending) := by
  rcases single_cases h hn k verbose with ⟨hnone, hstatus⟩ |
    ⟨bytes, hsome, hfits, hstatus, -⟩ | ⟨bytes, hsome, hfits, hstatus⟩
  · simp [hnone, hstatus]
  · simp [hsome, hfits, hstatus]
  · simp [hsome, hfits, hstatus]

theorem status_single_eq_one_iff (verbose : Bool) {n : String} (hn : n ∈ names) :
    (k.single verbose script output files n).status = .ok 1 ↔
      (k.single verbose script output files n).status ≠ .ok 0 := by
  rcases single_cases h hn k verbose with ⟨-, hstatus⟩ | ⟨-, -, -, hstatus, -⟩ | ⟨-, -, -, hstatus⟩
  all_goals simp [hstatus]

/-- A command for one script that a batch does not stop at. -/
theorem status_single_of_not_stops (verbose : Bool) {n : String} (hn : n ∈ names)
    (hgoes : ¬k.Stops options files script.input output n)
    (hsome : (k.of? options files (script.input.child n)).isSome) :
    (k.single verbose script output files n).status = .ok 0 :=
  (status_single_eq_zero_iff h k verbose hn).mpr
    ⟨hsome, Classical.byContradiction fun hfits => hgoes ⟨hsome, hfits⟩⟩

/-- The exit status of a batch, whether it was stopped or not. -/
theorem status_batch_eq_one_iff (verbose : Bool) :
    (k.batch verbose script output files).status = .ok 1 ↔
      ∃ n ∈ names, (k.single verbose script output files n).status = .ok 1 := by
  obtain ⟨reached, rest, hsplit, hgoes, hstops, -, hstatus⟩ := batch_eq h k verbose
  rcases hstatus with ⟨hzero, rfl, hall⟩ | ⟨hone, hsome⟩
  · rw [List.append_nil] at hsplit
    subst hsplit
    refine iff_of_false (by simp [hzero]) ?_
    rintro ⟨n, hn, hone⟩
    exact (status_single_eq_one_iff h k verbose hn).mp hone
      (status_single_of_not_stops h k verbose hn (hgoes n hn) (hall n hn))
  · refine iff_of_true hone ?_
    have hfails : ∃ n ∈ names, ¬((k.of? options files (script.input.child n)).isSome ∧
        Tree.NameFits output (n ++ k.ending)) := by
      cases rest with
      | nil =>
          obtain ⟨n, hn, hnone⟩ := hsome rfl
          exact ⟨n, by simp [hsplit, hn], by simp [hnone]⟩
      | cons n rest => exact ⟨n, by simp [hsplit], fun hboth => (hstops n rfl).2 hboth.2⟩
    obtain ⟨n, hn, hnot⟩ := hfails
    refine ⟨n, hn, (status_single_eq_one_iff h k verbose hn).mpr fun hzero => ?_⟩
    exact hnot ((status_single_eq_zero_iff h k verbose hn).mp hzero)

/-- Nothing is written of the scripts behind one that stops a batch. -/
theorem get?_batch_of_stops (hsorted : names.Pairwise (· ≤ ·)) (verbose : Bool) {n m : String}
    (hn : n ∈ names) (hstops : k.Stops options files script.input output n) (hlt : ¬m ≤ n) :
    (k.batch verbose script output files).files.get? (l.child (m ++ k.ending)) = none := by
  obtain ⟨reached, rest, rfl, hgoes, -, hfiles, -⟩ := batch_eq h k verbose
  have hrest : n ∈ rest :=
    (List.mem_append.mp hn).resolve_left fun hreached => hgoes n hreached hstops
  rw [hfiles, Tree.get?_put_of_forall_ne, Tree.get?_child_of_empty h.empty]
  rintro ⟨name, bytes⟩ hf heq
  obtain ⟨m', hm', -, rfl⟩ := mem_written.mp hf
  obtain rfl := append_ending_inj (Location.child_inj.mp heq)
  exact hlt ((List.pairwise_append.mp hsorted).2.2 m' hm' n hrest)

end Ready

end Product

/-! ## directories of scripts -/

namespace Tree

/-- A directory of files, with nothing else beside it. -/
def folder (files : List (String × Bytes)) : Tree :=
  (Tree.empty.set (Location.working.child "in") .directory).put (Location.working.child "in") files

variable (files : List (String × Bytes))

theorem get?_folder_out (names : List String) :
    (folder files).get? ⟨.above 0, "out" :: names⟩ = none := by
  rw [folder, get?_put_of_forall_ne, get?_set _ _ (by simp [Location.child]), if_neg, get?_empty]
  · simp
  · simp [Location.child, Location.working]
  · simp [Location.child, Location.working]

theorem directoryAt_folder :
    (folder files).DirectoryAt ⟨0, ["in"]⟩ (Location.working.child "in") := by
  have hin : NameFits ⟨0, []⟩ "in" := by decide
  refine (directoryAt_working _).child hin ?_
  rw [folder, get?_put_of_forall_ne, get?_set _ _ (by simp [Location.child]), if_pos rfl]
  simp [Location.child, Location.working]

/-- The tree once there is a directory for outputs. -/
def withOutputs : Tree := (folder files).set (Location.working.child "out") .directory

theorem directoryAt_withOutputs :
    (withOutputs files).DirectoryAt ⟨0, ["out"]⟩ (Location.working.child "out") := by
  have hout : NameFits ⟨0, []⟩ "out" := by decide
  refine (directoryAt_working _).child hout ?_
  rw [withOutputs, get?_set _ _ (by simp [Location.child]), if_pos rfl]

theorem names_withOutputs : (withOutputs files).names (Location.working.child "out") = [] := by
  refine List.eq_nil_iff_forall_not_mem.mpr fun name hname => ?_
  rw [mem_names_iff, withOutputs, get?_set _ _ (by simp [Location.child]), if_neg] at hname
  · simp [Location.child, Location.working, get?_folder_out] at hname
  · simp [Location.child, Location.working]

theorem makeDirectory_folder [Host] :
    (folder files).makeDirectory ⟨0, ["out"]⟩ = (withOutputs files, .ok ()) := by
  have hout : NameFits ⟨0, []⟩ "out" := by decide
  have hone : (folder files).makeOne ⟨0, ["out"]⟩ = .ok (withOutputs files) := by
    refine andThen_eq_ok_iff.mpr ⟨_, (directoryAt_working _).locate_child hout, if_neg ?_⟩
    simp [Location.child, Location.working, get?_folder_out]
  have hnull : (⟨0, ["out"]⟩ : Path).hasNull = false := by decide
  obtain ⟨depth, hdepth⟩ := Nat.exists_eq_succ_of_ne_zero Host.maxDepth_pos.ne'
  rw [makeDirectory, hnull, hdepth]
  simp only [Bool.false_eq_true, if_false, List.reverse_singleton, makeParts, hone]
  rfl

/-- The names of the files. -/
def folderNames : List String := (folder files).names (Location.working.child "in")

variable {files} (hnodup : (files.map (·.1)).Nodup)

include hnodup

theorem folderNames_perm : (folderNames files).Perm (files.map (·.1)) := by
  refine names_put (List.eq_nil_iff_forall_not_mem.mpr fun name hname => ?_) hnodup
  rw [mem_names_iff, get?_set _ _ (by simp [Location.child]), get?_empty] at hname
  simp [Location.child, Location.working] at hname

theorem readFile_folder {f : String × Bytes} (hf : f ∈ files) (hfits : NameFits ⟨0, ["in"]⟩ f.1) :
    (folder files).readFile (Path.child ⟨0, ["in"]⟩ f.1) = .ok f.2 :=
  (directoryAt_folder files).readFile_child hfits (get?_put hnodup hf)

end Tree

/-- The codecs that are there on every system decode to characters that UTF-8
can hold. -/
theorem Encoding.isWritable_of_lenient [Codecs] {encoding : String} {decode : Bytes → List Char}
    {encode? : String → Option Bytes}
    (h : ofName .decoding encoding = .ok (lenient decode encode?)) (text : String) :
    isWritable encoding text = true := by
  rw [isWritable, h]
  simp [lenient]

/-- How the scripts of a directory are read. -/
def folderScript : ScriptArguments := { Command.plainScript with input := ⟨0, ["in"]⟩ }

theorem ready_folder [Codecs] [Host] {files : List (String × Bytes)}
    (hnodup : (files.map (·.1)).Nodup) (hfits : ∀ f ∈ files, Tree.NameFits ⟨0, ["in"]⟩ f.1) :
    Ready folderScript ⟨0, ["out"]⟩ (.folder files) (.withOutputs files)
      (Location.working.child "out") Command.plainOptions (Tree.folderNames files) where
  trace := rfl
  reading := Command.optionsOf_plainScript
  decodes := Encoding.decodes_of_lenient rfl
  writable := Encoding.isWritable_of_lenient rfl
  isDirectory := (Tree.directoryAt_folder files).isDirectory_eq
  fileNames := by
    refine (Tree.directoryAt_folder files).fileNames fun name hname => ?_
    obtain ⟨f, hf, rfl⟩ := List.mem_map.mp ((Tree.folderNames_perm hnodup).mem_iff.mp hname)
    exact ⟨hfits f hf, f.2, Tree.get?_put hnodup hf⟩
  readable name hname := by
    obtain ⟨f, hf, rfl⟩ := List.mem_map.mp ((Tree.folderNames_perm hnodup).mem_iff.mp hname)
    exact ⟨f.2, Tree.readFile_folder hnodup hf (hfits f hf)⟩
  makes := Tree.makeDirectory_folder files
  directoryAt := Tree.directoryAt_withOutputs files
  empty := Tree.names_withOutputs files

namespace Product

/-- A listing or a sheet is made of a script without code. -/
theorem isSome_of?_empty [Codecs] (k : Product) {options : Options} {files : Tree} {p : Path}
    (hdata : files.readFile p = .ok (List.replicate 12 0)) : (k.of? options files p).isSome := by
  have hload := Command.load_empty [] options
  rw [List.append_nil] at hload
  obtain ⟨text, htext⟩ := k.exists_text hload
  rw [k.of?_of_load hdata hload htext]
  rfl

/-- A name of so many letters. -/
def longName (count : Nat) : String := String.ofList (List.replicate count 'n')

theorem utf8ByteSize_longName (count : Nat) : (longName count).utf8ByteSize = count := by
  rw [longName, String.utf8ByteSize_ofList]
  induction count with
  | zero => rfl
  | succ count ih =>
      have hletter : 'n'.utf8Size = 1 := by decide
      rw [List.replicate_succ, String.utf8Len_cons, ih, hletter]

theorem nameFits_longName {p : Path} {count : Nat} (hname : count ≤ Tree.maxName)
    (hpath : p.toString.utf8ByteSize + 1 + count ≤ Tree.maxPath) :
    Tree.NameFits p (longName count) where
  ne_dots := by
    intro hdots
    have hdot : '.' ∈ (longName count).toList := by simp [hdots]
    simp [longName] at hdot
  size_le := (utf8ByteSize_longName count).trans_le hname
  path_le := by
    refine (p.size_child_le _).trans ?_
    rwa [utf8ByteSize_longName]
  null_notMem := by simp [longName]

theorem not_nameFits_longName (k : Product) (p : Path) {count : Nat}
    (hname : Tree.maxName < count + 4) : ¬Tree.NameFits p (longName count ++ k.ending) := by
  intro hfits
  have hsize := hfits.size_le
  have hending : 4 ≤ k.ending.utf8ByteSize := by rcases k with (_ | _) | _ <;> decide
  rw [String.utf8ByteSize_append, utf8ByteSize_longName] at hsize
  omega

theorem not_z_le_longName (count : Nat) : ¬"z" ≤ longName count := by
  rw [String.not_le, longName, String.lt_iff_toList_lt, String.toList_ofList]
  cases count with
  | zero => decide
  | succ count =>
      rw [List.replicate_succ]
      exact List.Lex.rel (by decide)

/-- Two scripts without code. -/
def twoEmpty (n : String) : List (String × Bytes) :=
  [(n, List.replicate 12 0), ("z", List.replicate 12 0)]

section TwoEmpty

variable {n : String} (hlt : ¬"z" ≤ n) (hfits : Tree.NameFits ⟨0, ["in"]⟩ n)

include hlt hfits

theorem ready_twoEmpty [Codecs] [Host] :
    Ready folderScript ⟨0, ["out"]⟩ (.folder (twoEmpty n)) (.withOutputs (twoEmpty n))
      (Location.working.child "out") Command.plainOptions (Tree.folderNames (twoEmpty n)) ∧
    ∀ name ∈ [n, "z"], name ∈ Tree.folderNames (twoEmpty n) ∧
      ∀ k : Product, (k.of? Command.plainOptions (.folder (twoEmpty n))
        (folderScript.input.child name)).isSome := by
  have hne : n ≠ "z" := fun hz => hlt (hz ▸ String.le_refl _)
  have hnodup : ((twoEmpty n).map (·.1)).Nodup := by simp [twoEmpty, hne]
  have hall : ∀ f ∈ twoEmpty n, Tree.NameFits ⟨0, ["in"]⟩ f.1 := by
    rw [twoEmpty, List.forall_mem_cons, List.forall_mem_singleton]
    exact ⟨hfits, by decide⟩
  refine ⟨ready_folder hnodup hall, fun name hname => ⟨?_, fun k => k.isSome_of?_empty ?_⟩⟩
  · exact (Tree.folderNames_perm hnodup).mem_iff.mpr hname
  · have hmem : (name, List.replicate 12 0) ∈ twoEmpty n := by
      simpa [twoEmpty] using hname
    exact Tree.readFile_folder hnodup hmem (hall _ hmem)

/-- A script that is read on its own, and that a batch does not come to. -/
theorem get?_batch_twoEmpty [Codecs] [Host] (k : Product) (verbose : Bool)
    (hnot : ¬Tree.NameFits ⟨0, ["out"]⟩ (n ++ k.ending))
    (hz : Tree.NameFits ⟨0, ["out"]⟩ ("z" ++ k.ending)) :
    let single := k.single verbose folderScript ⟨0, ["out"]⟩ (.folder (twoEmpty n)) "z"
    let batch := k.batch verbose folderScript ⟨0, ["out"]⟩ (.folder (twoEmpty n))
    let place := (Location.working.child "out").child ("z" ++ k.ending)
    single.status = .ok 0 ∧ (∃ bytes, single.files.get? place = some (.file bytes)) ∧
      batch.status = .ok 1 ∧ batch.files.get? place = none := by
  intro single batch place
  obtain ⟨hready, hread⟩ := ready_twoEmpty hlt hfits
  obtain ⟨hlong, hlongSome⟩ := hread n (by simp)
  obtain ⟨hshort, hshortSome⟩ := hread "z" (by simp)
  have hsingle := (status_single_eq_zero_iff hready k verbose hshort).mpr ⟨hshortSome k, hz⟩
  have hone := (status_single_eq_one_iff hready k verbose hlong).mpr fun hzero =>
    hnot ((status_single_eq_zero_iff hready k verbose hlong).mp hzero).2
  refine ⟨hsingle, ?_, (status_batch_eq_one_iff hready k verbose).mpr ⟨n, hlong, hone⟩, ?_⟩
  · rcases single_cases hready hshort k verbose with ⟨-, hfails⟩ | ⟨bytes, -, -, -, hget⟩ |
      ⟨-, -, hlacks, -⟩
    · simp [hfails] at hsingle
    · exact ⟨bytes, hget⟩
    · exact absurd hz hlacks
  · exact get?_batch_of_stops hready k (Tree.pairwise_names _ _) verbose hlong
      ⟨hlongSome k, hnot⟩ hlt

end TwoEmpty

/-! ## batches and single commands -/

/-- **Batches** compared with commands for one script each.  A batch goes
through the scripts in the order of their names, up to the first that can be
read but has no room for the name of its output; where all names have room, it
goes through all.

For those it goes through, it writes what the commands that succeed would
write, and nothing else.  Its status is 1 exactly if that of one of the
commands is. -/
theorem batch_writes [Codecs] [Host] {script : ScriptArguments} {output : Path} {files made : Tree}
    {l : Location} {options : Options} {names : List String}
    (h : Ready script output files made l options names) (k : Product) (verbose : Bool) :
    (∀ n ∈ names, (k.single verbose script output files n).status = .ok 0 ∨
      (k.single verbose script output files n).status = .ok 1) ∧
    ∃ reached rest, names = reached ++ rest ∧
      (∀ n ∈ reached, ¬k.Stops options files script.input output n) ∧
      (∀ n ∈ rest.head?, k.Stops options files script.input output n) ∧
      ((∀ n ∈ names, Tree.NameFits output (n ++ k.ending)) → reached = names) ∧
      (∀ n ∈ reached, (k.single verbose script output files n).status = .ok 0 →
        ∃ bytes,
          (k.single verbose script output files n).files.get? (l.child (n ++ k.ending)) =
            some (.file bytes) ∧
          (k.batch verbose script output files).files.get? (l.child (n ++ k.ending)) =
            some (.file bytes)) ∧
      (∀ m, (∀ n ∈ reached, (k.single verbose script output files n).status = .ok 0 →
          m ≠ l.child (n ++ k.ending)) →
        (k.batch verbose script output files).files.get? m = made.get? m) ∧
      ((k.batch verbose script output files).status = .ok 0 ∨
        (k.batch verbose script output files).status = .ok 1) ∧
      ((k.batch verbose script output files).status = .ok 1 ↔
        ∃ n ∈ names, (k.single verbose script output files n).status = .ok 1) := by
  refine ⟨fun n hn => or_iff_not_imp_left.mpr (status_single_eq_one_iff h k verbose hn).mpr, ?_⟩
  have hone := status_batch_eq_one_iff h k verbose
  obtain ⟨reached, rest, rfl, hgoes, hstops, hfiles, hstatus⟩ := batch_eq h k verbose
  have hmem : ∀ n ∈ reached, n ∈ reached ++ rest := fun _ => List.mem_append_left rest
  refine ⟨reached, rest, rfl, hgoes, hstops, fun hfits => ?_, fun n hn hzero => ?_, fun m hm => ?_,
    hstatus.imp And.left And.left, hone⟩
  · cases rest with
    | nil => simp
    | cons n rest => exact absurd (hfits n (by simp)) (hstops n rfl).2
  · rcases single_cases h (hmem n hn) k verbose with ⟨-, hstatus⟩ | ⟨bytes, hsome, -, -, hget⟩ |
      ⟨-, -, -, hstatus⟩
    · simp [hstatus] at hzero
    · exact ⟨bytes, hget, by rw [hfiles, get?_put_written made l hn hsome]⟩
    · simp [hstatus] at hzero
  · rw [hfiles, Tree.get?_put_of_forall_ne]
    rintro ⟨name, bytes⟩ hf heq
    obtain ⟨n, hn, hbytes, rfl⟩ := mem_written.mp hf
    exact hm n hn (status_single_of_not_stops h k verbose (hmem n hn) (hgoes n hn)
      (by simp [hbytes])) heq.symm

/-- A script that cannot be read, and one that can. -/
def brokenAndEmpty : List (String × Bytes) := [("bad", [1]), ("z", List.replicate 12 0)]

theorem ready_brokenAndEmpty [Codecs] [Host] :
    Ready folderScript ⟨0, ["out"]⟩ (.folder brokenAndEmpty) (.withOutputs brokenAndEmpty)
      (Location.working.child "out") Command.plainOptions (Tree.folderNames brokenAndEmpty) := by
  refine ready_folder (by decide) ?_
  rw [brokenAndEmpty, List.forall_mem_cons, List.forall_mem_singleton]
  exact ⟨by decide, by decide⟩

/-- A batch goes on behind a script that cannot be read. -/
theorem batch_writes_broken :
    let k := Product.listing false
    let files := Tree.folder brokenAndEmpty
    let single := k.single false folderScript ⟨0, ["out"]⟩ files
    let batch := k.batch false folderScript ⟨0, ["out"]⟩ files
    let out := Location.working.child "out"
    Ready folderScript ⟨0, ["out"]⟩ files (.withOutputs brokenAndEmpty) out Command.plainOptions
        (Tree.folderNames brokenAndEmpty) ∧
      (single "bad").status = .ok 1 ∧ (single "z").status = .ok 0 ∧ batch.status = .ok 1 ∧
      batch.files.get? (out.child "bad.txt") = none ∧
      ∃ bytes, (single "z").files.get? (out.child "z.txt") = some (.file bytes) ∧
        batch.files.get? (out.child "z.txt") = some (.file bytes) := by
  intro k files single batch out
  have hready := ready_brokenAndEmpty
  have hnames : ∀ name, name ∈ Tree.folderNames brokenAndEmpty ↔ name = "bad" ∨ name = "z" := by
    intro name
    rw [(Tree.folderNames_perm (by decide)).mem_iff]
    simp [brokenAndEmpty]
  have hfits : ∀ n ∈ Tree.folderNames brokenAndEmpty,
      Tree.NameFits ⟨0, ["out"]⟩ (n ++ k.ending) := by
    intro n hn
    rcases (hnames n).mp hn with rfl | rfl
    · decide
    · decide
  have hbadMem := (hnames "bad").mpr (.inl rfl)
  have hzMem := (hnames "z").mpr (.inr rfl)
  have hbad : (single "bad").status = .ok 1 := by
    refine (status_single_eq_one_iff hready k false hbadMem).mpr fun hzero => ?_
    have hdata : files.readFile (folderScript.input.child "bad") = .ok [1] :=
      @Tree.readFile_folder brokenAndEmpty (by decide) ("bad", [1]) (by decide) (by decide)
    have hnone : k.of? Command.plainOptions files (folderScript.input.child "bad") = none :=
      k.of?_of_error hdata rfl
    have hsome := ((status_single_eq_zero_iff hready k false hbadMem).mp hzero).1
    rw [hnone] at hsome
    cases hsome
  have hz : (single "z").status = .ok 0 := by
    refine (status_single_eq_zero_iff hready k false hzMem).mpr
      ⟨k.isSome_of?_empty ?_, hfits _ hzMem⟩
    exact @Tree.readFile_folder brokenAndEmpty (by decide) ("z", List.replicate 12 0) (by decide)
      (by decide)
  obtain ⟨-, reached, rest, -, -, -, hall, hwrites, hothers, -, hone⟩ :=
    batch_writes hready k false
  obtain rfl := hall hfits
  refine ⟨hready, hbad, hz, hone.mpr ⟨"bad", hbadMem, hbad⟩, ?_, hwrites "z" hzMem hz⟩
  refine (hothers (out.child "bad.txt") fun n hn hzero heq => ?_).trans
    (Tree.get?_child_of_empty hready.empty _)
  rcases (hnames n).mp hn with rfl | rfl
  · rw [hbad] at hzero
    cases hzero
  · exact absurd (Location.child_inj.mp heq) (by decide)

/-- The listing of a script is missing from a batch, since there is no room for
the name of another. -/
theorem batch_misses_listing :
    let k := Product.listing false
    let files := Tree.folder (twoEmpty (longName 252))
    let single := k.single false folderScript ⟨0, ["out"]⟩ files "z"
    let batch := k.batch false folderScript ⟨0, ["out"]⟩ files
    let place := (Location.working.child "out").child "z.txt"
    single.status = .ok 0 ∧ (∃ bytes, single.files.get? place = some (.file bytes)) ∧
      batch.status = .ok 1 ∧ batch.files.get? place = none :=
  get?_batch_twoEmpty (not_z_le_longName 252) (nameFits_longName (by decide) (by decide))
    (.listing false) false (not_nameFits_longName _ _ (by decide)) (by decide)

end Product

end Scenario
