import Scenario.Proofs.Reading
import Scenario.Proofs.Repacking
import Scenario.Proofs.Sections

/-!
# Scenario.Proofs.Outputs

What commands leave behind.

1. `Tree.SameBut` — two trees have the same files, but for those where some
   paths lead.  Making directories changes no file, and writing changes one.
2. `Run.Leaves` — a step that only touches some files when it fails, and some
   more when it succeeds.  A revision has nothing behind its output that could
   fail, so one that fails has only touched its trace.
3. `Run.Revised`, `Run.Packed`, `Run.Unpacked` — what the output of a command
   that succeeds holds, in terms of the files it was given.
4. Archive commands can fail behind their output.  Unpacking writes one file
   after the other, and the place of a later one may not be free
   (`Run.Obstructed`).  Packing and unpacking name a path in the line that they
   print, and standard output may not take it.
5. `Command.run_outputs` — all together, for whole commands.
-/

namespace Scenario

namespace Tree

variable {t t' t'' : Tree} {l m : Location} {p q : Path} {paths : List Path} {data : Bytes}

/-! ## files that stay -/

/-- No directory is gone, and the files are the same but for those where
`paths` lead. -/
structure SameBut (paths : List Path) (t t' : Tree) : Prop where
  keeps : t.Keeps t'
  file_iff : ∀ {l}, (∀ p ∈ paths, t'.locate p ≠ .ok l) → ∀ node, node ≠ .directory →
    (t'.get? l = some node ↔ t.get? l = some node)

theorem SameBut.refl (paths : List Path) (t : Tree) : t.SameBut paths t :=
  ⟨.refl t, fun _ _ _ => .rfl⟩

theorem SameBut.trans (h : t.SameBut paths t') (h' : t'.SameBut paths t'') :
    t.SameBut paths t'' where
  keeps := h.keeps.trans h'.keeps
  file_iff hl node hnode :=
    -- a path that leads to the place before leads there afterwards
    (h'.file_iff hl node hnode).trans
      (h.file_iff (fun p hp hlocate => hl p hp (locate_of_keeps h'.keeps hlocate)) node hnode)

theorem SameBut.mono {paths' : List Path} (h : t.SameBut paths t') (hsub : paths ⊆ paths') :
    t.SameBut paths' t' :=
  ⟨h.keeps, fun hl => h.file_iff fun p hp => hl p (hsub hp)⟩

/-- Writing a file changes the files at its path only. -/
theorem sameBut_set_of_target (h : t.target p = .ok l) (data : Bytes) :
    t.SameBut [p] (t.set l (.file data)) := by
  obtain ⟨-, hlocate, hfree⟩ := target_eq_ok_iff.mp h
  have hkeeps := keeps_set hfree.not_directory (.file data)
  refine ⟨hkeeps, fun {m} hm node _ => ?_⟩
  have hne : l ≠ m := fun heq =>
    hm p (List.mem_singleton_self p) (heq ▸ locate_of_keeps hkeeps hlocate)
  rw [get?_set t _ (names_ne_nil hfree.not_directory), if_neg hne]

/-- Making a directory changes no file. -/
theorem sameBut_set_directory (h : t.get? l = none) : t.SameBut [] (t.set l .directory) := by
  have hfree : t.get? l ≠ some .directory := by simp [h]
  refine ⟨keeps_set hfree _, fun {m} _ node hnode => ?_⟩
  rw [get?_set t _ (names_ne_nil hfree)]
  split
  · next heq => simp [← heq, h, hnode.symm]
  · rfl

theorem sameBut_makeOne (h : t.makeOne p = .ok t') : t.SameBut [] t' := by
  obtain ⟨l, -, hset⟩ := andThen_eq_ok_iff.mp h
  split at hset
  · cases hset
  · next hnone =>
    obtain rfl := Except.ok.inj hset
    exact sameBut_set_directory (by simpa using hnone)

theorem sameBut_settle (p : Path) : t.SameBut [] (t.settle p (t.makeOne p)).1 := by
  cases hone : t.makeOne p with
  | ok t' => exact sameBut_makeOne hone
  | error fault =>
      rw [settle]
      split <;> exact .refl [] t

theorem sameBut_makeParts (t : Tree) (slashes depth : Nat) (reversed : List String) :
    t.SameBut [] (t.makeParts slashes depth reversed).1 := by
  induction reversed generalizing depth t with
  | nil =>
      rw [makeParts]
      exact .refl [] t
  | cons part above ih =>
      cases depth with
      | zero => exact .refl [] t
      | succ depth =>
          rw [makeParts]
          split
          · have habove := ih t depth
            split
            · next t' hmade =>
              rw [hmade] at habove
              exact habove.trans (sameBut_settle _)
            · exact habove
          · exact sameBut_settle _

theorem sameBut_makeDirectory [Host] (t : Tree) (p : Path) :
    t.SameBut [] (t.makeDirectory p).1 := by
  rw [makeDirectory]
  split
  · exact .refl [] t
  · exact sameBut_makeParts ..

/-! ## reading what was written -/

theorem readFile_eq_ok_iff :
    t.readFile p = .ok data ↔
      p.hasNull = false ∧ ∃ l, t.locate p = .ok l ∧ t.get? l = some (.file data) := by
  constructor
  · intro h
    rw [readFile, answer.eq_def] at h
    split at h
    · cases h
    · next hnull =>
      refine ⟨Bool.eq_false_iff.mpr hnull, ?_⟩
      split at h
      · next content hcontent =>
        obtain rfl := Except.ok.inj h
        obtain ⟨node, hnode, hfile⟩ := andThen_eq_ok_iff.mp hcontent
        obtain ⟨l, hlocate, hget⟩ := andThen_eq_ok_iff.mp hnode
        refine ⟨l, hlocate, ?_⟩
        split at hget
        · next node' hnode' =>
          obtain rfl := Except.ok.inj hget
          split at hfile
          · rw [hnode', Except.ok.inj hfile]
          · cases hfile
          · cases hfile
        · cases hget
      · cases h
  · rintro ⟨hnull, l, hlocate, hget⟩
    apply answer_of_ok hnull
    rw [find_of_locate hlocate hget]
    rfl

/-- A file that can be read is one. -/
theorem isFile_of_readFile (h : t.readFile p = .ok data) : t.isFile p = .ok true := by
  obtain ⟨hnull, l, hlocate, hget⟩ := readFile_eq_ok_iff.mp h
  rw [isFile, find?, hnull, find_of_locate hlocate hget]
  rfl

/-- A file that was there is there still, unless one of the paths leads to
it. -/
theorem SameBut.readFile (h : t.SameBut paths t') (hread : t.readFile p = .ok data)
    (hother : ∀ q ∈ paths, ∀ l, t'.locate p = .ok l → t'.locate q ≠ .ok l) :
    t'.readFile p = .ok data := by
  obtain ⟨hnull, l, hlocate, hget⟩ := readFile_eq_ok_iff.mp hread
  have hlocate' := locate_of_keeps h.keeps hlocate
  exact readFile_eq_ok_iff.mpr ⟨hnull, l, hlocate',
    (h.file_iff (fun q hq => hother q hq l hlocate') _ (by simp)).mpr hget⟩

/-- Two names in a directory lead to two places. -/
theorem locate_child_inj {a b : String} (ha : t.locate (p.child a) = .ok l)
    (hb : t.locate (p.child b) = .ok l) (hadots : a ≠ "..") (hbdots : b ≠ "..") : a = b := by
  have hplace : ∀ {name : String}, name ≠ ".." → t.locate (p.child name) = .ok l →
      ∃ m, p.parts.foldlM t.step p.start = .ok m ∧ l = m.child name := by
    intro name hdots h
    rw [locate] at h
    split at h
    · cases h
    · change (p.parts ++ [name]).foldlM t.step p.start = _ at h
      rw [List.foldlM_append] at h
      obtain ⟨m, hm, hstep⟩ := andThen_eq_ok_iff.mp h
      refine ⟨m, hm, ?_⟩
      rw [List.foldlM_cons] at hstep
      obtain ⟨m', hstep, hdone⟩ := andThen_eq_ok_iff.mp hstep
      obtain rfl := Except.ok.inj hdone
      rw [step] at hstep
      split at hstep
      · cases hstep
      · cases hstep
      · cases hstep
      · rw [if_neg hdots] at hstep
        split at hstep
        · cases hstep
        · exact (Except.ok.inj hstep).symm
  obtain ⟨m, hm, hla⟩ := hplace hadots ha
  obtain ⟨m', hm', hlb⟩ := hplace hbdots hb
  obtain rfl := Except.ok.inj (hm.symm.trans hm')
  exact Location.child_inj.mp (hla.symm.trans hlb)

/-- Where a file can be written, it can be after another was. -/
theorem target_set_of_target (h : t.target p = .ok l) (data : Bytes) (hq : t.target q = .ok m) :
    (t.set l (.file data)).target q = .ok m := by
  obtain ⟨-, -, hfree⟩ := target_eq_ok_iff.mp h
  obtain ⟨hnull, hlocate, hfree'⟩ := target_eq_ok_iff.mp hq
  exact target_eq_ok_iff.mpr ⟨hnull, locate_of_keeps (keeps_set hfree.not_directory _) hlocate,
    hfree'.set_file (names_ne_nil hfree.not_directory) data⟩

end Tree

namespace Run

variable {α β : Type} {w w' : World} {always done : List Path}

/-! ## files that steps touch -/

/-- A step touches no files but those where `always` leads, and when it
succeeds those where `done` leads. -/
structure Leaves (always done : List Path) (x : Run α) : Prop where
  ok : ∀ {w a w'}, x w = .ok a w' → w.files.SameBut (always ++ done) w'.files
  error : ∀ {w e w'}, x w = .error e w' → w.files.SameBut always w'.files

/-- Steps before the output can fail. -/
theorem Leaves.bind {x : Run α} {f : α → Run β} (hx : Leaves always [] x)
    (hf : ∀ a, Leaves always done (f a)) : Leaves always done (x >>= f) where
  ok h := by
    obtain ⟨a, w₁, h₁, h₂⟩ := runThen_eq_ok_iff.mp h
    exact ((hx.ok h₁).mono (by simp)).trans ((hf a).ok h₂)
  error h := by
    rcases runThen_eq_error_iff.mp h with h₁ | ⟨a, w₁, h₁, h₂⟩
    · exact hx.error h₁
    · exact ((hx.ok h₁).mono (by simp)).trans ((hf a).error h₂)

/-- What a step touches when it succeeds may be touched in any case. -/
theorem Leaves.anyway {x : Run α} (h : Leaves always done x) : Leaves (always ++ done) [] x :=
  ⟨fun hx => (h.ok hx).mono (by simp), fun hx => (h.error hx).mono (by simp)⟩

/-- A step that does not fail and has nothing to do with files. -/
def Quiet (x : Run α) : Prop := ∀ w, ∃ a w', x w = .ok a w' ∧ w'.files = w.files

theorem Quiet.bind {x : Run α} {f : α → Run β} (hx : Quiet x) (hf : ∀ a, Quiet (f a)) :
    Quiet (x >>= f) := by
  intro w
  obtain ⟨a, w₁, h₁, hw₁⟩ := hx w
  obtain ⟨b, w₂, h₂, hw₂⟩ := hf a w₁
  exact ⟨b, w₂, runThen_eq_ok_iff.mpr ⟨a, w₁, h₁, h₂⟩, hw₂.trans hw₁⟩

theorem quiet_pure (a : α) : Quiet (pure a) := fun w => ⟨a, w, rfl, rfl⟩

theorem quiet_say (notes : List Note) : Quiet (say notes) := fun _ => ⟨_, _, rfl, rfl⟩

theorem print_of_prints [Host] {line : String} (h : Host.prints line = true) (w : World) :
    print line w = .ok () { w with printed := line :: w.printed } := by
  rw [print, if_pos h]

theorem quiet_print [Host] {line : String} (h : Host.prints line = true) : Quiet (print line) :=
  fun w => ⟨_, _, print_of_prints h w, rfl⟩

/-- Steps behind the output cannot. -/
theorem Leaves.andQuiet {x : Run α} {f : α → Run β} (hx : Leaves always done x)
    (hf : ∀ a, Quiet (f a)) : Leaves always done (x >>= f) where
  ok h := by
    obtain ⟨a, w₁, h₁, h₂⟩ := runThen_eq_ok_iff.mp h
    obtain ⟨b, w₂, hquiet, hfiles⟩ := hf a w₁
    rw [h₂] at hquiet
    cases hquiet
    rw [hfiles]
    exact hx.ok h₁
  error h := by
    rcases runThen_eq_error_iff.mp h with h₁ | ⟨a, w₁, h₁, h₂⟩
    · exact hx.error h₁
    · obtain ⟨b, w₂, hquiet, -⟩ := hf a w₁
      rw [h₂] at hquiet
      cases hquiet

theorem Quiet.leaves {x : Run α} (h : Quiet x) : Leaves always [] x where
  ok {w _ _} hx := by
    obtain ⟨a, w', hok, hfiles⟩ := h w
    rw [hx] at hok
    cases hok
    rw [hfiles]
    exact .refl _ _
  error {w _ _} hx := by
    obtain ⟨a, w', hok, -⟩ := h w
    rw [hx] at hok
    cases hok

theorem check_eq_ok_iff {r : Except Error α} {a : α} :
    check r w = .ok a w' ↔ r = .ok a ∧ w' = w := by
  rw [check.eq_def]
  cases r <;> simp [eq_comm]

theorem check_eq_error_iff {r : Except Error α} {e : Error} :
    check r w = .error e w' ↔ r = .error e ∧ w' = w := by
  rw [check.eq_def]
  cases r <;> simp [eq_comm]

theorem ask_eq_ok_iff {f : Tree → Except FileError α} {a : α} :
    ask f w = .ok a w' ↔ f w.files = .ok a ∧ w' = w := by
  rw [ask.eq_def]
  cases f w.files <;> simp [eq_comm]

theorem checkThen_eq_ok_iff {r : Except Error α} {next : α → Run β} {b : β} :
    (check r >>= next) w = .ok b w' ↔ ∃ a, r = .ok a ∧ next a w = .ok b w' := by
  simp [runThen_eq_ok_iff, check_eq_ok_iff, and_assoc]

theorem askThen_eq_ok_iff {f : Tree → Except FileError α} {next : α → Run β} {b : β} :
    (ask f >>= next) w = .ok b w' ↔ ∃ a, f w.files = .ok a ∧ next a w = .ok b w' := by
  simp [runThen_eq_ok_iff, ask_eq_ok_iff, and_assoc]

theorem leaves_check (r : Except Error α) : Leaves always done (check r) where
  ok h := by
    obtain ⟨-, rfl⟩ := check_eq_ok_iff.mp h
    exact .refl _ _
  error h := by
    obtain ⟨-, rfl⟩ := check_eq_error_iff.mp h
    exact .refl _ _

theorem leaves_ask (f : Tree → Except FileError α) : Leaves always [] (ask f) where
  ok h := by
    obtain ⟨-, rfl⟩ := ask_eq_ok_iff.mp h
    exact .refl _ _
  error h := by
    rw [ask.eq_def] at h
    split at h
    · cases h
    · cases h
      exact .refl _ _

/-- A step behind a condition. -/
theorem leaves_guard {b : Bool} {e : Error} {next : Unit → Run α}
    (h : Leaves always done (next ())) :
    Leaves always done (if !b then check (.error e) >>= next else next ()) := by
  split
  · exact leaves_check (.error e)
  · exact h

theorem guard_eq_ok {b : Bool} {e : Error} {next : Unit → Run α} {a : α}
    (h : (if !b then check (.error e) >>= next else next ()) w = .ok a w') :
    next () w = .ok a w' := by
  split at h
  · cases h
  · exact h

theorem leaves_readFile (p : Path) : Leaves always [] (readFile p) := leaves_ask _

theorem makeDirectory_eq_ok_iff [Host] {p : Path} {u : Unit} :
    makeDirectory p w = .ok u w' ↔
      ∃ t, w.files.makeDirectory p = (t, .ok ()) ∧ w' = { w with files := t } := by
  rw [makeDirectory, change.eq_def]
  dsimp only
  rcases w.files.makeDirectory p with ⟨t, e | ⟨⟩⟩
  · simp
  · simp [eq_comm]

theorem makeDirectory_eq_error [Host] {p : Path} {e : Error} (h : makeDirectory p w = .error e w') :
    w'.files = (w.files.makeDirectory p).1 := by
  rw [makeDirectory, change.eq_def] at h
  dsimp only at h
  split at h
  · cases h
  · next t _ hmade =>
    cases h
    rw [hmade]

theorem sameBut_of_makeDirectory [Host] {p : Path} {u : Unit} (h : makeDirectory p w = .ok u w') :
    w.files.SameBut [] w'.files := by
  obtain ⟨t, ht, rfl⟩ := makeDirectory_eq_ok_iff.mp h
  have hsame := w.files.sameBut_makeDirectory p
  rwa [ht] at hsame

theorem leaves_makeDirectory [Host] (p : Path) : Leaves always [] (makeDirectory p) where
  ok h := (sameBut_of_makeDirectory h).mono (by simp)
  error {w _ _} h := by
    rw [makeDirectory_eq_error h]
    exact (w.files.sameBut_makeDirectory p).mono (by simp)

theorem writeFile_eq_ok_iff {p : Path} {data : Bytes} {u : Unit} :
    writeFile p data w = .ok u w' ↔
      ∃ l, w.files.target p = .ok l ∧ w' = { w with files := w.files.set l (.file data) } := by
  simp only [writeFile, runThen_eq_ok_iff, ask_eq_ok_iff]
  constructor
  · rintro ⟨l, _, ⟨hl, rfl⟩, hset⟩
    cases hset
    exact ⟨l, hl, rfl⟩
  · rintro ⟨l, hl, rfl⟩
    exact ⟨l, w, ⟨hl, rfl⟩, rfl⟩

theorem leaves_writeFile (p : Path) (data : Bytes) : Leaves always [p] (writeFile p data) where
  ok h := by
    obtain ⟨l, hl, rfl⟩ := writeFile_eq_ok_iff.mp h
    exact (Tree.sameBut_set_of_target hl data).mono (by simp)
  error h := by
    rcases runThen_eq_error_iff.mp h with h₁ | ⟨l, w₁, -, h₂⟩
    · exact (leaves_ask _).error h₁
    · cases h₂

theorem leaves_writeBelow [Host] (p : Path) (data : Bytes) :
    Leaves always [p] (writeBelow p data) :=
  (leaves_makeDirectory _).bind fun _ => leaves_writeFile p data

theorem writeBelow_eq_ok_iff [Host] {p : Path} {data : Bytes} {u : Unit} :
    writeBelow p data w = .ok u w' ↔
      ∃ t l, w.files.makeDirectory p.parent = (t, .ok ()) ∧ t.target p = .ok l ∧
        w' = { w with files := t.set l (.file data) } := by
  simp only [writeBelow, runThen_eq_ok_iff, makeDirectory_eq_ok_iff, writeFile_eq_ok_iff]
  constructor
  · rintro ⟨_, _, ⟨t, ht, rfl⟩, l, hl, rfl⟩
    exact ⟨t, l, ht, hl, rfl⟩
  · rintro ⟨t, l, ht, hl, rfl⟩
    exact ⟨(), _, ⟨t, ht, rfl⟩, l, hl, rfl⟩

/-- A file that was written is read. -/
theorem readFile_of_writeBelow [Host] {p : Path} {data : Bytes} {u : Unit}
    (h : writeBelow p data w = .ok u w') : w'.files.readFile p = .ok data := by
  obtain ⟨t, l, -, hl, rfl⟩ := writeBelow_eq_ok_iff.mp h
  exact Tree.readFile_set_of_target hl data

/-! ## scripts -/

/-- The path of a trace, if there is one. -/
def tracePaths (trace : Option (Argument Path)) : List Path :=
  trace.toList.filterMap Argument.toOption

theorem leaves_writeTrace [Host] (trace : Option (Argument Path)) (is : List Instruction) :
    Leaves (tracePaths trace) [] (writeTrace trace is) := by
  rcases trace with _ | _ | p
  · exact (quiet_pure ()).leaves
  · exact leaves_check (.error (.blank .above))
  · have hwrite : Leaves [] [p] (writeBelow p (traceLines is)) := leaves_writeBelow ..
    exact hwrite.anyway

theorem leaves_loadWith [Codecs] [Host] (p : Path) (options : Options)
    (trace : Option (Argument Path)) :
    Leaves (tracePaths trace) [] (loadWith p options trace) := by
  refine (leaves_ask _).bind fun isFile => leaves_guard ?_
  refine (leaves_readFile p).bind fun data => (quiet_say _).leaves.bind fun _ => ?_
  split
  · exact (leaves_writeTrace trace _).bind fun _ => leaves_check _
  · refine (leaves_writeTrace trace _).bind fun _ => ?_
    exact ((quiet_say _).bind fun _ => quiet_pure _).leaves

theorem leaves_loadScript [Codecs] [Host] (p : Path) (options : Except Error Options)
    (trace : Option (Argument Path)) :
    Leaves (tracePaths trace) [] (loadScript p options trace) := by
  refine (leaves_writeTrace trace []).bind fun _ => (leaves_check _).bind fun options => ?_
  exact leaves_loadWith p options trace

theorem leaves_readSheet (sheet : Argument Path) : Leaves always [] (readSheet sheet) := by
  refine (leaves_check _).bind fun p => (leaves_ask _).bind fun isFile => leaves_guard ?_
  refine (leaves_readFile p).bind fun data => ?_
  split
  · exact leaves_check _
  · refine (quiet_say _).leaves.bind fun _ => (leaves_check _).bind fun entries => ?_
    exact ((quiet_say _).bind fun _ => quiet_pure _).leaves

theorem leaves_saveScript [Host] (session : Session) (output : Argument Path) :
    Leaves always output.toOption.toList (saveScript session output) := by
  refine (leaves_check _).bind fun data => ?_
  cases output with
  | blank => exact leaves_check (.error (.blank .path))
  | given p => exact (leaves_writeBelow p data).andQuiet fun _ => quiet_say _

theorem toNat_lt_of_mem_decimal {value : Int} {c : Char}
    (h : c ∈ (Numeral.decimal value).toList) : c.toNat < 0x80 := by
  rw [Numeral.decimal, Numeral.decimalPadded, String.toList_ofList] at h
  rcases Numeral.mem_padded h with rfl | rfl | ⟨n, hc⟩
  · decide
  · decide
  · obtain ⟨d, hd, rfl⟩ :=
      Text.exists_digitChar_of_isDigit (Numeral.isDigit_of_mem_decimalDigits hc)
    exact (by decide : ∀ d < 10, (Nat.digitChar d).toNat < 0x80) d hd

/-- The line on a revision is ASCII, which standard output always takes. -/
theorem prints_reportLine [Host] (report : Report) : Host.prints (reportLine report) = true := by
  have hmode : ∀ c ∈ report.mode.name.toList, c.toNat < 0x80 := by
    cases report.mode <;> simp [Mode.name]
  have hdecimal (n : Nat) : ∀ c ∈ (Numeral.decimal n).toList, c.toNat < 0x80 :=
    fun _ => toNat_lt_of_mem_decimal
  apply Host.prints_ascii
  simp only [reportLine, String.toList_append, List.forall_mem_append]
  refine ⟨⟨⟨⟨⟨⟨⟨⟨⟨hmode, ?_⟩, hdecimal _⟩, ?_⟩, hdecimal _⟩, ?_⟩, hdecimal _⟩, ?_⟩, hdecimal _⟩, ?_⟩
  all_goals simp

theorem leaves_revise [Codecs] [Host] (mode : Mode) (script : ScriptArguments)
    (sheet output : Argument Path) (outputEncoding : Option (Argument String))
    (allowOverflow : Bool) :
    Leaves (tracePaths script.trace) output.toOption.toList
      (revise mode script sheet output outputEncoding allowOverflow) := by
  refine (leaves_loadScript ..).bind fun session => (leaves_readSheet sheet).bind fun texts => ?_
  refine (quiet_say _).leaves.bind fun _ => (leaves_check _).bind fun report => ?_
  exact (leaves_saveScript ..).andQuiet fun _ =>
    (quiet_print (prints_reportLine report)).bind fun _ => quiet_pure _

/-! ## archives -/

theorem leaves_readFiles (p : Path) (names : List String) :
    Leaves always [] (readFiles p names) := by
  induction names with
  | nil => exact (quiet_pure _).leaves
  | cons name names ih =>
      exact (leaves_readFile _).bind fun _ => ih.bind fun _ => (quiet_pure _).leaves

theorem leaves_create [Host] (input : Path) (output : Argument Path) :
    Leaves [] output.toOption.toList (create input output) := by
  refine (leaves_ask _).bind fun names => (leaves_check _).bind fun files => ?_
  refine (leaves_readFiles ..).bind fun payloads => (leaves_check _).bind fun data => ?_
  cases output with
  | blank => exact leaves_check (.error (.blank .path))
  | given p =>
      exact (leaves_writeBelow p data).andQuiet fun _ => (quiet_say _).bind fun _ => quiet_pure _

/-! ## what the output of a revision holds -/

theorem need_eq_ok_iff {use : BlankUse} {argument : Argument α} {a : α} :
    argument.need use = .ok a ↔ argument = .given a := by
  cases argument <;> simp [Argument.need]

/-- Writing a trace of `is` turns one tree into another. -/
def Traces [Host] (trace : Option (Argument Path)) (is : List Instruction) (t t' : Tree) : Prop :=
  ∀ notes printed, writeTrace trace is ⟨t, notes, printed⟩ = .ok () ⟨t', notes, printed⟩

theorem traces_of_writeTrace [Host] {trace : Option (Argument Path)} {is : List Instruction}
    {u : Unit} (h : writeTrace trace is w = .ok u w') : Traces trace is w.files w'.files := by
  rcases trace with _ | _ | p
  · cases h
    exact fun _ _ => rfl
  · cases h
  · obtain ⟨t, l, ht, hl, rfl⟩ := writeBelow_eq_ok_iff.mp h
    exact fun notes printed =>
      writeBelow_eq_ok_iff.mpr ⟨t, l, ht, hl, rfl⟩

/-- Loading a script reads it after the trace was begun. -/
theorem loadScript_eq_ok [Codecs] [Host] {p : Path} {options : Except Error Options}
    {trace : Option (Argument Path)} {session : Session}
    (h : loadScript p options trace w = .ok session w') :
    ∃ o opened data, options = .ok o ∧ Traces trace [] w.files opened ∧
      opened.readFile p = .ok data ∧ Session.load data o = .ok session ∧
      Traces trace session.decoded.instructions opened w'.files := by
  obtain ⟨_, w₁, hbegin, h⟩ := runThen_eq_ok_iff.mp h
  obtain ⟨o, ho, h⟩ := checkThen_eq_ok_iff.mp h
  obtain ⟨isFile, -, h⟩ := askThen_eq_ok_iff.mp h
  obtain ⟨data, hdata, h⟩ := askThen_eq_ok_iff.mp (guard_eq_ok h)
  obtain ⟨_, w₂, hsay, h⟩ := runThen_eq_ok_iff.mp h
  cases hsay
  cases hload : Session.load data o with
  | error interrupted =>
      rw [hload] at h
      obtain ⟨_, _, -, hfails⟩ := runThen_eq_ok_iff.mp h
      cases hfails
  | ok loaded =>
      rw [hload] at h
      obtain ⟨_, w₃, htrace, h⟩ := runThen_eq_ok_iff.mp h
      cases h
      have htraced := traces_of_writeTrace htrace
      exact ⟨o, w₁.files, data, ho, traces_of_writeTrace hbegin, hdata, hload, htraced⟩

section Load

variable [Codecs] [Host] {p : Path} {options : Except Error Options} {o : Options} {data : Bytes}
  (hoptions : options = .ok o) (hdata : w.files.readFile p = .ok data)

include hoptions hdata

/-- Whether a script is loaded is up to the file that it is read from. -/
theorem loadScript_of_readFile :
    (∀ session, Session.load data o = .ok session →
      ∃ w', loadScript p options none w = .ok session w' ∧ w'.files = w.files) ∧
    ∀ interrupted, Session.load data o = .error interrupted →
      ∃ w', loadScript p options none w = .error interrupted.error w' ∧ w'.files = w.files := by
  have hfile : ask (fun t => t.isFile p) w = .ok true w :=
    ask_of_ok (Tree.isFile_of_readFile hdata)
  have htrace : writeTrace none [] w = .ok () w := rfl
  have hsay : say (Note.ofLoad data) w =
      .ok () { w with notes := (Note.ofLoad data).reverse ++ w.notes } := rfl
  rw [loadScript, bind_of_ok htrace, bind_of_ok (check_of_ok hoptions), loadWith, bind_of_ok hfile]
  simp only [Bool.not_true, Bool.false_eq_true, if_false]
  rw [bind_of_ok (readFile_of_ok hdata), bind_of_ok hsay]
  constructor
  · intro session hload
    rw [hload]
    exact ⟨_, rfl, rfl⟩
  · intro interrupted hload
    rw [hload]
    exact ⟨_, rfl, rfl⟩

/-- A script is loaded from its file, without a trace. -/
theorem loadScript_of_load {session : Session} (hload : Session.load data o = .ok session) :
    ∃ w', loadScript p options none w = .ok session w' ∧ w'.files = w.files :=
  (loadScript_of_readFile hoptions hdata).1 session hload

/-- A script is not loaded from a file that holds none. -/
theorem loadScript_of_interrupted {interrupted : Interrupted}
    (hload : Session.load data o = .error interrupted) :
    ∃ w', loadScript p options none w = .error interrupted.error w' ∧ w'.files = w.files :=
  (loadScript_of_readFile hoptions hdata).2 interrupted hload

end Load

/-- A script into which the texts of a sheet file are put is written as
`out`. -/
def Rewritten [Codecs] (session : Session) (mode : Mode) (sheet out : Bytes) : Prop :=
  ∃ text entries report, Encoding.Utf8.decodeStrict? sheet = some text ∧
    Sheet.parse (String.ofList (unifyLines [] text.toList)) = .ok entries ∧
    (session.apply mode (Sheet.toTexts entries)).result = .ok report ∧
    (session.apply mode (Sheet.toTexts entries)).session.toBytes = .ok out

/-- What a revision leaves in its output: the script that was loaded, with the
texts of the sheet.  Both are read behind the trace. -/
def Revised [Codecs] [Host] (mode : Mode) (script : ScriptArguments) (sheet output : Argument Path)
    (outputEncoding : Option (Argument String)) (allowOverflow : Bool) (files after : Tree) :
    Prop :=
  ∃ options opened data session traced sheetPath sheetData path out,
    optionsOf script outputEncoding allowOverflow = .ok options ∧
    Traces script.trace [] files opened ∧ opened.readFile script.input = .ok data ∧
    Session.load data options = .ok session ∧
    Traces script.trace session.decoded.instructions opened traced ∧
    sheet = .given sheetPath ∧ traced.readFile sheetPath = .ok sheetData ∧
    Rewritten session mode sheetData out ∧
    output = .given path ∧ after.readFile path = .ok out

theorem readSheet_eq_ok {sheet : Argument Path} {texts : Ordered Int String}
    (h : readSheet sheet w = .ok texts w') :
    ∃ p data text entries, sheet = .given p ∧ w.files.readFile p = .ok data ∧
      Encoding.Utf8.decodeStrict? data = some text ∧
      Sheet.parse (String.ofList (unifyLines [] text.toList)) = .ok entries ∧
      texts = Sheet.toTexts entries ∧ w'.files = w.files := by
  obtain ⟨p, hp, h⟩ := checkThen_eq_ok_iff.mp h
  obtain ⟨isFile, -, h⟩ := askThen_eq_ok_iff.mp h
  obtain ⟨data, hdata, h⟩ := askThen_eq_ok_iff.mp (guard_eq_ok h)
  cases htext : Encoding.Utf8.decodeStrict? data with
  | none =>
      rw [htext] at h
      cases h
  | some text =>
      rw [htext] at h
      obtain ⟨_, w₁, hsay, h⟩ := runThen_eq_ok_iff.mp h
      cases hsay
      obtain ⟨entries, hentries, h⟩ := checkThen_eq_ok_iff.mp h
      cases h
      exact ⟨p, data, text, entries, need_eq_ok_iff.mp hp, hdata, htext, hentries, rfl, rfl⟩

theorem saveScript_eq_ok [Host] {session : Session} {output : Argument Path} {u : Unit}
    (h : saveScript session output w = .ok u w') :
    ∃ p out, output = .given p ∧ session.toBytes = .ok out ∧ w'.files.readFile p = .ok out := by
  obtain ⟨out, hout, h⟩ := checkThen_eq_ok_iff.mp h
  obtain ⟨p, hp, h⟩ := checkThen_eq_ok_iff.mp h
  obtain ⟨_, w₁, hwrite, h⟩ := runThen_eq_ok_iff.mp h
  have hread := readFile_of_writeBelow hwrite
  cases h
  exact ⟨p, out, need_eq_ok_iff.mp hp, hout, hread⟩

theorem revise_eq_ok [Codecs] [Host] {mode : Mode} {script : ScriptArguments}
    {sheet output : Argument Path} {outputEncoding : Option (Argument String)}
    {allowOverflow : Bool} {n : Nat}
    (h : revise mode script sheet output outputEncoding allowOverflow w = .ok n w') :
    n = 0 ∧ Revised mode script sheet output outputEncoding allowOverflow w.files w'.files := by
  obtain ⟨session, w₁, hload, h⟩ := runThen_eq_ok_iff.mp h
  obtain ⟨options, opened, data, hoptions, hopened, hdata, hsession, htraced⟩ :=
    loadScript_eq_ok hload
  obtain ⟨texts, w₂, hsheet, h⟩ := runThen_eq_ok_iff.mp h
  obtain ⟨p, sheetData, text, entries, hp, hsheetData, htext, hentries, rfl, -⟩ :=
    readSheet_eq_ok hsheet
  obtain ⟨_, w₃, hsay, h⟩ := runThen_eq_ok_iff.mp h
  cases hsay
  obtain ⟨report, hreport, h⟩ := checkThen_eq_ok_iff.mp h
  obtain ⟨_, w₄, hsave, h⟩ := runThen_eq_ok_iff.mp h
  obtain ⟨path, out, hpath, hout, hwritten⟩ := saveScript_eq_ok hsave
  rw [bind_of_ok (print_of_prints (prints_reportLine report) w₄)] at h
  cases h
  exact ⟨rfl, options, opened, data, session, _, p, sheetData, path, out, hoptions, hopened, hdata,
    hsession, htraced, hp, hsheetData, ⟨text, entries, report, htext, hentries, hreport, hout⟩,
    hpath, hwritten⟩

/-! ## what the outputs of archive commands hold -/

/-- What packing leaves in its output: the archive of the numbered files of the
directory.  No other file has changed. -/
def Packed (input path : Path) (files after : Tree) : Prop :=
  ∃ names numbered payloads data,
    files.fileNames input = .ok names ∧
    Archive.numberedFiles input.toString names = .ok numbered ∧
    List.Forall₂ (fun name payload => files.readFile (input.child name) = .ok payload)
      numbered payloads ∧
    Archive.build payloads = .ok data ∧
    files.SameBut [path] after ∧ after.readFile path = .ok data

theorem readFiles_eq_ok {p : Path} {names : List String} {payloads : List Bytes}
    (h : readFiles p names w = .ok payloads w') :
    w' = w ∧ List.Forall₂ (fun name payload => w.files.readFile (p.child name) = .ok payload)
      names payloads := by
  induction names generalizing payloads w' with
  | nil =>
      cases h
      exact ⟨rfl, .nil⟩
  | cons name names ih =>
      obtain ⟨first, hfirst, h₁⟩ := askThen_eq_ok_iff.mp h
      obtain ⟨others, w₁, hothers, h₂⟩ := runThen_eq_ok_iff.mp h₁
      obtain ⟨hw₁, hrest⟩ := ih hothers
      cases h₂
      exact ⟨hw₁, .cons hfirst hrest⟩

theorem create_eq_ok [Host] {input path : Path} {output : Argument Path}
    (h : create input output w = .ok path w') :
    output = .given path ∧ Packed input path w.files w'.files := by
  have hsame := (leaves_create input output).ok h
  obtain ⟨names, hnames, h⟩ := askThen_eq_ok_iff.mp h
  obtain ⟨numbered, hnumbered, h⟩ := checkThen_eq_ok_iff.mp h
  obtain ⟨payloads, w₁, hread, h⟩ := runThen_eq_ok_iff.mp h
  rw [Host.progress_eq] at hread
  obtain ⟨-, hpayloads⟩ := readFiles_eq_ok hread
  obtain ⟨data, hdata, h⟩ := checkThen_eq_ok_iff.mp h
  obtain ⟨p, hp, h⟩ := checkThen_eq_ok_iff.mp h
  obtain ⟨_, w₂, hwrite, h⟩ := runThen_eq_ok_iff.mp h
  have hwritten := readFile_of_writeBelow hwrite
  cases h
  obtain rfl := need_eq_ok_iff.mp hp
  exact ⟨rfl, names, numbered, payloads, data, hnames, hnumbered, hpayloads, hdata, hsame, hwritten⟩

/-- The files of entries in a directory hold their payloads, and no other file
has changed. -/
structure Written (data : Bytes) (path : Path) (entries : List Archive.Entry)
    (files after : Tree) : Prop where
  sameBut : files.SameBut (entries.map fun e => path.child e.name) after
  readFile : ∀ e ∈ entries, ∃ payload, Archive.payload data e = .ok payload ∧
    after.readFile (path.child e.name) = .ok payload

/-- What unpacking leaves in its output: one file for each entry, and nothing
else. -/
def Unpacked (input path : Path) (entries : List Archive.Entry) (files after : Tree) : Prop :=
  ∃ data, files.readFile input = .ok data ∧ Archive.readIndex data = .ok entries ∧
    Written data path entries files after

/-- What unpacking leaves where it comes upon an entry whose file cannot be
written: the files of the entries before it. -/
def Obstructed [Host] (input path : Path) (files after : Tree) : Prop :=
  ∃ data front e behind, files.readFile input = .ok data ∧
    Archive.readIndex data = .ok (front ++ e :: behind) ∧
    (∀ l, (files.makeDirectory path).1.target (path.child e.name) ≠ .ok l) ∧
    Written data path front files after

section Entries

variable {data payload : Bytes} {path : Path} {e : Archive.Entry} {entries : List Archive.Entry}
  {files after : Tree} {l : Location}

theorem written_nil (data : Bytes) (path : Path) (files : Tree) :
    Written data path [] files files := ⟨.refl _ _, by simp⟩

/-- Behind the file of one entry come those of others, which lead elsewhere. -/
theorem Written.cons (hl : files.target (path.child e.name) = .ok l)
    (hpayload : Archive.payload data e = .ok payload)
    (hdots : ∀ f ∈ e :: entries, f.name ≠ "..") (hname : e.name ∉ entries.map Archive.Entry.name)
    (h : Written data path entries (files.set l (.file payload)) after) :
    Written data path (e :: entries) files after where
  sameBut := ((Tree.sameBut_set_of_target hl payload).mono (by simp)).trans
    (h.sameBut.mono (by simp))
  readFile := by
    refine List.forall_mem_cons.mpr ⟨⟨payload, hpayload, ?_⟩, h.readFile⟩
    refine h.sameBut.readFile (Tree.readFile_set_of_target hl payload) fun q hq m hm hm' => ?_
    obtain ⟨f, hf, rfl⟩ := List.mem_map.mp hq
    rw [List.forall_mem_cons] at hdots
    exact hname (Tree.locate_child_inj hm hm' hdots.1 (hdots.2 f hf) ▸ List.mem_map_of_mem hf)

/-- Entries with names of their own are all written, or those up to the first
that cannot be. -/
theorem writeEntries_cases
    (hpayloads : ∀ e ∈ entries, ∃ payload, Archive.payload data e = .ok payload)
    (hdots : ∀ e ∈ entries, e.name ≠ "..") (hnames : (entries.map Archive.Entry.name).Nodup) :
    (∃ w', writeEntries data path entries w = .ok () w' ∧
      Written data path entries w.files w'.files) ∨
    ∃ front e behind fault w', entries = front ++ e :: behind ∧
      (∀ l, w.files.target (path.child e.name) ≠ .ok l) ∧
      writeEntries data path entries w = .error fault w' ∧
      Written data path front w.files w'.files := by
  induction entries generalizing w with
  | nil => exact .inl ⟨w, rfl, written_nil ..⟩
  | cons e entries ih =>
      obtain ⟨payload, hpayload⟩ := hpayloads e List.mem_cons_self
      rw [writeEntries, bind_of_ok (check_of_ok hpayload)]
      cases htarget : w.files.target (path.child e.name) with
      | error fault =>
          refine .inr ⟨[], e, entries, .file fault, w, rfl, by simp [htarget], ?_, written_nil ..⟩
          refine runThen_eq_error_iff.mpr (.inl (runThen_eq_error_iff.mpr (.inl ?_)))
          rw [ask, htarget]
      | ok l =>
          rw [bind_of_ok (writeFile_of_target htarget payload)]
          rw [List.map_cons, List.nodup_cons] at hnames
          rcases @ih { w with files := w.files.set l (.file payload) }
            (List.forall_mem_cons.mp hpayloads).2 (List.forall_mem_cons.mp hdots).2 hnames.2 with
            ⟨w', hrun, hwritten⟩ | ⟨front, f, behind, fault, w', rfl, hstops, hrun, hwritten⟩
          · exact .inl ⟨w', hrun, hwritten.cons htarget hpayload hdots hnames.1⟩
          · refine .inr ⟨e :: front, f, behind, fault, w', rfl, fun m hm => ?_, hrun, ?_⟩
            · exact hstops m (Tree.target_set_of_target htarget payload hm)
            · refine hwritten.cons htarget hpayload (fun g hg => hdots g ?_) fun hmem => hnames.1 ?_
              · exact (List.cons_subset_cons e (List.subset_append_left ..)) hg
              · rw [List.map_append]
                exact List.mem_append_left _ hmem

/-- The entries of an archive have payloads, and names of their own that stay in
the directory. -/
theorem entries_of_readIndex (h : Archive.readIndex data = .ok entries) :
    (∀ e ∈ entries, ∃ payload, Archive.payload data e = .ok payload) ∧
      (∀ e ∈ entries, e.name ≠ "..") ∧ (entries.map Archive.Entry.name).Nodup := by
  refine ⟨fun e he => ?_, fun e he => ?_, ?_⟩
  · obtain ⟨bodies, hlaid, rfl⟩ := Archive.readIndex_eq_ok_iff.mp h
    obtain ⟨payload, -, hpayload⟩ := exists_mem_of_mapM (mapM_eq_ok_iff.mpr hlaid.payloads) he
    exact ⟨payload, hpayload⟩
  · obtain ⟨index, hindex⟩ := Archive.exists_fileName_of_readIndex h he
    rw [← hindex]
    exact Archive.fileName_ne_dots index
  · obtain ⟨bodies, -, rfl⟩ := Archive.readIndex_eq_ok_iff.mp h
    rw [Archive.map_name_entriesAt]
    exact Archive.nodup_fileNames _

/-- A directory that was made before changes no file. -/
theorem Written.trans_sameBut {before : Tree} (hmade : before.SameBut [] files)
    (h : Written data path entries files after) : Written data path entries before after :=
  ⟨(hmade.mono (List.nil_subset _)).trans h.sameBut, h.readFile⟩

end Entries

section Extract

variable [Host] {input path : Path} {output : Argument Path}

/-- Extracting fails before it writes anything, or at an entry that cannot be
written. -/
theorem extract_eq_error {fault : Error} (h : extract input output w = .error fault w') :
    w.files.SameBut [] w'.files ∨
      ∃ path, output = .given path ∧ Obstructed input path w.files w'.files := by
  rcases runThen_eq_error_iff.mp h with h₁ | ⟨data, w₁, hread, h₁⟩
  · exact .inl ((leaves_readFile input).error h₁)
  obtain ⟨hdata, rfl⟩ := ask_eq_ok_iff.mp hread
  rcases runThen_eq_error_iff.mp h₁ with h₂ | ⟨entries, w₂, hindex, h₂⟩
  · rw [(check_eq_error_iff.mp h₂).2]
    exact .inl (.refl [] w₁.files)
  obtain ⟨hentries, rfl⟩ := check_eq_ok_iff.mp hindex
  rcases runThen_eq_error_iff.mp h₂ with h₃ | ⟨path, w₃, hneed, h₃⟩
  · rw [(check_eq_error_iff.mp h₃).2]
    exact .inl (.refl [] w₂.files)
  obtain ⟨hpath, rfl⟩ := check_eq_ok_iff.mp hneed
  rcases runThen_eq_error_iff.mp h₃ with h₄ | ⟨_, w₄, hmade, h₄⟩
  · exact .inl ((leaves_makeDirectory path).error h₄)
  have hsame := sameBut_of_makeDirectory hmade
  obtain ⟨t, ht, rfl⟩ := makeDirectory_eq_ok_iff.mp hmade
  rw [Host.progress_eq] at h₄
  obtain ⟨hpayloads, hdots, hnames⟩ := entries_of_readIndex hentries
  rcases writeEntries_cases (w := { w₃ with files := t }) hpayloads hdots hnames with
    ⟨w₅, hrun, -⟩ | ⟨front, e, behind, fault', w₅, rfl, hstops, hrun, hwritten⟩
  · -- behind the entries nothing fails
    rw [bind_of_ok hrun] at h₄
    cases h₄
  · rw [runThen_eq_error_iff, hrun] at h₄
    rcases h₄ with hstop | ⟨_, _, hgoes, -⟩
    · cases hstop
      refine .inr ⟨path, need_eq_ok_iff.mp hpath, data, front, e, behind, hdata, hentries, ?_,
        hwritten.trans_sameBut hsame⟩
      rwa [ht]
    · cases hgoes

/-- Extracting writes the files of all entries. -/
theorem extract_eq_ok {count : Nat} (h : extract input output w = .ok (path, count) w') :
    output = .given path ∧
      ∃ entries, count = entries.length ∧ Unpacked input path entries w.files w'.files := by
  obtain ⟨data, hdata, h⟩ := askThen_eq_ok_iff.mp h
  obtain ⟨entries, hentries, h⟩ := checkThen_eq_ok_iff.mp h
  obtain ⟨p, hp, h⟩ := checkThen_eq_ok_iff.mp h
  obtain ⟨_, w₁, hmade, h⟩ := runThen_eq_ok_iff.mp h
  have hsame := sameBut_of_makeDirectory hmade
  rw [Host.progress_eq] at h
  obtain ⟨hpayloads, hdots, hnames⟩ := entries_of_readIndex hentries
  rcases writeEntries_cases (w := w₁) hpayloads hdots hnames with
    ⟨w₂, hrun, hwritten⟩ | ⟨front, e, behind, fault, w₂, rfl, -, hrun, -⟩
  · rw [bind_of_ok hrun] at h
    cases h
    exact ⟨need_eq_ok_iff.mp hp, entries, rfl, data, hdata, hentries, hwritten.trans_sameBut hsame⟩
  · rw [runThen_eq_ok_iff, hrun] at h
    obtain ⟨_, _, h, -⟩ := h
    cases h

end Extract

/-! ## lines on archives -/

section Print

variable [Host] {line : String} {n : Nat}

/-- A line is printed at the end. -/
theorem printLast_eq_ok (h : (print line >>= fun _ => pure n) w = .ok m w') :
    m = n ∧ w'.files = w.files := by
  cases hprints : Host.prints line with
  | true =>
      rw [bind_of_ok (print_of_prints hprints w)] at h
      cases h
      exact ⟨rfl, rfl⟩
  | false =>
      rw [runThen_eq_ok_iff, print, if_neg (by simp [hprints])] at h
      obtain ⟨_, _, h, -⟩ := h
      cases h

theorem printLast_eq_error {fault : Error}
    (h : (print line >>= fun _ => pure n) w = .error fault w') :
    Host.prints line = false ∧ fault = .file (.unprintable line) ∧ w' = w := by
  cases hprints : Host.prints line with
  | true =>
      rw [bind_of_ok (print_of_prints hprints w)] at h
      cases h
  | false =>
      rw [runThen_eq_error_iff, print, if_neg (by simp [hprints])] at h
      rcases h with h | ⟨_, _, h, -⟩
      · cases h
        exact ⟨rfl, rfl, rfl⟩
      · cases h

end Print

end Run

/-! ## whole commands -/

namespace Command

/-- What becomes of the files: `done` if a command ends with the status 0, and
`failed`, given how it ends, otherwise. -/
structure Ends [Codecs] [Host] (c : Command) (files : Tree)
    (failed : Except Error Nat → Tree → Prop) (done : Tree → Prop) : Prop where
  failed : (c.run files).status ≠ .ok 0 → failed (c.run files).status (c.run files).files
  done : (c.run files).status = .ok 0 → done (c.run files).files

/-- A command ends as its action does. -/
theorem ends_of_action [Codecs] [Host] {c : Command} {x : Run Nat} (hx : Run.action c.action = x)
    {files : Tree} {failed : Except Error Nat → Tree → Prop} {done : Tree → Prop}
    (herror : ∀ {e w}, x ⟨files, [], []⟩ = .error e w →
      failed (if e.isReported then .ok 1 else .error e) w.files)
    (hok : ∀ {n w}, x ⟨files, [], []⟩ = .ok n w → n = 0 ∧ done w.files) :
    c.Ends files failed done := by
  cases hran : x ⟨files, [], []⟩ with
  | ok n w =>
      obtain ⟨rfl, hfiles⟩ := hok hran
      have hrun : c.run files = ⟨w.files, c.logLines w.notes, w.printed.reverse, .ok 0⟩ := by
        rw [run, hx, hran]
      exact ⟨fun h => absurd (by rw [hrun]) h, fun _ => by rw [hrun]; exact hfiles⟩
  | error e w =>
      have hrun : (c.run files).files = w.files ∧
          (c.run files).status = if e.isReported then .ok 1 else .error e := by
        rw [run, hx, hran]
        dsimp only
        split
        · exact ⟨rfl, rfl⟩
        · exact ⟨rfl, rfl⟩
      refine ⟨fun _ => by rw [hrun.1, hrun.2]; exact herror hran, fun h => ?_⟩
      rw [hrun.2] at h
      split at h <;> cases h

/-- Standard output does not take a line, and the command passes that on. -/
def Unsaid [Host] (line : String) (status : Except Error Nat) : Prop :=
  Host.prints line = false ∧ status = .error (.file (.unprintable line))

theorem ends_pack [Codecs] [Host] (verbose : Bool) (files : Tree) (input : Path)
    (output : Argument Path) :
    Ends ⟨verbose, .pack input output⟩ files
      (fun status after => files.SameBut [] after ∨
        ∃ path, output = .given path ∧ Run.Packed input path files after ∧
          Unsaid (Run.packedLine input path) status)
      fun after => ∃ path, output = .given path ∧ Run.Packed input path files after := by
  refine ends_of_action rfl (fun h => ?_) fun h => ?_
  · rcases runThen_eq_error_iff.mp h with h | ⟨path, w, hcreate, h⟩
    · exact .inl ((Run.leaves_create input output).error h)
    · obtain ⟨hgiven, hpacked⟩ := Run.create_eq_ok hcreate
      obtain ⟨hprints, rfl, rfl⟩ := Run.printLast_eq_error h
      exact .inr ⟨path, hgiven, hpacked, hprints, rfl⟩
  · obtain ⟨path, w, hcreate, h⟩ := runThen_eq_ok_iff.mp h
    obtain ⟨hzero, hfiles⟩ := Run.printLast_eq_ok h
    rw [hfiles]
    exact ⟨hzero, path, Run.create_eq_ok hcreate⟩

theorem ends_unpack [Codecs] [Host] (verbose : Bool) (files : Tree) (input : Path)
    (output : Argument Path) :
    Ends ⟨verbose, .unpack input output⟩ files
      (fun status after => files.SameBut [] after ∨
        ∃ path, output = .given path ∧ (Run.Obstructed input path files after ∨
          ∃ entries, Run.Unpacked input path entries files after ∧
            Unsaid (Run.extractedLine path entries.length) status))
      fun after => ∃ path entries, output = .given path ∧
        Run.Unpacked input path entries files after := by
  refine ends_of_action rfl (fun h => ?_) fun h => ?_
  · rcases runThen_eq_error_iff.mp h with h | ⟨⟨path, count⟩, w, hextract, h⟩
    · rcases Run.extract_eq_error h with hsame | ⟨path, hgiven, hobstructed⟩
      · exact .inl hsame
      · exact .inr ⟨path, hgiven, .inl hobstructed⟩
    · obtain ⟨hgiven, entries, rfl, hunpacked⟩ := Run.extract_eq_ok hextract
      obtain ⟨hprints, rfl, rfl⟩ := Run.printLast_eq_error h
      exact .inr ⟨path, hgiven, .inr ⟨entries, hunpacked, hprints, rfl⟩⟩
  · obtain ⟨⟨path, count⟩, w, hextract, h⟩ := runThen_eq_ok_iff.mp h
    obtain ⟨hgiven, entries, rfl, hunpacked⟩ := Run.extract_eq_ok hextract
    obtain ⟨hzero, hfiles⟩ := Run.printLast_eq_ok h
    rw [hfiles]
    exact ⟨hzero, path, entries, hgiven, hunpacked⟩

/-- **What commands leave behind.**  Unless it ends with the status 0, a
revision changes no file but its trace, and packing and unpacking change none,
with two exceptions.  Unpacking leaves the files of the entries before one
whose file cannot be written.  And the output of packing or unpacking is there
in full although the command fails, where standard output does not take the
line on it.

If a command ends with the status 0, the output holds what was made of the
files that were there, and no other file has changed. -/
theorem run_outputs [Codecs] [Host] (verbose : Bool) (files : Tree) :
    (∀ mode script sheet output outputEncoding allowOverflow,
      Ends ⟨verbose, .revise mode script sheet output outputEncoding allowOverflow⟩ files
        (fun _ => files.SameBut (Run.tracePaths script.trace))
        fun after =>
          files.SameBut (Run.tracePaths script.trace ++ output.toOption.toList) after ∧
          Run.Revised mode script sheet output outputEncoding allowOverflow files after) ∧
    (∀ input output,
      Ends ⟨verbose, .pack input output⟩ files
        (fun status after => files.SameBut [] after ∨
          ∃ path, output = .given path ∧ Run.Packed input path files after ∧
            Unsaid (Run.packedLine input path) status)
        fun after => ∃ path, output = .given path ∧ Run.Packed input path files after) ∧
    ∀ input output,
      Ends ⟨verbose, .unpack input output⟩ files
        (fun status after => files.SameBut [] after ∨
          ∃ path, output = .given path ∧ (Run.Obstructed input path files after ∨
            ∃ entries, Run.Unpacked input path entries files after ∧
              Unsaid (Run.extractedLine path entries.length) status))
        fun after => ∃ path entries, output = .given path ∧
          Run.Unpacked input path entries files after := by
  refine ⟨fun mode script sheet output outputEncoding allowOverflow => ?_,
    ends_pack verbose files, ends_unpack verbose files⟩
  have hleaves := Run.leaves_revise mode script sheet output outputEncoding allowOverflow
  refine ends_of_action rfl (fun h => hleaves.error h) fun h => ?_
  obtain ⟨hzero, hrevised⟩ := Run.revise_eq_ok h
  exact ⟨hzero, hleaves.ok h, hrevised⟩

/-- A script and a sheet. -/
def besideSheet (script sheet : Bytes) : Tree :=
  (Tree.empty.set (Location.working.child "a.ail") (.file script)).set
    (Location.working.child "t.txt") (.file sheet)

/-- How the script is read. -/
def plainScript : ScriptArguments := ⟨⟨0, ["a.ail"]⟩, .text "v0", .given "cp932", none⟩

def plainOptions : Options := ⟨.v0, "cp932", none, false⟩

theorem optionsOf_plainScript : Run.optionsOf plainScript none false = .ok plainOptions := by
  have hoptions : (Run.optionsOf plainScript none false).toOption.map id = some plainOptions := by
    decide +kernel
  obtain ⟨options, hoptions, rfl⟩ := exists_ok_of_map_toOption hoptions
  exact hoptions

/-- A script without code is loaded with any options. -/
theorem load_empty [Codecs] (pool : Bytes) (options : Options) :
    Session.load (List.replicate 12 0 ++ pool) options =
      .ok ⟨⟨List.replicate 12 0, [], [], 12, pool⟩, ⟨[], [], options.version.dialect.name, 0⟩,
        options⟩ := by
  have hdecode : Image.decode ⟨List.replicate 12 0, [], [], 12, pool⟩ options.version.dialect
      options.encoding = .ok ⟨[], [], options.version.dialect.name, 0⟩ :=
    Code.decode_eq_ok_iff.mpr ⟨[], [], [], .done rfl, rfl, rfl⟩
  have himage : Image.load (List.replicate 12 0 ++ pool) =
      .ok ⟨List.replicate 12 0, [], [], 12, pool⟩ := by
    refine Image.FileLaid.load ⟨rfl, rfl, ?_, ?_, rfl, .nil, rfl⟩
    · simp [Bytes.field, Image.labelLengthOffset, Bytes.toNat]
    · simp [Bytes.field, Image.codeLengthOffset, Bytes.toNat]
  rw [Session.load, himage]
  exact andThen_eq_ok_iff.mpr ⟨_, hdecode, rfl⟩

/-- A string that nothing refers to is gone from a script that was rebuilt. -/
theorem exists_rebuild_besideSheet :
    ∃ w, Run.action (.revise .rebuild plainScript (.given ⟨0, ["t.txt"]⟩) (.given ⟨0, ["b.ail"]⟩)
      none false) ⟨besideSheet (List.replicate 12 0 ++ [0x41, 0x00]) [], [], []⟩ = .ok 0 w ∧
      w.files.readFile ⟨0, ["b.ail"]⟩ = .ok (List.replicate 12 0) := by
  obtain ⟨⟨_, notes, printed⟩, hload, rfl⟩ := Run.loadScript_of_load
    (w := ⟨besideSheet (List.replicate 12 0 ++ [0x41, 0x00]) [], [], []⟩) (p := plainScript.input)
    optionsOf_plainScript rfl (load_empty [0x41, 0x00] plainOptions)
  exact ⟨_, (Run.bind_of_ok hload).trans rfl, rfl⟩

/-- The archive of mixed bodies, with one byte behind it, beside an empty
directory. -/
abbrev besideMixed : Tree := .besideEmpty (Archive.ofBodies Archive.mixedBodies ++ [0xFF])

/-- The archive is unpacked into the directory, and what is there can be packed
again. -/
theorem exists_unpack_besideMixed :
    ∃ w, Run.action (.unpack ⟨0, ["a.arc"]⟩ (.given ⟨0, ["d"]⟩)) ⟨besideMixed, [], []⟩ = .ok 0 w ∧
      ∃ w', Run.action (.pack ⟨0, ["d"]⟩ (.given ⟨0, ["b.arc"]⟩)) ⟨w.files, [], []⟩ =
        .ok 0 w' := by
  have hlaid := Archive.laid_mixedBodies
  have hready := Tree.readyToRepack_besideEmpty (Archive.ofBodies Archive.mixedBodies ++ [0xFF])
  obtain ⟨l, hdir, hempty⟩ := hready.directory
  obtain ⟨w, hextract, hw⟩ := Run.extract_eq (w := ⟨besideMixed, [], []⟩) hready.input hlaid hdir
    hempty hready.room
  obtain ⟨_, w', -, hcreate, -⟩ := Run.exists_create_of_put (w := ⟨w.files, [], []⟩) hready hdir
    hempty (by simp [Archive.mixedBodies]) (by decide)
    (hlaid.fit_take (hlaid.body_lt_of_length_lt Archive.length_unpack_mixedBodies_lt) _) hw
  exact ⟨{ w with printed := "Extracted 3 file(s) to d" :: w.printed },
    (Run.bind_of_ok hextract).trans rfl, _, (Run.bind_of_ok hcreate).trans rfl⟩

/-- The empty directory cannot be packed. -/
theorem status_pack_besideMixed (output : Argument Path) :
    (run ⟨false, .pack ⟨0, ["d"]⟩ output⟩ besideMixed).status ≠ .ok 0 := by
  intro hzero
  have hready := Tree.readyToRepack_besideEmpty (Archive.ofBodies Archive.mixedBodies ++ [0xFF])
  obtain ⟨l, hdir, hempty⟩ := hready.directory
  obtain ⟨_, -, names, numbered, payloads, _, hnames, hnumbered, -⟩ :=
    (ends_pack false besideMixed ⟨0, ["d"]⟩ output).done hzero
  have hlist : besideMixed.fileNames ⟨0, ["d"]⟩ = .ok (besideMixed.names l) :=
    hdir.fileNames (by simp [hempty])
  rw [hlist, hempty] at hnames
  cases hnames
  simp [Archive.numberedFiles] at hnumbered

/-- A script is rebuilt.  An archive is unpacked into the empty directory beside
it, which is then packed again.  Packing it over the archive while it is empty
fails, and the archive stays. -/
theorem run_outputs_samples :
    let script := besideSheet (List.replicate 12 0 ++ [0x41, 0x00]) []
    let rebuilt := run ⟨false, .revise .rebuild plainScript (.given ⟨0, ["t.txt"]⟩)
      (.given ⟨0, ["b.ail"]⟩) none false⟩ script
    let unpacked := run ⟨false, .unpack ⟨0, ["a.arc"]⟩ (.given ⟨0, ["d"]⟩)⟩ besideMixed
    let packed := run ⟨false, .pack ⟨0, ["d"]⟩ (.given ⟨0, ["b.arc"]⟩)⟩ unpacked.files
    let refused := run ⟨false, .pack ⟨0, ["d"]⟩ (.given ⟨0, ["a.arc"]⟩)⟩ besideMixed
    (rebuilt.status = .ok 0 ∧
      Run.Revised .rebuild plainScript (.given ⟨0, ["t.txt"]⟩) (.given ⟨0, ["b.ail"]⟩) none false
        script rebuilt.files ∧
      rebuilt.files.readFile ⟨0, ["b.ail"]⟩ = .ok (List.replicate 12 0)) ∧
    (unpacked.status = .ok 0 ∧
      ∃ entries, Run.Unpacked ⟨0, ["a.arc"]⟩ ⟨0, ["d"]⟩ entries besideMixed unpacked.files) ∧
    (packed.status = .ok 0 ∧
      Run.Packed ⟨0, ["d"]⟩ ⟨0, ["b.arc"]⟩ unpacked.files packed.files) ∧
    refused.status ≠ .ok 0 ∧ refused.files.readFile ⟨0, ["a.arc"]⟩ =
      .ok (Archive.ofBodies Archive.mixedBodies ++ [0xFF]) := by
  intro script rebuilt unpacked packed refused
  obtain ⟨w, hrebuild, hread⟩ := exists_rebuild_besideSheet
  obtain ⟨w₁, hunpack, w₂, hpack⟩ := exists_unpack_besideMixed
  have hrebuilt : rebuilt.status = .ok 0 ∧ rebuilt.files = w.files := by
    simp only [rebuilt, script, run, hrebuild, and_self]
  have hunpacked : unpacked.status = .ok 0 ∧ unpacked.files = w₁.files := by
    simp only [unpacked, run, hunpack, and_self]
  have hpacked : packed.status = .ok 0 := by simp only [packed, run, hunpacked.2, hpack]
  have hrefused := status_pack_besideMixed (.given ⟨0, ["a.arc"]⟩)
  obtain ⟨hrevises, -, -⟩ := run_outputs false script
  obtain ⟨-, hpacks, hunpacks⟩ := run_outputs false besideMixed
  obtain ⟨-, hpacksAgain, -⟩ := run_outputs false unpacked.files
  refine ⟨⟨hrebuilt.1, ((hrevises _ _ _ _ _ _).done hrebuilt.1).2, hrebuilt.2 ▸ hread⟩,
    ⟨hunpacked.1, ?_⟩, ⟨hpacked, ?_⟩, hrefused, ?_⟩
  · obtain ⟨path, entries, hgiven, hdone⟩ := (hunpacks _ _).done hunpacked.1
    obtain rfl := Argument.given.inj hgiven
    exact ⟨entries, hdone⟩
  · obtain ⟨path, hgiven, hdone⟩ := (hpacksAgain _ _).done hpacked
    obtain rfl := Argument.given.inj hgiven
    exact hdone
  · rcases (hpacks _ _).failed hrefused with hsame | ⟨_, -, -, hprints, -⟩
    · exact hsame.readFile (Tree.readyToRepack_besideEmpty _).input (by simp)
    · cases hprints

/-- Standard output that takes nothing but ASCII. -/
abbrev asciiOnly : Host :=
  { Host.plain with
    prints := fun line => line.toList.all fun c => c.toNat < 0x80
    prints_ascii := fun line h => by simpa using h }

/-- An archive of two entries with one byte each. -/
def twoEntries : Bytes := Archive.ofBodies [[0, 0, 1, 0, 0, 0, 0x58], [0, 0, 1, 0, 0, 0, 0x59]]

/-- Unpacking stops at a directory in the place of the second entry, when the
first is written.  It also fails when both are written, into a directory whose
name standard output does not take. -/
theorem unpack_leaves_files :
    let beside := Tree.besideEmpty twoEntries
    let blocked := beside.set ⟨.above 0, ["d", "00001"]⟩ .directory
    let stopped := run ⟨false, .unpack ⟨0, ["a.arc"]⟩ (.given ⟨0, ["d"]⟩)⟩ blocked
    let unsaid := @run _ asciiOnly ⟨false, .unpack ⟨0, ["a.arc"]⟩ (.given ⟨0, ["é"]⟩)⟩ beside
    (stopped.status = .ok 1 ∧ ¬blocked.SameBut [] stopped.files ∧
      stopped.files.readFile ⟨0, ["d", "00000"]⟩ = .ok [0x58]) ∧
    unsaid.status = .error (.file (.unprintable "Extracted 2 file(s) to é")) ∧
      ¬beside.SameBut [] unsaid.files ∧
      unsaid.files.readFile ⟨0, ["é", "00001"]⟩ = .ok [0x59] := by
  intro beside blocked stopped unsaid
  refine ⟨⟨rfl, fun h => ?_, rfl⟩, rfl, fun h => ?_, rfl⟩
  · have hwas := (@h.file_iff ⟨.above 0, ["d", "00000"]⟩ (by simp) (.file [0x58]) (by simp)).mp rfl
    cases hwas
  · have hwas := (@h.file_iff ⟨.above 0, ["é", "00001"]⟩ (by simp) (.file [0x59]) (by simp)).mp rfl
    cases hwas

end Command

end Scenario
