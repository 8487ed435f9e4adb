import Mathlib.Data.List.TakeDrop
import Scenario.Command
import Scenario.Proofs.Numbering
import Scenario.Proofs.Packing
import Scenario.Proofs.Trees

/-!
# Scenario.Proofs.Repacking

Unpacking an archive into an empty directory, and packing the directory again.

1. Every command is a run of steps on the files; a step that succeeds hands its
   world to the next (`Run.bind_of_ok`).
2. Unpacking writes one file for each entry, under the name of its index
   (`Run.extract_eq`).
3. Packing takes the files whose names have five digits, in the order of their
   indices (`Run.create_eq`).
4. So the payloads come back in their order, up to the hundred thousandth
   (`Run.exists_create_of_extract`).  An archive can have more entries than that,
   and then the others are lost without a failure.
-/

namespace Scenario

namespace Archive

/-! ## files of payloads -/

/-- The files that payloads are written to. -/
def filesOf (payloads : List Bytes) : List (String × Bytes) :=
  (fileNames payloads.length).zip payloads

theorem length_fileNames (count : Nat) : (fileNames count).length = count := by
  rw [fileNames, List.length_map, List.length_range]

theorem fileNames_min (count limit : Nat) :
    fileNames (min count limit) = (fileNames count).take limit := by
  rw [fileNames, fileNames, ← List.map_take, List.take_range, Nat.min_comm]

theorem map_fst_filesOf (payloads : List Bytes) :
    (filesOf payloads).map (·.1) = fileNames payloads.length :=
  List.map_fst_zip (Nat.le_of_eq (length_fileNames _))

/-- Entries have the names of their indices. -/
theorem map_name_entriesAt (offset : Nat) (bodies : List Bytes) :
    (entriesAt 0 offset bodies).map Entry.name = fileNames bodies.length := by
  apply List.ext_getElem?
  intro i
  rw [List.getElem?_map, getElem?_entriesAt, fileNames, List.getElem?_map]
  by_cases hi : i < bodies.length
  · rw [List.getElem?_eq_getElem hi, List.getElem?_range hi]
    simp [Entry.name, entryAt, fileName]
  · rw [List.getElem?_eq_none (by omega), List.getElem?_eq_none (by rw [List.length_range]; omega)]
    rfl

theorem exists_fileName_of_readIndex {data : Bytes} {entries : List Entry}
    (h : readIndex data = .ok entries) {e : Entry} (he : e ∈ entries) :
    ∃ index, fileName index = e.name := by
  obtain ⟨bodies, -, rfl⟩ := readIndex_eq_ok_iff.mp h
  have hname := List.mem_map_of_mem (f := Entry.name) he
  rw [map_name_entriesAt] at hname
  obtain ⟨index, -, hfile⟩ := mem_fileNames.mp hname
  exact ⟨index, hfile⟩

/-- A payload has a length that a field can hold. -/
theorem length_unpack_lt {body : Bytes} (h : body.length < 0x100000000) :
    (unpack body).length < 0x100000000 := by
  by_cases hcompressed : body.field 0 2 % 2 = 1
  · have hfield : body.field 2 4 < 0x100000000 := Bytes.field_lt body
    exact Nat.lt_of_le_of_lt (length_unpack_le hcompressed) hfield
  · rw [length_unpack_of_stored hcompressed]
    omega

/-- The payloads of an archive, as far as they are taken, fit into another if
their bodies do. -/
theorem Laid.fit_take {bodies : List Bytes} {data : Bytes} (h : Laid bodies data)
    (hbodies : ∀ e ∈ entriesAt 0 (4 + 4 * bodies.length) bodies, ∀ p body,
      payload data e = .ok p → packEntry p none = .ok body → body.length < 0x100000000)
    (count : Nat) : Fit ((bodies.map unpack).take count) where
  count_lt := by
    have hmax : maxEntries < 0x100000000 := by decide
    have hlt := h.lt_maxEntries
    rw [List.length_take, List.length_map]
    omega
  length_lt p hp := by
    obtain ⟨body, hmem, rfl⟩ := List.mem_map.mp (List.mem_of_mem_take hp)
    exact length_unpack_lt (h.length_lt body hmem)
  body_lt p hp body hbody := by
    obtain ⟨e, he, hpayload⟩ :=
      exists_of_mem_mapM (mapM_eq_ok_iff.mpr h.payloads) (List.mem_of_mem_take hp)
    exact hbodies e he p body hpayload hbody

theorem fileName_ne_dots (index : Nat) : fileName index ≠ ".." := by
  intro hdots
  have hlength := (length_fileName index).1
  rw [hdots] at hlength
  exact absurd hlength (by decide)

/-- The name of an entry can be that of a file, if there is room for it in the
path. -/
theorem nameFits_fileName {p : Path} (hroom : p.toString.utf8ByteSize + 7 ≤ Tree.maxPath)
    {index : Nat} (h : index < maxEntries) : Tree.NameFits p (fileName index) where
  ne_dots := fileName_ne_dots index
  size_le := by
    have hsix := length_fileName_le h
    have hmax : Tree.maxName = 255 := rfl
    rw [utf8ByteSize_fileName]
    omega
  path_le := by
    have hsix := length_fileName_le h
    have hpath := p.size_child_le (fileName index)
    rw [utf8ByteSize_fileName] at hpath
    omega
  null_notMem hnull := absurd (isDigit_of_mem_fileName hnull) (by decide)

theorem nameFits_of_mem_filesOf {p : Path} (hroom : p.toString.utf8ByteSize + 7 ≤ Tree.maxPath)
    {payloads : List Bytes} (hlt : payloads.length < maxEntries) {f : String × Bytes}
    (hf : f ∈ filesOf payloads) : Tree.NameFits p f.1 := by
  have hname : f.1 ∈ fileNames payloads.length :=
    map_fst_filesOf payloads ▸ List.mem_map_of_mem hf
  obtain ⟨index, hindex, hfile⟩ := mem_fileNames.mp hname
  rw [← hfile]
  exact nameFits_fileName hroom (Nat.lt_trans hindex hlt)

end Archive

namespace Run

variable {α β : Type} {w w' : World}

/-! ## steps -/

/-- A step that succeeds hands its world to the next. -/
theorem bind_of_ok {x : Run α} {f : α → Run β} {a : α} (h : x w = .ok a w') :
    (x >>= f) w = f a w' := by
  show EStateM.bind x f w = _
  rw [EStateM.bind, h]

theorem ask_of_ok {f : Tree → Except FileError α} {a : α} (h : f w.files = .ok a) :
    ask f w = .ok a w := by
  rw [ask, h]

theorem check_of_ok {r : Except Error α} {a : α} (h : r = .ok a) : check r w = .ok a w := by
  rw [check.eq_def, h]

theorem check_need_given {a : α} (use : BlankUse) :
    check (Argument.need use (.given a)) w = .ok a w := rfl

theorem readFile_of_ok {p : Path} {data : Bytes} (h : w.files.readFile p = .ok data) :
    readFile p w = .ok data w :=
  ask_of_ok h

theorem makeDirectory_of_directoryAt [Host] {p : Path} {l : Location}
    (h : w.files.DirectoryAt p l) : makeDirectory p w = .ok () w := by
  rw [makeDirectory, change, h.makeDirectory]

theorem writeFile_of_target {p : Path} {l : Location} (h : w.files.target p = .ok l)
    (data : Bytes) :
    writeFile p data w = .ok () { w with files := w.files.set l (.file data) } := by
  rw [writeFile, bind_of_ok (ask_of_ok h)]
  rfl

/-! ## unpacking -/

/-- Entries are written one after the other. -/
theorem writeEntries_eq {data : Bytes} {dir : Path} {l : Location} {entries : List Archive.Entry}
    {files : List (String × Bytes)}
    (h : List.Forall₂ (fun e f => e.name = f.1 ∧ Archive.payload data e = .ok f.2) entries files)
    (hdir : w.files.DirectoryAt dir l)
    (hfiles : ∀ f ∈ files, Tree.NameFits dir f.1 ∧ w.files.IsFree (l.child f.1)) :
    writeEntries data dir entries w = .ok () { w with files := w.files.put l files } := by
  induction h generalizing w with
  | nil => rfl
  | @cons e f entries files hone _ ih =>
      rw [List.forall_mem_cons] at hfiles
      obtain ⟨hname, hpayload⟩ := hone
      obtain ⟨hfits, hfree⟩ := hfiles.1
      have hwrite := writeFile_of_target (hdir.target_child hfits hfree) f.2
      have hkeeps := Tree.keeps_set hfree.not_directory (.file f.2)
      have hrest := @ih { w with files := w.files.set (l.child f.1) (.file f.2) }
        (hdir.keeps hkeeps) fun g hg => ⟨(hfiles.2 g hg).1,
          (hfiles.2 g hg).2.set_file (l.names_child_ne_nil _) _⟩
      rw [writeEntries, bind_of_ok (check_of_ok hpayload), hname, bind_of_ok hwrite]
      exact hrest

/-- **Unpacking** an archive into an empty directory writes the payloads of its
entries there. -/
theorem extract_eq [Host] {input dir : Path} {l : Location} {data : Bytes} {bodies : List Bytes}
    (hinput : w.files.readFile input = .ok data) (hlaid : Archive.Laid bodies data)
    (hdir : w.files.DirectoryAt dir l) (hempty : w.files.names l = [])
    (hroom : dir.toString.utf8ByteSize + 7 ≤ Tree.maxPath) :
    ∃ w', extract input (.given dir) w = .ok (dir, bodies.length) w' ∧
      w'.files = w.files.put l (Archive.filesOf (bodies.map Archive.unpack)) := by
  have hnames : ∀ {entries : List Archive.Entry} {payloads : List Bytes},
      List.Forall₂ (fun e p => Archive.payload data e = .ok p) entries payloads →
        List.Forall₂ (fun e f => e.name = f.1 ∧ Archive.payload data e = .ok f.2) entries
          ((entries.map Archive.Entry.name).zip payloads) := by
    intro entries payloads h
    induction h with
    | nil => exact .nil
    | cons hone _ ih => exact .cons ⟨rfl, hone⟩ ih
  have hentries := hnames hlaid.payloads
  have hfiles : Archive.filesOf (bodies.map Archive.unpack) =
      (Archive.fileNames bodies.length).zip (bodies.map Archive.unpack) := by
    rw [Archive.filesOf, List.length_map]
  rw [Archive.map_name_entriesAt, ← hfiles] at hentries
  have hwrite := writeEntries_eq hentries hdir fun f hf =>
    ⟨Archive.nameFits_of_mem_filesOf hroom (by rw [List.length_map]; exact hlaid.lt_maxEntries) hf,
      Tree.isFree_of_none (Tree.get?_child_of_empty hempty _)⟩
  refine ⟨?after, ?run, ?files⟩
  case run =>
    rw [extract, bind_of_ok (readFile_of_ok hinput), bind_of_ok (check_of_ok hlaid.readIndex),
      bind_of_ok (check_need_given .path), bind_of_ok (makeDirectory_of_directoryAt hdir),
      Host.progress_eq, bind_of_ok hwrite, Archive.length_entriesAt]
    rfl
  case files => rfl

/-! ## packing -/

theorem readFiles_eq {p : Path} {names : List String} {payloads : List Bytes}
    (h : List.Forall₂ (fun name data => w.files.readFile (p.child name) = .ok data)
      names payloads) :
    readFiles p names w = .ok payloads w := by
  induction h with
  | nil => rfl
  | cons hone _ ih =>
      rw [readFiles, bind_of_ok (readFile_of_ok hone), bind_of_ok ih]
      rfl

/-- **Packing** a directory with the files of payloads takes the first hundred
thousand of them. -/
theorem create_eq [Host] {dir target : Path} {l place parent : Location} {payloads : List Bytes}
    {packed : Bytes} (hne : payloads ≠ []) (hlt : payloads.length < Archive.maxEntries)
    (hdir : w.files.DirectoryAt dir l)
    (hnames : (w.files.names l).Perm (Archive.fileNames payloads.length))
    (hfiles : ∀ f ∈ Archive.filesOf payloads, w.files.get? (l.child f.1) = some (.file f.2))
    (hroom : dir.toString.utf8ByteSize + 7 ≤ Tree.maxPath)
    (hbuild : Archive.build (payloads.take Archive.maxNumbered) = .ok packed)
    (hparent : w.files.DirectoryAt target.parent parent)
    (htarget : w.files.target target = .ok place) :
    ∃ w', create dir (.given target) w = .ok target w' ∧
      w'.files = w.files.set place (.file packed) := by
  have hlist : w.files.fileNames dir = .ok (w.files.names l) := by
    apply hdir.fileNames
    intro name hname
    rw [hnames.mem_iff, ← Archive.map_fst_filesOf, List.mem_map] at hname
    obtain ⟨f, hf, rfl⟩ := hname
    exact ⟨Archive.nameFits_of_mem_filesOf hroom hlt hf, f.2, hfiles f hf⟩
  have hnumbered := Archive.numberedFiles_of_perm (List.length_pos_iff.mpr hne) hnames dir.toString
  have hread : List.Forall₂ (fun name data => w.files.readFile (dir.child name) = .ok data)
      (Archive.fileNames (min payloads.length Archive.maxNumbered))
      (payloads.take Archive.maxNumbered) := by
    rw [Archive.fileNames_min, List.forall₂_iff_zip]
    refine ⟨by simp [Archive.length_fileNames], fun {name data} hmem => ?_⟩
    have hf : (name, data) ∈ Archive.filesOf payloads := by
      rw [List.zip, ← List.take_zipWith] at hmem
      exact List.mem_of_mem_take hmem
    exact hdir.readFile_child (Archive.nameFits_of_mem_filesOf hroom hlt hf) (hfiles _ hf)
  have hwrite : writeBelow target packed w =
      .ok () { w with files := w.files.set place (.file packed) } := by
    rw [writeBelow, bind_of_ok (makeDirectory_of_directoryAt hparent)]
    exact writeFile_of_target htarget packed
  refine ⟨?after, ?run, ?files⟩
  case run =>
    rw [create, bind_of_ok (ask_of_ok hlist), bind_of_ok (check_of_ok hnumbered),
      Host.progress_eq, bind_of_ok (readFiles_eq hread), bind_of_ok (check_of_ok hbuild),
      bind_of_ok (check_need_given .path), bind_of_ok hwrite]
    rfl
  case files => rfl

end Run

/-! ## both -/

/-- Files with an archive, an empty directory to unpack it into, and a place to
pack that directory to. -/
structure Tree.ReadyToRepack (t : Tree) (input dir target : Path) (data : Bytes) : Prop where
  input : t.readFile input = .ok data
  directory : ∃ l, t.DirectoryAt dir l ∧ t.names l = []
  /-- Names of six digits fit behind the directory. -/
  room : dir.toString.utf8ByteSize + 7 ≤ maxPath
  parent : t.find target.parent = .ok .directory
  target : ∃ l, t.target target = .ok l

namespace Run

/-- A directory that holds the files of payloads and nothing else is packed. -/
theorem exists_create_of_put [Host] {w : World} {t : Tree} {input dir target : Path}
    {data : Bytes} {l : Location} {payloads : List Bytes}
    (hready : t.ReadyToRepack input dir target data) (hdir : t.DirectoryAt dir l)
    (hempty : t.names l = []) (hne : payloads ≠ []) (hlt : payloads.length < Archive.maxEntries)
    (hfit : Archive.Fit (payloads.take Archive.maxNumbered))
    (hfiles : w.files = t.put l (Archive.filesOf payloads)) :
    ∃ packed w', Archive.build (payloads.take Archive.maxNumbered) = .ok packed ∧
      create dir (.given target) w = .ok target w' ∧ w'.files.readFile target = .ok packed := by
  have htaken : payloads.take Archive.maxNumbered ≠ [] := by
    rw [ne_eq, List.take_eq_nil_iff]
    exact fun h => h.elim (by decide) hne
  obtain ⟨packed, hbuild⟩ :
      ∃ packed, Archive.build (payloads.take Archive.maxNumbered) = .ok packed :=
    ⟨_, Archive.build_eq_ok_iff.mpr ⟨htaken, hfit, rfl⟩⟩
  obtain ⟨place, htarget⟩ := hready.target
  obtain ⟨parent, hparent⟩ := Tree.exists_directoryAt_of_target htarget hready.parent
  have hnodup : ((Archive.filesOf payloads).map (·.1)).Nodup := by
    rw [Archive.map_fst_filesOf]
    exact Archive.nodup_fileNames _
  have hkeeps : t.Keeps w.files := by
    rw [hfiles]
    exact Tree.keeps_put fun f _ => Tree.isFree_of_none (Tree.get?_child_of_empty hempty _)
  have hplace : w.files.target target = .ok place := by
    rw [hfiles] at hkeeps ⊢
    exact Tree.target_put hkeeps htarget
  obtain ⟨w', hcreate, hw'⟩ := create_eq hne hlt (hdir.keeps hkeeps)
    (by rw [hfiles, ← Archive.map_fst_filesOf]; exact Tree.names_put hempty hnodup)
    (fun f hf => by rw [hfiles]; exact Tree.get?_put hnodup hf) hready.room hbuild
    (hparent.keeps hkeeps) hplace
  refine ⟨packed, w', hbuild, hcreate, ?_⟩
  rw [hw']
  exact Tree.readFile_set_of_target hplace packed

/-- The payloads of an archive that was unpacked and packed are the first
hundred thousand. -/
theorem exists_create_of_extract [Host] {w : World} {input dir target : Path} {data : Bytes}
    {entries : List Archive.Entry} (hready : w.files.ReadyToRepack input dir target data)
    (hindex : Archive.readIndex data = .ok entries)
    (hbodies : ∀ e ∈ entries, ∀ p body, Archive.payload data e = .ok p →
      Archive.packEntry p none = .ok body → body.length < 0x100000000) :
    ∃ (w₁ w₂ : World) (packed : Bytes) (before after : List (Archive.Entry × Bytes)),
      extract input (.given dir) w = .ok (dir, entries.length) w₁ ∧
      create dir (.given target) w₁ = .ok target w₂ ∧
      w₂.files.readFile target = .ok packed ∧ Archive.readAll data = .ok before ∧
      Archive.readAll packed = .ok after ∧ before.length = entries.length ∧
      after.map (·.2) = (before.map (·.2)).take Archive.maxNumbered := by
  obtain ⟨bodies, hlaid, rfl⟩ := Archive.readIndex_eq_ok_iff.mp hindex
  obtain ⟨l, hdir, hempty⟩ := hready.directory
  let payloads := bodies.map Archive.unpack
  have hlength : payloads.length = bodies.length := List.length_map _
  have hlt : payloads.length < Archive.maxEntries := hlength ▸ hlaid.lt_maxEntries
  have hne : payloads ≠ [] := by simpa [payloads] using hlaid.ne_nil
  have hfit := hlaid.fit_take hbodies Archive.maxNumbered
  -- the two runs
  obtain ⟨w₁, hextract, hw₁⟩ := extract_eq hready.input hlaid hdir hempty hready.room
  obtain ⟨packed, w₂, hbuild, hcreate, hread⟩ :=
    exists_create_of_put hready hdir hempty hne hlt hfit hw₁
  -- what the packed archive holds
  have hagain := Archive.laid_of_build hbuild
    (Nat.lt_of_le_of_lt (List.length_take_le' _ _) hlt)
  have hunpacked : ((payloads.take Archive.maxNumbered).map Archive.bodyOf).map Archive.unpack =
      payloads.take Archive.maxNumbered := Archive.map_unpack_bodyOf hfit.length_lt
  rw [← Archive.length_entriesAt 0 (4 + 4 * bodies.length)] at hextract
  refine ⟨w₁, w₂, packed, _, _, hextract, hcreate, hread, hlaid.readAll, hagain.readAll, ?_, ?_⟩
  · simp
  · rw [List.map_snd_zip (by simp), List.map_snd_zip (by simp), hunpacked]

/-- **Unpacking and packing**: an archive that is unpacked into an empty
directory can be packed again, if its payloads can be packed at all.  The
payloads are the first hundred thousand, in their order, and so the archive
loses nothing exactly if it has no more entries than that. -/
theorem create_of_extract [Host] {w : World} {input dir target : Path} {data : Bytes}
    {entries : List Archive.Entry} (hready : w.files.ReadyToRepack input dir target data)
    (hindex : Archive.readIndex data = .ok entries)
    (hbodies : ∀ e ∈ entries, ∀ p body, Archive.payload data e = .ok p →
      Archive.packEntry p none = .ok body → body.length < 0x100000000) :
    ∃ (w₁ w₂ : World) (packed : Bytes) (before after : List (Archive.Entry × Bytes)),
      extract input (.given dir) w = .ok (dir, entries.length) w₁ ∧
      create dir (.given target) w₁ = .ok target w₂ ∧
      w₂.files.readFile target = .ok packed ∧ Archive.readAll data = .ok before ∧
      Archive.readAll packed = .ok after ∧
      after.map (·.2) = (before.map (·.2)).take 100000 ∧
      (after.map (·.2) = before.map (·.2) ↔ entries.length ≤ 100000) := by
  obtain ⟨w₁, w₂, packed, before, after, hextract, hcreate, hread, hbefore, hafter, hlength,
    htake⟩ := exists_create_of_extract hready hindex hbodies
  refine ⟨w₁, w₂, packed, before, after, hextract, hcreate, hread, hbefore, hafter, htake, ?_⟩
  rw [htake, List.take_eq_self_iff, List.length_map, hlength]
  rfl

end Run

/-- An archive beside an empty directory. -/
def Tree.besideEmpty (data : Bytes) : Tree :=
  (Tree.empty.set ⟨.above 0, ["d"]⟩ .directory).set ⟨.above 0, ["a.arc"]⟩ (.file data)

theorem Tree.get?_besideEmpty (data : Bytes) (l : Location) :
    (besideEmpty data).get? l =
      if (⟨.above 0, ["a.arc"]⟩ : Location) = l then some (.file data)
      else if (⟨.above 0, ["d"]⟩ : Location) = l then some .directory
      else Tree.empty.get? l := by
  rw [besideEmpty, get?_set _ _ (by simp), get?_set _ _ (by simp)]

theorem Tree.get?_empty (l : Location) :
    Tree.empty.get? l = if l.names.isEmpty then some .directory else none := by
  rw [get?, empty, Ordered.get?_empty]

/-- The working directory is there in every tree. -/
theorem Tree.directoryAt_working (t : Tree) : t.DirectoryAt ⟨0, []⟩ .working :=
  ⟨rfl, if_neg (by decide), rfl⟩

theorem Tree.readyToRepack_besideEmpty (data : Bytes) :
    (besideEmpty data).ReadyToRepack ⟨0, ["a.arc"]⟩ ⟨0, ["d"]⟩ ⟨0, ["b.arc"]⟩ data := by
  have hworking := directoryAt_working (besideEmpty data)
  have hinput : NameFits ⟨0, []⟩ "a.arc" := ⟨by decide, by decide, by decide, by decide⟩
  have hdir : NameFits ⟨0, []⟩ "d" := ⟨by decide, by decide, by decide, by decide⟩
  have htarget : NameFits ⟨0, []⟩ "b.arc" := ⟨by decide, by decide, by decide, by decide⟩
  refine ⟨?_,
    ⟨⟨.above 0, ["d"]⟩, ⟨hworking.hasNull_child hdir, hworking.locate_child hdir, ?_⟩, ?_⟩,
    by decide, hworking.find, ⟨_, hworking.target_child htarget ?_⟩⟩
  · exact hworking.readFile_child hinput ((get?_besideEmpty ..).trans (if_pos rfl))
  · rw [get?_besideEmpty, if_neg (by decide), if_pos rfl]
  · rw [List.eq_nil_iff_forall_not_mem]
    intro name hname
    rw [mem_names_iff, get?_besideEmpty, get?_empty] at hname
    simp [Location.child] at hname
  · apply isFree_of_none
    rw [get?_besideEmpty, get?_empty]
    simp [Location.child, Location.working]

namespace Archive

/-- The archive of bodies. -/
def ofBodies (bodies : List Bytes) : Bytes :=
  Bytes.ofNat 4 bodies.length ++ tableOf bodies ++ bodies.flatten

/-- Bodies whose payloads are short can be packed again. -/
theorem Laid.body_lt_of_length_lt {bodies : List Bytes} {data : Bytes} (h : Laid bodies data)
    (hshort : ∀ body ∈ bodies, (unpack body).length < 0xE0000000) :
    ∀ e ∈ entriesAt 0 (4 + 4 * bodies.length) bodies, ∀ p body,
      payload data e = .ok p → packEntry p none = .ok body → body.length < 0x100000000 := by
  intro e he p body hpayload hbody
  obtain ⟨p', hp', hpayload'⟩ := exists_mem_of_mapM (mapM_eq_ok_iff.mpr h.payloads) he
  obtain rfl : p = p' := Except.ok.inj (hpayload.symm.trans hpayload')
  have hmax : maxEntries < 0x100000000 := by decide
  have hlt := h.lt_maxEntries
  have hfit : Fit (bodies.map unpack) :=
    .of_length_lt (by rw [List.length_map]; omega) (List.forall_mem_map.mpr hshort)
  exact hfit.body_lt p hp' body hbody

/-- Nothing, a payload that is stored, and one that is compressed and cut. -/
def mixedBodies : List Bytes :=
  [[], [0x00, 0x00, 0x09, 0x00, 0x00, 0x00, 0x41],
    [0x01, 0x00, 0x02, 0x00, 0x00, 0x00, 0x00, 0x41, 0x42, 0x43]]

theorem laid_mixedBodies : Laid mixedBodies (ofBodies mixedBodies ++ [0xFF]) where
  ne_nil := by simp [mixedBodies]
  lt_maxEntries := by decide
  shaped := by simp [mixedBodies, Shaped, entryHeaderSize]
  length_lt := by simp [mixedBodies]
  exists_eq := ⟨[0xFF], rfl⟩

theorem map_unpack_mixedBodies : mixedBodies.map unpack = [[], [0x41], [0x41, 0x42]] := by
  decide +kernel

theorem length_unpack_mixedBodies_lt :
    ∀ body ∈ mixedBodies, (unpack body).length < 0xE0000000 := by
  rw [← List.forall_mem_map (f := unpack) (P := fun p => p.length < 0xE0000000),
    map_unpack_mixedBodies]
  simp

/-- A hundred thousand bodies without a payload, and one more. -/
def manyBodies : List Bytes :=
  List.replicate maxNumbered [] ++ [[0x00, 0x00, 0x01, 0x00, 0x00, 0x00, 0x58]]

theorem laid_manyBodies : Laid manyBodies (ofBodies manyBodies) where
  ne_nil := by simp [manyBodies]
  lt_maxEntries := by
    rw [manyBodies, List.length_append, List.length_replicate]
    decide
  shaped body hbody := by
    rcases List.mem_append.mp hbody with h | h
    · exact .inl (List.eq_of_mem_replicate h)
    · rw [List.mem_singleton.mp h]
      exact .inr (by decide)
  length_lt body hbody := by
    rcases List.mem_append.mp hbody with h | h
    · rw [List.eq_of_mem_replicate h]
      decide
    · rw [List.mem_singleton.mp h]
      decide
  exists_eq := ⟨[], (List.append_nil _).symm⟩

end Archive

namespace Run

theorem create_of_extract_mixed :
    ∃ (w₁ w₂ : World) (packed : Bytes) (after : List (Archive.Entry × Bytes)),
      extract ⟨0, ["a.arc"]⟩ (.given ⟨0, ["d"]⟩)
        ⟨.besideEmpty (Archive.ofBodies Archive.mixedBodies ++ [0xFF]), [], []⟩ =
          .ok (⟨0, ["d"]⟩, 3) w₁ ∧
      create ⟨0, ["d"]⟩ (.given ⟨0, ["b.arc"]⟩) w₁ = .ok ⟨0, ["b.arc"]⟩ w₂ ∧
      w₂.files.readFile ⟨0, ["b.arc"]⟩ = .ok packed ∧ Archive.readAll packed = .ok after ∧
      after.map (·.2) = [[], [0x41], [0x41, 0x42]] := by
  have hlaid := Archive.laid_mixedBodies
  have hshort := Archive.length_unpack_mixedBodies_lt
  obtain ⟨w₁, w₂, packed, before, after, hextract, hcreate, hread, hbefore, hafter, -, hiff⟩ :=
    @create_of_extract _ ⟨.besideEmpty (Archive.ofBodies Archive.mixedBodies ++ [0xFF]), [], []⟩
      _ _ _ _ _
      (Tree.readyToRepack_besideEmpty _) hlaid.readIndex (hlaid.body_lt_of_length_lt hshort)
  obtain rfl := Except.ok.inj (hbefore.symm.trans hlaid.readAll)
  have hsame := hiff.mpr (by rw [Archive.length_entriesAt]; decide)
  rw [List.map_snd_zip (by simp), Archive.map_unpack_mixedBodies] at hsame
  rw [Archive.length_entriesAt] at hextract
  exact ⟨w₁, w₂, packed, after, hextract, hcreate, hread, hafter, hsame⟩

/-- An archive of a hundred thousand and one entries loses the last when it is
unpacked and packed, although nothing fails. -/
theorem create_drops_entries :
    ∃ (entries : List Archive.Entry) (w₁ w₂ : World) (packed : Bytes)
      (before after : List (Archive.Entry × Bytes)),
      Archive.readIndex (Archive.ofBodies Archive.manyBodies) = .ok entries ∧
      extract ⟨0, ["a.arc"]⟩ (.given ⟨0, ["d"]⟩)
        ⟨.besideEmpty (Archive.ofBodies Archive.manyBodies), [], []⟩ =
          .ok (⟨0, ["d"]⟩, entries.length) w₁ ∧
      create ⟨0, ["d"]⟩ (.given ⟨0, ["b.arc"]⟩) w₁ = .ok ⟨0, ["b.arc"]⟩ w₂ ∧
      w₂.files.readFile ⟨0, ["b.arc"]⟩ = .ok packed ∧
      Archive.readAll (Archive.ofBodies Archive.manyBodies) = .ok before ∧
      Archive.readAll packed = .ok after ∧
      before.length = 100001 ∧ after.length = 100000 := by
  have hlaid := Archive.laid_manyBodies
  have hcount : Archive.manyBodies.length = 100001 := by
    rw [Archive.manyBodies, List.length_append, List.length_replicate]
    rfl
  have hshort : ∀ body ∈ Archive.manyBodies, (Archive.unpack body).length < 0xE0000000 := by
    intro body hbody
    rcases List.mem_append.mp hbody with h | h
    · rw [List.eq_of_mem_replicate h]
      decide
    · rw [List.mem_singleton.mp h]
      decide
  obtain ⟨w₁, w₂, packed, before, after, hextract, hcreate, hread, hbefore, hafter, hlength,
    htake⟩ := @exists_create_of_extract _
      ⟨.besideEmpty (Archive.ofBodies Archive.manyBodies), [], []⟩ _ _ _ _ _
      (Tree.readyToRepack_besideEmpty _) hlaid.readIndex (hlaid.body_lt_of_length_lt hshort)
  rw [Archive.length_entriesAt, hcount] at hlength
  refine ⟨_, w₁, w₂, packed, before, after, hlaid.readIndex, hextract, hcreate, hread, hbefore,
    hafter, hlength, ?_⟩
  have hafterLength := congrArg List.length htake
  rw [List.length_map, List.length_take, List.length_map, hlength] at hafterLength
  rw [hafterLength]
  decide

end Run

end Scenario
