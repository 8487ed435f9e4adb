import Mathlib.Data.List.Nodup
import Scenario.Files
import Scenario.Proofs.Builder
import Scenario.Proofs.Traverse

/-!
# Scenario.Proofs.Trees

Trees of files that are written to.

1. Writing changes what lies at one location (`Tree.get?_set`), so it never
   takes a directory away (`Tree.Keeps`), and a path that led somewhere still
   leads there (`Tree.locate_of_keeps`).
2. A path to a directory, with a name behind it, leads to what has the name in
   the directory (`Tree.DirectoryAt.locate_child`); reading and writing there
   is reading and writing at that location.
3. `Tree.put` writes files into a directory.  They can be read back, and in a
   directory that was empty they are the only ones (`Tree.get?_put`,
   `Tree.names_put`).
-/

namespace Scenario

/-! ## locations and paths -/

namespace Location

theorem names_child_ne_nil (l : Location) (name : String) : (l.child name).names ≠ [] := by
  simp [child]

@[simp] theorem child_inj {l : Location} {a b : String} : l.child a = l.child b ↔ a = b := by
  simp [child]

@[simp] theorem getLast?_names_child (l : Location) (name : String) :
    (l.child name).names.getLast? = some name := by
  simp [child]

@[simp] theorem up_child (l : Location) (name : String) : (l.child name).up = l := by
  obtain ⟨base, names⟩ := l
  cases names with
  | nil => rfl
  | cons first names =>
      show Location.mk base (((first :: names) ++ [name]).dropLast) = _
      rw [List.dropLast_concat]

/-- A place that has a name in a directory. -/
theorem eq_child_of_up {l m : Location} {name : String} (hlast : m.names.getLast? = some name)
    (hup : m.up = l) : m = l.child name := by
  obtain ⟨base, names⟩ := m
  obtain ⟨front, rfl⟩ := List.getLast?_eq_some_iff.mp hlast
  have hchild : (⟨base, front ++ [name]⟩ : Location) = child ⟨base, front⟩ name := rfl
  rw [hchild, up_child] at hup
  rw [hchild, hup]

end Location

namespace Path

/-- A name behind others adds itself and a slash. -/
theorem size_join_concat_le (parts : List String) (name : String) :
    ("/".intercalate (parts ++ [name])).utf8ByteSize ≤
      ("/".intercalate parts).utf8ByteSize + 1 + name.utf8ByteSize := by
  induction parts with
  | nil => simp
  | cons part parts ih =>
      have hslash : "/".utf8ByteSize = 1 := by decide
      cases parts with
      | nil => simp [String.utf8ByteSize_append, hslash]
      | cons next parts =>
          simp only [List.cons_append, String.intercalate_cons_cons, String.utf8ByteSize_append]
            at ih ⊢
          omega

/-- The text of a path that is more than the working directory. -/
theorem toString_eq {slashes : Nat} {parts : List String} (h : slashes ≠ 0 ∨ parts ≠ []) :
    toString ⟨slashes, parts⟩ =
      String.ofList (List.replicate slashes '/') ++ "/".intercalate parts := by
  rw [toString]
  split
  · next hslashes hparts => exact (h.elim (· hslashes) (· hparts)).elim
  · rfl

theorem size_child_le (p : Path) (name : String) :
    (p.child name).toString.utf8ByteSize ≤ p.toString.utf8ByteSize + 1 + name.utf8ByteSize := by
  obtain ⟨slashes, parts⟩ := p
  rw [child, toString_eq (.inr (by simp))]
  by_cases hplain : slashes ≠ 0 ∨ parts ≠ []
  · have hjoin := size_join_concat_le parts name
    rw [toString_eq hplain, String.utf8ByteSize_append, String.utf8ByteSize_append]
    dsimp only
    omega
  · obtain ⟨rfl, rfl⟩ := (not_or.mp hplain).imp not_not.mp not_not.mp
    simp

/-- A path with a name behind it has no null character if neither has. -/
theorem hasNull_child (p : Path) (name : String) :
    (p.child name).hasNull = (p.hasNull || name.toList.contains '\x00') := by
  simp [hasNull, child, List.any_append]

theorem hasNull_parent {p : Path} (h : p.hasNull = false) : p.parent.hasNull = false := by
  rw [hasNull, List.any_eq_false] at h ⊢
  exact fun part hpart => h part (List.dropLast_subset _ hpart)

end Path

/-! ## what lies at locations -/

namespace Tree

variable {t t' : Tree} {l m : Location} {p : Path} {name : String}

/-- Writing changes what lies at one location. -/
theorem get?_set (t : Tree) (node : Node) (h : l.names ≠ []) (m : Location) :
    (t.set l node).get? m = if l = m then some node else t.get? m := by
  by_cases hm : m.names = []
  · have hne : l ≠ m := fun heq => h (heq ▸ hm)
    simp [get?, hm, hne]
  · simp [get?, set, Ordered.get?_set, hm]

/-- Something that is no directory lies below another location. -/
theorem names_ne_nil (h : t.get? l ≠ some .directory) : l.names ≠ [] := by
  intro hnil
  exact h (by simp [get?, hnil])

/-- The name that a place has in a directory. -/
def nameIn? (l m : Location) : Option String :=
  match m.names.getLast? with
  | some name => if m.up = l then some name else none
  | none => none

theorem nameIn?_eq_some_iff : nameIn? l m = some name ↔ m = l.child name := by
  constructor
  · intro h
    rw [nameIn?] at h
    split at h
    · next last hlast =>
      rw [Option.ite_none_right_eq_some, Option.some.injEq] at h
      obtain ⟨hup, rfl⟩ := h
      exact Location.eq_child_of_up hlast hup
    · cases h
  · rintro rfl
    simp [nameIn?]

theorem names_eq (t : Tree) (l : Location) :
    t.names l =
      ((t.entries.toList.map (·.1)).filterMap (nameIn? l)).mergeSort fun a b => a ≤ b := by
  rw [List.filterMap_map]
  rfl

/-- The names in a directory are those at which something lies. -/
theorem mem_names_iff : name ∈ t.names l ↔ (t.get? (l.child name)).isSome := by
  have hget : t.get? (l.child name) = t.entries.get? (l.child name) := by
    simp [get?, Location.names_child_ne_nil]
  rw [hget, Option.isSome_iff_exists, names_eq, List.mem_mergeSort]
  simp only [List.mem_filterMap, nameIn?_eq_some_iff, List.mem_map]
  constructor
  · rintro ⟨_, ⟨⟨m, node⟩, hmem, rfl⟩, rfl⟩
    exact ⟨node, (Ordered.mem_toList_iff _ _ _).mp hmem⟩
  · rintro ⟨node, hnode⟩
    exact ⟨_, ⟨(l.child name, node), (Ordered.mem_toList_iff _ _ _).mpr hnode, rfl⟩, rfl⟩

theorem get?_child_of_empty (h : t.names l = []) (name : String) :
    t.get? (l.child name) = none := by
  rw [← Option.not_isSome_iff_eq_none, ← mem_names_iff, h]
  exact List.not_mem_nil

/-- No name comes twice in a directory. -/
theorem nodup_names (t : Tree) (l : Location) : (t.names l).Nodup := by
  rw [names_eq, (List.mergeSort_perm _ _).nodup_iff]
  refine List.Nodup.filterMap (fun m m' name h h' => ?_) t.entries.nodup_keys
  rw [nameIn?_eq_some_iff.mp h, nameIn?_eq_some_iff.mp h']

/-! ## following paths -/

/-- A tree in which all directories of another are directories. -/
def Keeps (t t' : Tree) : Prop := ∀ l, t.get? l = some .directory → t'.get? l = some .directory

theorem Keeps.refl (t : Tree) : t.Keeps t := fun _ h => h

theorem Keeps.trans {t'' : Tree} (h : t.Keeps t') (h' : t'.Keeps t'') : t.Keeps t'' :=
  fun l hl => h' l (h l hl)

/-- Writing over what is no directory keeps all directories. -/
theorem keeps_set (h : t.get? l ≠ some .directory) (node : Node) : t.Keeps (t.set l node) := by
  intro m hm
  have hne : l ≠ m := fun heq => h (heq ▸ hm)
  rw [get?_set t node (names_ne_nil h), if_neg hne, hm]

/-- A location where a file can be written. -/
structure IsFree (t : Tree) (l : Location) : Prop where
  not_directory : t.get? l ≠ some .directory
  not_locked : t.get? l ≠ some .locked

theorem isFree_of_none (h : t.get? l = none) : t.IsFree l := ⟨by simp [h], by simp [h]⟩

theorem isFree_of_file {data : Bytes} (h : t.get? l = some (.file data)) : t.IsFree l :=
  ⟨by simp [h], by simp [h]⟩

/-- Writing a file leaves every place free that was so. -/
theorem IsFree.set_file (h : t.IsFree m) (hl : l.names ≠ []) (data : Bytes) :
    (t.set l (.file data)).IsFree m := by
  by_cases heq : l = m
  · exact isFree_of_file (by rw [get?_set t _ hl, if_pos heq])
  · have hsame : (t.set l (.file data)).get? m = t.get? m := by rw [get?_set t _ hl, if_neg heq]
    exact ⟨hsame ▸ h.not_directory, hsame ▸ h.not_locked⟩

/-- A path that led somewhere still leads there. -/
theorem locate_of_keeps (hkeeps : t.Keeps t') (h : t.locate p = .ok l) : t'.locate p = .ok l := by
  have hstep : ∀ {m part m'}, t.step m part = .ok m' → t'.step m part = .ok m' := by
    intro m part m' h
    rw [step] at h
    split at h
    · cases h
    · cases h
    · cases h
    · next hdirectory =>
      rw [step, hkeeps m hdirectory]
      exact h
  have hparts : ∀ (parts : List String) (m : Location),
      parts.foldlM t.step m = .ok l → parts.foldlM t'.step m = .ok l := by
    intro parts
    induction parts with
    | nil => exact fun _ h => h
    | cons part parts ih =>
        intro m h
        rw [List.foldlM_cons, andThen_eq_ok_iff] at h ⊢
        obtain ⟨m', hm', hrest⟩ := h
        exact ⟨m', hstep hm', ih m' hrest⟩
  rw [locate] at h ⊢
  split at h
  · cases h
  · next hshort =>
    rw [if_neg hshort]
    exact hparts _ _ h

/-- What lies where a path leads. -/
theorem find_of_locate {node : Node} (h : t.locate p = .ok l) (hget : t.get? l = some node) :
    t.find p = .ok node :=
  andThen_eq_ok_iff.mpr ⟨l, h, by rw [hget]⟩

/-- A result for a path without a null character. -/
theorem answer_of_ok {α : Type} {r : Except FileFault α} {a : α} (hnull : p.hasNull = false)
    (h : r = .ok a) : answer p r = .ok a := by
  subst h
  simp [answer, hnull]

/-! ## directories -/

/-- A path that leads to a directory. -/
structure DirectoryAt (t : Tree) (p : Path) (l : Location) : Prop where
  hasNull : p.hasNull = false
  locate : t.locate p = .ok l
  isDirectory : t.get? l = some .directory

namespace DirectoryAt

theorem keeps (h : t.DirectoryAt p l) (hkeeps : t.Keeps t') : t'.DirectoryAt p l :=
  ⟨h.hasNull, locate_of_keeps hkeeps h.locate, hkeeps l h.isDirectory⟩

theorem find (h : t.DirectoryAt p l) : t.find p = .ok .directory :=
  find_of_locate h.locate h.isDirectory

/-- Making a directory that exists changes nothing. -/
theorem makeDirectory [Host] (h : t.DirectoryAt p l) : t.makeDirectory p = (t, .ok ()) := by
  have hone : t.makeOne p = .error .exists := by
    rw [makeOne, h.locate]
    show (if (t.get? l).isSome then _ else _) = _
    rw [h.isDirectory]
    rfl
  obtain ⟨slashes, parts⟩ := p
  rw [Tree.makeDirectory, h.hasNull]
  cases hparts : parts.reverse with
  | nil =>
      obtain rfl := List.reverse_eq_nil_iff.mp hparts
      simp [makeParts]
  | cons part above =>
      have hpath : (part :: above).reverse = parts := by rw [← hparts, List.reverse_reverse]
      obtain ⟨depth, hdepth⟩ := Nat.exists_eq_succ_of_ne_zero Host.maxDepth_pos.ne'
      simp only [Bool.false_eq_true, if_false, hdepth, makeParts, hpath, hone]
      rw [settle, h.find]

end DirectoryAt

/-- A name that a file in a directory can have: its path is not too long. -/
structure NameFits (p : Path) (name : String) : Prop where
  ne_dots : name ≠ ".."
  size_le : name.utf8ByteSize ≤ maxName
  path_le : (p.child name).toString.utf8ByteSize ≤ maxPath
  null_notMem : '\x00' ∉ name.toList

instance (p : Path) (name : String) : Decidable (NameFits p name) :=
  decidable_of_iff (name ≠ ".." ∧ name.utf8ByteSize ≤ maxName ∧
      (p.child name).toString.utf8ByteSize ≤ maxPath ∧ '\x00' ∉ name.toList)
    ⟨fun ⟨hdots, hsize, hpath, hnull⟩ => ⟨hdots, hsize, hpath, hnull⟩,
      fun h => ⟨h.ne_dots, h.size_le, h.path_le, h.null_notMem⟩⟩

section Child

variable (h : t.DirectoryAt p l) (hname : NameFits p name)

include h hname

/-- A path with a name behind it leads to what has the name. -/
theorem DirectoryAt.locate_child : t.locate (p.child name) = .ok (l.child name) := by
  have hparts := h.locate
  rw [Tree.locate] at hparts ⊢
  rw [if_neg (Nat.not_lt.mpr hname.path_le)]
  split at hparts
  · cases hparts
  · show (p.parts ++ [name]).foldlM t.step p.start = _
    rw [List.foldlM_append, hparts]
    show [name].foldlM t.step l = _
    rw [List.foldlM_cons, step, h.isDirectory]
    dsimp only
    rw [if_neg hname.ne_dots, if_neg (Nat.not_lt.mpr hname.size_le)]
    rfl

theorem DirectoryAt.hasNull_child : (p.child name).hasNull = false := by
  rw [Path.hasNull_child, h.hasNull, Bool.false_or]
  simpa using hname.null_notMem

/-- A directory in another. -/
theorem DirectoryAt.child (hget : t.get? (l.child name) = some .directory) :
    t.DirectoryAt (p.child name) (l.child name) :=
  ⟨h.hasNull_child hname, h.locate_child hname, hget⟩

/-- Where a file is written that has a name in a directory. -/
theorem DirectoryAt.target_child (hfree : t.IsFree (l.child name)) :
    t.target (p.child name) = .ok (l.child name) := by
  apply answer_of_ok (h.hasNull_child hname)
  rw [h.locate_child hname]
  exact (if_neg hfree.not_directory).trans (if_neg hfree.not_locked)

variable {data : Bytes} (hfile : t.get? (l.child name) = some (.file data))

include hfile

theorem DirectoryAt.find_child : t.find (p.child name) = .ok (.file data) :=
  find_of_locate (h.locate_child hname) hfile

theorem DirectoryAt.readFile_child : t.readFile (p.child name) = .ok data := by
  apply answer_of_ok (h.hasNull_child hname)
  rw [h.find_child hname hfile]
  rfl

theorem DirectoryAt.isFile_child : t.isFile (p.child name) = .ok true := by
  rw [isFile, find?, h.hasNull_child hname, h.find_child hname hfile]
  rfl

end Child

/-- The files of a directory in which all are files. -/
theorem DirectoryAt.fileNames (h : t.DirectoryAt p l)
    (hnames : ∀ name ∈ t.names l, NameFits p name ∧
      ∃ data, t.get? (l.child name) = some (.file data)) :
    t.fileNames p = .ok (t.names l) := by
  refine andThen_eq_ok_iff.mpr ⟨t.names l, ?_, filterM_eq_ok fun name hname => ?_⟩
  · apply answer_of_ok h.hasNull
    exact andThen_eq_ok_iff.mpr ⟨l, h.locate, by rw [h.isDirectory]⟩
  · obtain ⟨hfits, data, hdata⟩ := hnames name hname
    exact h.isFile_child hfits hdata

/-! ## writing -/

theorem target_eq_ok_iff :
    t.target p = .ok l ↔ p.hasNull = false ∧ t.locate p = .ok l ∧ t.IsFree l := by
  constructor
  · intro h
    rw [target, answer.eq_def] at h
    split at h
    · cases h
    · next hnull =>
      split at h
      · next m hm =>
        obtain rfl := Except.ok.inj h
        obtain ⟨m', hlocate, hfree⟩ := andThen_eq_ok_iff.mp hm
        split at hfree
        · cases hfree
        · next hdirectory =>
          split at hfree
          · cases hfree
          · next hlocked =>
            obtain rfl := Except.ok.inj hfree
            exact ⟨Bool.eq_false_iff.mpr hnull, hlocate, hdirectory, hlocked⟩
      · cases h
  · rintro ⟨hnull, hlocate, hfree⟩
    apply answer_of_ok hnull
    rw [hlocate]
    exact (if_neg hfree.not_directory).trans (if_neg hfree.not_locked)

/-- The directory that holds a file to be written. -/
theorem exists_directoryAt_of_target (h : t.target p = .ok l)
    (hparent : t.find p.parent = .ok .directory) : ∃ m, t.DirectoryAt p.parent m := by
  obtain ⟨m, hlocate, hdirectory⟩ := andThen_eq_ok_iff.mp hparent
  refine ⟨m, Path.hasNull_parent (target_eq_ok_iff.mp h).1, hlocate, ?_⟩
  split at hdirectory
  · next node hnode => rw [hnode, Except.ok.inj hdirectory]
  · cases hdirectory

/-- A file that was written is read. -/
theorem readFile_set_of_target (h : t.target p = .ok l) (data : Bytes) :
    (t.set l (.file data)).readFile p = .ok data := by
  obtain ⟨hnull, hlocate, hfree⟩ := target_eq_ok_iff.mp h
  apply answer_of_ok hnull
  have hget : (t.set l (.file data)).get? l = some (.file data) := by
    rw [get?_set t _ (names_ne_nil hfree.not_directory), if_pos rfl]
  rw [find_of_locate (locate_of_keeps (keeps_set hfree.not_directory _) hlocate) hget]
  rfl

/-- The tree with files written into a directory. -/
def put (t : Tree) (l : Location) (files : List (String × Bytes)) : Tree :=
  files.foldl (fun t f => t.set (l.child f.1) (.file f.2)) t

section Put

variable {files : List (String × Bytes)}

@[simp] theorem put_cons (f : String × Bytes) :
    t.put l (f :: files) = (t.set (l.child f.1) (.file f.2)).put l files := rfl

/-- What is not written to stays. -/
theorem get?_put_of_forall_ne (h : ∀ f ∈ files, l.child f.1 ≠ m) :
    (t.put l files).get? m = t.get? m := by
  induction files generalizing t with
  | nil => rfl
  | cons f files ih =>
      rw [List.forall_mem_cons] at h
      rw [put_cons, ih h.2, get?_set _ _ (l.names_child_ne_nil _), if_neg h.1]

theorem put_append (files files' : List (String × Bytes)) :
    t.put l (files ++ files') = (t.put l files).put l files' :=
  List.foldl_append

/-- A file is there if those that have its name are the same. -/
theorem get?_put_of_agree {f : String × Bytes} (hf : f ∈ files)
    (hagree : ∀ g ∈ files, g.1 = f.1 → g.2 = f.2) :
    (t.put l files).get? (l.child f.1) = some (.file f.2) := by
  induction files generalizing t with
  | nil => cases hf
  | cons first files ih =>
      rw [List.forall_mem_cons] at hagree
      by_cases hlater : f ∈ files
      · exact ih hlater hagree.2
      · obtain rfl : f = first := (List.mem_cons.mp hf).resolve_right hlater
        rw [put_cons, get?_put_of_forall_ne, get?_set _ _ (l.names_child_ne_nil _), if_pos rfl]
        intro g hg heq
        have hname : g.1 = f.1 := Location.child_inj.mp heq
        exact hlater (Prod.ext hname (hagree.2 g hg hname) ▸ hg)

/-- Files with names of their own are all there. -/
theorem get?_put (hnodup : (files.map (·.1)).Nodup) {f : String × Bytes} (hf : f ∈ files) :
    (t.put l files).get? (l.child f.1) = some (.file f.2) :=
  get?_put_of_agree hf fun _ hg hname => by rw [List.inj_on_of_nodup_map hnodup hg hf hname]

/-- Writing files leaves every place free that was so. -/
theorem IsFree.put (h : t.IsFree m) : (t.put l files).IsFree m := by
  induction files generalizing t with
  | nil => exact h
  | cons f files ih => exact ih (h.set_file (l.names_child_ne_nil _) _)

/-- Writing files where they can be written keeps all directories. -/
theorem keeps_put (h : ∀ f ∈ files, t.IsFree (l.child f.1)) :
    t.Keeps (t.put l files) := by
  induction files generalizing t with
  | nil => exact .refl t
  | cons f files ih =>
      rw [List.forall_mem_cons] at h
      refine (keeps_set h.1.not_directory _).trans (ih fun g hg => ?_)
      exact (h.2 g hg).set_file (l.names_child_ne_nil _) _

/-- Where a file could be written before, it still can. -/
theorem target_put (hkeeps : t.Keeps (t.put l files)) (h : t.target p = .ok m) :
    (t.put l files).target p = .ok m := by
  obtain ⟨hnull, hlocate, hfree⟩ := target_eq_ok_iff.mp h
  exact target_eq_ok_iff.mpr
    ⟨hnull, locate_of_keeps hkeeps hlocate, hfree.put⟩

/-- The names in a directory that was empty are those of the files. -/
theorem names_put (hempty : t.names l = []) (hnodup : (files.map (·.1)).Nodup) :
    ((t.put l files).names l).Perm (files.map (·.1)) := by
  rw [List.perm_ext_iff_of_nodup (nodup_names _ _) hnodup]
  intro name
  rw [mem_names_iff]
  constructor
  · intro hsome
    by_contra hother
    have hsame : (t.put l files).get? (l.child name) = t.get? (l.child name) := by
      apply get?_put_of_forall_ne
      intro f hf heq
      exact hother (Location.child_inj.mp heq ▸ List.mem_map_of_mem hf)
    rw [hsame, get?_child_of_empty hempty] at hsome
    cases hsome
  · intro hname
    obtain ⟨f, hf, rfl⟩ := List.mem_map.mp hname
    rw [get?_put hnodup hf]
    rfl

end Put

end Tree

end Scenario
