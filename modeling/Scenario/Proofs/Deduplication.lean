import Scenario.Proofs.Readback

/-!
# Scenario.Proofs.Deduplication

The pool that a revision makes, byte for byte.

1. A builder holds the strings added to it, each once, in the order in which
   they first came (`Pool.Builder.strings_addRaw`), and its pool is the base
   with these strings packed behind it (`Pool.EntriesLaid.eq_pack`).
2. So a finished draft holds the distinct strings of the references that need
   one, in the order of the references (`Revision.Drafts.strings_eq`), whatever
   mixture of stored bytes and new texts they are.
3. `Revision.Packs` says what that makes of the image: the pool, the patches
   with the offsets they hold, and the figures of the report.
-/

namespace Scenario

namespace Pool

/-! ## packed strings -/

/-- Strings one behind the other, each with a terminator. -/
def pack (terminator : Bytes) (strings : List Bytes) : Bytes := strings.flatMap (· ++ terminator)

theorem pack_cons (terminator raw : Bytes) (strings : List Bytes) :
    pack terminator (raw :: strings) = raw ++ terminator ++ pack terminator strings := rfl

namespace EntriesLaid

variable {terminator : Bytes} {start : Nat} {entries : List (Bytes × Nat)} {bs : Bytes}

/-- Entries lie in the packing of their strings. -/
theorem eq_pack (h : EntriesLaid terminator start entries bs) :
    bs = pack terminator (entries.map (·.1)) := by
  induction h with
  | nil => rfl
  | cons raw rest ih => rw [List.map_cons, pack_cons, ← ih]

/-- The offset of an entry is where the strings before it end. -/
theorem offset_eq_of_split (h : EntriesLaid terminator start entries bs)
    {before behind : List (Bytes × Nat)} {raw : Bytes} {offset : Nat}
    (hsplit : entries = before ++ (raw, offset) :: behind) :
    offset = start + (pack terminator (before.map (·.1))).length := by
  induction before generalizing start entries bs with
  | nil =>
      subst hsplit
      cases h
      rfl
  | cons first before ih =>
      subst hsplit
      cases h with
      | cons raw rest =>
          rw [ih rest rfl, List.map_cons, pack_cons, Nat.add_assoc, ← List.length_append]

/-- An entry has its string among the others, and its offset behind those
before it. -/
theorem offset_eq_of_mem (h : EntriesLaid terminator start entries bs) {raw : Bytes}
    {offset : Nat} (hmem : (raw, offset) ∈ entries) :
    ∃ before behind, entries.map (·.1) = before ++ raw :: behind ∧
      offset = start + (pack terminator before).length := by
  obtain ⟨before, behind, hsplit⟩ := List.append_of_mem hmem
  exact ⟨before.map (·.1), behind.map (·.1), by simp [hsplit], h.offset_eq_of_split hsplit⟩

end EntriesLaid

/-! ## strings of a builder -/

namespace Builder

/-- The strings added to a builder, in the order in which they first came. -/
def strings (b : Builder) : List Bytes := b.cache.toList.map (·.1)

theorem nodup_strings (b : Builder) : b.strings.Nodup := b.cache.nodup_keys

/-- The strings of a builder are those that have an offset. -/
theorem mem_strings_iff {b : Builder} {raw : Bytes} :
    raw ∈ b.strings ↔ ∃ offset, b.offset? raw = some offset := by
  simp [strings, offset?, ← Ordered.mem_toList_iff]

/-- A string that was added before is not added again. -/
theorem strings_addRaw {b b' : Builder} {raw : Bytes} {reference : Int}
    {result : Except Error Placement} (h : b.addRaw raw reference = (b', result)) :
    b'.strings = if raw ∈ b.strings then b.strings else b.strings ++ [raw] := by
  rw [addRaw] at h
  split at h
  · next offset hoffset =>
    rw [if_pos (mem_strings_iff.mpr ⟨offset, hoffset⟩), ← (Prod.mk.inj h).1]
  · next hnone =>
    have hnew : raw ∉ b.strings := by simp [mem_strings_iff, hnone]
    rw [if_neg hnew, ← (Prod.mk.inj h).1, strings, write, Ordered.toList_set,
      Ordered.assign_of_forall_ne _ (Ordered.forall_ne_of_get?_eq_none hnone), List.map_append]
    rfl

end Builder

end Pool

/-- Entries of a list that are not in another, behind that one, when the first
of them joins it. -/
theorem append_eraseDups_removeAll_cons {α : Type} [BEq α] [LawfulBEq α] (known rest : List α)
    (a : α) (h : a ∉ known) :
    known ++ ((a :: rest).removeAll known).eraseDups =
      known ++ [a] ++ (rest.removeAll (known ++ [a])).eraseDups := by
  have hsplit : rest.removeAll (known ++ [a]) = (rest.removeAll known).filter fun b => !b == a := by
    rw [List.removeAll, List.removeAll, List.filter_filter]
    refine List.filter_congr fun b _ => ?_
    rw [Bool.eq_iff_iff]
    simp [and_comm]
  rw [List.cons_removeAll, if_pos (by simpa using h), List.eraseDups_cons, hsplit,
    List.append_assoc, List.singleton_append]

namespace Revision

variable [Codecs] {r : Revision} {image : Image} {draft draft' : Revision.Draft}
  {stored : List Resolved}

/-! ## strings and patches of drafts -/

/-- A draft gains the strings that are to be found and that it does not have,
each once, in the order of the references. -/
theorem Drafts.strings_eq (h : Drafts r image draft stored draft') :
    draft'.builder.strings = draft.builder.strings ++
      (((stored.filter r.touches).filterMap (r.meant? image)).removeAll
        draft.builder.strings).eraseDups := by
  induction h with
  | nil => simp
  | keep huntouched rest ih => simpa [huntouched] using ih
  | @add draft draft' s stored raw b p htouched hraw hadd rest ih =>
      rw [ih, List.filter_cons_of_pos htouched, List.filterMap_cons_some hraw,
        Pool.Builder.strings_addRaw hadd]
      split
      · next hmem => rw [List.cons_removeAll, if_neg (by simpa using hmem)]
      · next hnew => rw [append_eraseDups_removeAll_cons _ _ _ hnew]

/-- A draft patches the references that need a string, in their order. -/
theorem Drafts.map_fst_patches (h : Drafts r image draft stored draft')
    (hnodup : (draft.patches.toList.map (·.1) ++ stored.map Resolved.reference).Nodup) :
    draft'.patches.toList.map (·.1) =
      draft.patches.toList.map (·.1) ++ (stored.filter r.touches).map Resolved.reference := by
  induction h with
  | nil => simp
  | @keep draft draft' s stored huntouched rest ih =>
      rw [ih (hnodup.sublist (by simp)), List.filter_cons_of_neg (by simp [huntouched])]
  | @add draft draft' s stored raw b p htouched hraw hadd rest ih =>
      have hnew : ∀ pair ∈ draft.patches.toList, pair.1 ≠ s.reference := by
        intro pair hpair
        exact (List.nodup_append.mp hnodup).2.2 _ (List.mem_map_of_mem hpair) _ (by simp)
      have hpatches : (draft.patches.set s.reference p.field).toList =
          draft.patches.toList ++ [(s.reference, p.field)] := by
        rw [Ordered.toList_set, Ordered.assign_of_forall_ne _ hnew]
      rw [hpatches] at ih
      rw [ih (by simpa using hnodup), List.filter_cons_of_pos htouched]
      simp

/-! ## the pool of a revision -/

/-- Whether a reference has a text that differs from the stored one. -/
def changes (r : Revision) (image : Image) (reference : Int) : Bool :=
  ((image.resolveAt r.inputEncoding reference).toOption.bind r.newText?).isSome

/-- The references that get a string in the new pool. -/
def written (r : Revision) (image : Image) : List Int :=
  match r.mode with
  | .append => r.refs.filter (r.changes image)
  | .rebuild => r.refs

/-- The bytes of the old pool that come before the strings. -/
def keptPool (r : Revision) (image : Image) : Bytes :=
  match r.mode with
  | .append => image.pool
  | .rebuild => []

/-- The strings that these references are to find, each once, in the order in
which they first come. -/
def strings (r : Revision) (image : Image) : List Bytes :=
  ((r.written image).filterMap (r.meantAt? image)).eraseDups

/-- The offset behind the strings `before` in the new pool. -/
def offsetBehind (r : Revision) (image : Image) (before : List Bytes) : Nat :=
  (r.keptPool image).length + (Pool.pack Pool.terminator before).length

/-- What a revision makes of the pool and the references: `image'` is the image
behind it. -/
structure Packs (r : Revision) (image image' : Image) (report : Report) : Prop where
  /-- Every reference has bytes to find. -/
  meant : ∀ reference ∈ r.refs, ∃ raw, r.meantAt? image reference = some raw
  /-- Behind the bytes that are kept lie the strings, and nothing else. -/
  pool : image'.pool = r.keptPool image ++ Pool.pack Pool.terminator (r.strings image)
  nodup : (r.strings image).Nodup
  /-- Exactly the references that get a string are patched. -/
  patched : report.patches.map (·.1) = r.written image
  /-- A patched reference holds the offset of its string modulo 65536. -/
  held : ∀ patch ∈ report.patches, ∃ before raw behind,
    r.strings image = before ++ raw :: behind ∧ r.meantAt? image patch.1 = some raw ∧
      patch.2 = r.offsetBehind image before % 65536 ∧
      image'.code.readUInt? patch.1 2 = some patch.2
  /-- The others hold what they held. -/
  others : ∀ reference ∈ r.refs, reference ∉ r.written image →
    image'.code.readUInt? reference 2 = image.code.readUInt? reference 2
  patchedCount : report.patched = (r.written image).length
  uniqueStrings : report.uniqueStrings = (r.strings image).length
  poolBefore : report.poolBefore = image.pool.length
  poolAfter : report.poolAfter = image'.pool.length

section Stored

variable (hstored : image.storedTexts r.refs r.inputEncoding = .ok stored)
include hstored

/-- What is meant by a stored text is meant at its reference. -/
theorem meantAt?_of_mem {s : Resolved} (hs : s ∈ stored) :
    r.meantAt? image s.reference = r.meant? image s :=
  meantAt?_of_resolveAt (Image.resolveAt_of_mem_storedTexts hstored hs)

/-- The references that get a string are those of the stored texts that need
one. -/
theorem written_eq : r.written image = (stored.filter r.touches).map Resolved.reference := by
  have hrefs := Image.map_reference_of_storedTexts hstored
  rw [written]
  split
  · next hmode =>
    rw [← hrefs, List.filter_map]
    congr 1
    refine List.filter_congr fun s hs => ?_
    simp [changes, touches, hmode, Image.resolveAt_of_mem_storedTexts hstored hs,
      Except.toOption]
  · next hmode =>
    rw [List.filter_eq_self.mpr fun s _ => by simp [touches, hmode], hrefs]

/-- The strings of a revision are those of the stored texts that need one. -/
theorem strings_eq_of_storedTexts :
    r.strings image = ((stored.filter r.touches).filterMap (r.meant? image)).eraseDups := by
  rw [strings, written_eq hstored, List.filterMap_map]
  congr 1
  exact List.filterMap_congr fun s hs =>
    meantAt?_of_mem hstored (List.mem_of_mem_filter hs)

end Stored

section Finished

variable (h : Drafts r image (r.start image) stored draft)
  (hstored : image.storedTexts r.refs r.inputEncoding = .ok stored) (hnodup : r.refs.Nodup)
include h hstored

/-- A finished draft has the strings of the revision. -/
theorem Drafts.strings_of_start : draft.builder.strings = r.strings image := by
  rw [h.strings_eq, strings_eq_of_storedTexts hstored]
  simp [start, Pool.Builder.start, Pool.Builder.strings, List.removeAll]

include hnodup

/-- A finished draft has these strings behind the bytes that are kept. -/
theorem Drafts.laid_of_start :
    ∃ bs, draft.builder.value = r.keptPool image ++ bs ∧
      Pool.EntriesLaid Pool.terminator (r.keptPool image).length draft.builder.cache.toList bs := by
  rw [← Image.map_reference_of_storedTexts hstored] at hnodup
  obtain ⟨hgrows, -⟩ := h.serves rfl hnodup
  have hbehind : (r.start image).builder.Behind (r.keptPool image) :=
    Pool.Builder.behind_start ..
  obtain ⟨bs, hvalue, hlaid⟩ := hgrows.behind _ hbehind
  rw [hgrows.terminator] at hlaid
  exact ⟨bs, hvalue, hlaid⟩

/-- A finished draft patches the references that get a string. -/
theorem Drafts.map_fst_patches_of_start :
    draft.patches.toList.map (·.1) = r.written image := by
  rw [← Image.map_reference_of_storedTexts hstored] at hnodup
  rw [h.map_fst_patches (by simpa [start] using hnodup), written_eq hstored]
  rfl

/-- Every stored text has bytes that its reference is to find. -/
theorem Drafts.exists_meant {s : Resolved} (hs : s ∈ stored) :
    ∃ raw, r.meant? image s = some raw := by
  rw [← Image.map_reference_of_storedTexts hstored] at hnodup
  obtain ⟨-, -, hserves, -⟩ := h.serves rfl hnodup
  by_cases htouched : r.touches s = true
  · obtain ⟨raw, -, hraw, -⟩ := hserves s hs htouched
    exact ⟨raw, hraw⟩
  · exact ⟨_, by rw [meant?, (of_not_touches htouched).2]⟩

/-- A patch is the offset of the string that its reference is to find, which
lies behind the strings that come before it. -/
theorem Drafts.offset_of_patch {patch : Int × Nat} (hpatch : patch ∈ draft.patches.toList) :
    ∃ before raw behind, r.strings image = before ++ raw :: behind ∧
      r.meantAt? image patch.1 = some raw ∧
      patch.2 = r.offsetBehind image before % 65536 := by
  obtain ⟨_, -, hlaid⟩ := h.laid_of_start hstored hnodup
  have hreference : patch.1 ∈ r.written image :=
    h.map_fst_patches_of_start hstored hnodup ▸ List.mem_map_of_mem hpatch
  rw [written_eq hstored] at hreference
  obtain ⟨s, hs, heq⟩ := List.mem_map.mp hreference
  obtain ⟨hs, htouched⟩ := List.mem_filter.mp hs
  rw [← Image.map_reference_of_storedTexts hstored] at hnodup
  obtain ⟨-, -, hserves, -⟩ := h.serves rfl hnodup
  obtain ⟨raw, p, hraw, hoffset, -, -, hget⟩ := hserves s hs htouched
  obtain ⟨before, behind, hsplit, hplace⟩ :=
    hlaid.offset_eq_of_mem ((draft.builder.cache.mem_toList_iff raw p.offset).mpr hoffset)
  refine ⟨before, raw, behind, ?_, ?_, ?_⟩
  · rw [← h.strings_of_start hstored]
    exact hsplit
  · rw [← heq, meantAt?_of_mem hstored hs, hraw]
  · have hsame : some patch.2 = some p.field := by
      rw [← hget, heq, (draft.patches.mem_toList_iff _ _).mp hpatch]
    rw [Option.some.inj hsame, offsetBehind, ← hplace]
    rfl

end Finished

/-- **The pool of a revision**, byte for byte: behind the bytes that are kept
lie the distinct strings of the references that get one, in the order of the
references, each with its terminator; these references, and no others, hold
the offsets of their strings; and the report counts them. -/
theorem packs_of_run {dialect : Dialect} {encoding : String} {d : Decoded}
    (hd : image.decode dialect encoding = .ok d) (hrefs : r.refs = d.stringRefs)
    {report : Report} (h : (r.run image).result = .ok report) :
    Packs r image (r.run image).image report := by
  have hfields : FieldsIn 0 d.consumed r.refs := hrefs ▸ Image.fieldsIn_of_decode hd
  have hnodup := hfields.nodup
  obtain ⟨stored, draft, code, hstored, hdrafts, hcode, hpatched, himage, -, rfl⟩ :=
    exists_drafts_of_run h
  obtain ⟨bs, hvalue, hlaid⟩ := hdrafts.laid_of_start hstored hnodup
  have hstrings := hdrafts.strings_of_start hstored
  have hwritten := hdrafts.map_fst_patches_of_start hstored hnodup
  rw [himage]
  refine ⟨fun reference hreference => ?_, ?_, ?_, hwritten, fun patch hpatch => ?_,
    fun reference hreference hnot => ?_, ?_, ?_, rfl, rfl⟩
  · rw [← Image.map_reference_of_storedTexts hstored] at hreference
    obtain ⟨s, hs, rfl⟩ := List.mem_map.mp hreference
    rw [meantAt?_of_mem hstored hs]
    exact hdrafts.exists_meant hstored hnodup hs
  · rw [hvalue, hlaid.eq_pack, ← hstrings]
    rfl
  · rw [← hstrings]
    exact draft.builder.nodup_strings
  · obtain ⟨before, raw, behind, hsplit, hraw, hoffset⟩ :=
      hdrafts.offset_of_patch hstored hnodup hpatch
    exact ⟨before, raw, behind, hsplit, hraw, hoffset,
      readUInt?_of_patch hfields hpatched hcode ((draft.patches.mem_toList_iff _ _).mp hpatch)⟩
  · have hnone : draft.patches.get? reference = none := by
      rw [Option.eq_none_iff_forall_ne_some]
      intro v hv
      rw [← hwritten] at hnot
      exact hnot (List.mem_map_of_mem ((draft.patches.mem_toList_iff reference v).mpr hv))
    exact readUInt?_of_not_patch hfields hpatched hcode hreference hnone
  · rw [← hwritten, List.length_map]
    rfl
  · rw [← hstrings, Pool.Builder.strings, List.length_map]
    rfl

end Revision

/-- A new text for the first of three calls: the one that the second has. -/
def Revision.shared : Revision :=
  { mode := .rebuild
    refs := [2, 6, 10]
    texts := .ofList [(2, "B")]
    inputEncoding := "ascii"
    outputEncoding := "ascii"
    allowOverflow := false }

theorem Revision.packs_shared :
    ∃ report, (Revision.shared.run .nested).result = .ok report ∧
      (Revision.shared.run .nested).image.pool = [0x42, 0x00, 0x00, 0x41, 0x42, 0x00, 0x00] ∧
      report.patches.map (·.1) = [2, 6, 10] ∧ report.uniqueStrings = 2 ∧ report.patched = 3 ∧
      ∀ patch ∈ report.patches, ∃ before raw behind,
        [[0x42], [0x41, 0x42]] = before ++ raw :: behind ∧
        Revision.shared.meantAt? .nested patch.1 = some raw ∧
        patch.2 = Revision.shared.offsetBehind .nested before % 65536 ∧
        (Revision.shared.run .nested).image.code.readUInt? patch.1 2 = some patch.2 := by
  have hd : (Image.nested.decode Dialect.sample "ascii").toOption.map Decoded.stringRefs =
      some [2, 6, 10] := by
    decide +kernel
  have hresult : (Revision.shared.run .nested).result.toOption.map Report.references = some 3 := by
    decide +kernel
  have hstrings : Revision.shared.strings .nested = [[0x42], [0x41, 0x42]] := by decide +kernel
  obtain ⟨d, hd, hrefs⟩ := exists_ok_of_map_toOption hd
  obtain ⟨report, hreport, -⟩ := exists_ok_of_map_toOption hresult
  have hpacks := Revision.packs_of_run hd hrefs.symm hreport
  refine ⟨report, hreport, ?_, hpacks.patched, ?_, hpacks.patchedCount, ?_⟩
  · rw [hpacks.pool, hstrings]
    rfl
  · rw [hpacks.uniqueStrings, hstrings]
    rfl
  · rw [← hstrings]
    exact hpacks.held

end Scenario
