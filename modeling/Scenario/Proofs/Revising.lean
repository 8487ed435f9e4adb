import Scenario.Proofs.Builder
import Scenario.Proofs.Layout
import Scenario.Proofs.Traverse
import Scenario.Revision

/-!
# Scenario.Proofs.Revising

What a revision does to an image.

1. Patches that lie inside the code can all be made, so a revision that comes
   to patching succeeds, and one that fails leaves the image as it was
   (`Revision.run_image_of_error`).
2. Patches that do not overlap are all found afterwards, and no other byte is
   changed.
3. `Revision.Drafts` is the relation between a draft and the one that a run of
   references makes of it, and `Revision.run_cases` says what a revision can
   do.  What is true of all drafts is proved by induction on that relation.
4. `Revision.Done` says what a revision did that succeeded: which bytes of the
   code stayed, where the strings of the references lie in the new pool, and
   which references hold what they held before.
-/

namespace Scenario

/-! ## patches -/

namespace Buffer

theorem getElem?_setWord_of_outside (b : Buffer) {offset i : Nat} (value : Nat)
    (h : i < offset ∨ offset + 2 ≤ i) : (b.setWord offset value)[i]? = b[i]? := by
  rw [setWord, Array.getElem?_setIfInBounds, if_neg (by omega), Array.getElem?_setIfInBounds,
    if_neg (by omega)]

/-- A patched field holds what was put there. -/
theorem readWord?_setWord {b : Buffer} {offset value : Nat} (h : offset + 2 ≤ b.size)
    (hvalue : value < 65536) : (b.setWord offset value).readWord? offset = some value := by
  have hlow : (b.setWord offset value)[offset]? = some (UInt8.ofNat value) := by
    rw [setWord, Array.getElem?_setIfInBounds, if_neg (by omega), Array.getElem?_setIfInBounds,
      if_pos rfl, if_pos (by omega)]
  have hhigh : (b.setWord offset value)[offset + 1]? = some (UInt8.ofNat (value / 256)) := by
    rw [setWord, Array.getElem?_setIfInBounds, if_pos rfl, if_pos (by simp; omega)]
  rw [readWord?, if_neg (by omega), Int.toNat_natCast, hlow, hhigh]
  simp only [Bytes.word, UInt8.toNat_ofNat', Option.some.injEq]
  omega

/-- Equal bytes make equal fields. -/
theorem readWord?_congr {b b' : Buffer} {offset : Int}
    (h : ∀ i : Nat, offset ≤ i → i < offset + 2 → b'[i]? = b[i]?) :
    b'.readWord? offset = b.readWord? offset := by
  rw [readWord?, readWord?]
  split
  · rfl
  · rw [h offset.toNat (by omega) (by omega), h (offset.toNat + 1) (by omega) (by omega)]

/-- A patch can be made inside the buffer with a value of 16 bits. -/
theorem patchFault?_eq_none_iff (size : Nat) (offset value : Int) :
    patchFault? size offset value = none ↔
      0 ≤ offset ∧ offset + 2 ≤ size ∧ 0 ≤ value ∧ value < 65536 := by
  rw [patchFault?]
  split
  · simp only [reduceCtorEq, false_iff]
    omega
  · split
    · simp only [true_iff]
      omega
    · simp only [reduceCtorEq, false_iff]
      omega

end Buffer

namespace Revision

section Patches

variable {code : Buffer} {patches : List (Int × Nat)}

/-- Patches inside the code can all be made. -/
theorem exists_patchAll_eq_ok
    (h : ∀ p ∈ patches, 0 ≤ p.1 ∧ p.1 + 2 ≤ code.size ∧ p.2 < 65536) :
    ∃ code', patchAll code patches = (code', .ok ()) := by
  fun_induction patchAll code patches with
  | case1 code => exact ⟨code, rfl⟩
  | case2 code reference offset rest e hfault =>
      have hpatch := h (reference, offset) List.mem_cons_self
      have hnone := (Buffer.patchFault?_eq_none_iff code.size reference offset).mpr
        ⟨hpatch.1, hpatch.2.1, by omega, by omega⟩
      rw [hnone] at hfault
      cases hfault
  | case3 code reference offset rest hfault ih =>
      exact ih fun p hp => by
        rw [Buffer.size_setWord]
        exact h p (List.mem_cons_of_mem _ hp)

/-- Patches change no byte outside their fields. -/
theorem getElem?_patchAll {i : Nat} (h : ∀ p ∈ patches, (i : Int) < p.1 ∨ p.1 + 2 ≤ i) :
    (patchAll code patches).1[i]? = code[i]? := by
  fun_induction patchAll code patches with
  | case1 code => rfl
  | case2 code reference offset rest e hfault => rfl
  | case3 code reference offset rest hfault ih =>
      have hinside := (Buffer.patchFault?_eq_none_iff _ _ _).mp hfault
      have hpatch := h (reference, offset) List.mem_cons_self
      rw [ih fun p hp => h p (List.mem_cons_of_mem _ hp)]
      exact Buffer.getElem?_setWord_of_outside code offset (by omega)

/-- Patches change no field that they do not overlap. -/
theorem readWord?_patchAll_of_apart {reference : Int}
    (h : ∀ p ∈ patches, p.1 + 2 ≤ reference ∨ reference + 2 ≤ p.1) :
    (patchAll code patches).1.readWord? reference = code.readWord? reference := by
  refine Buffer.readWord?_congr fun i hlow hhigh => getElem?_patchAll fun p hp => ?_
  have := h p hp
  omega

/-- Patches that do not overlap are all found afterwards. -/
theorem readWord?_patchAll_of_mem {code' : Buffer}
    (hapart : patches.Pairwise fun p q => q.1 + 2 ≤ p.1 ∨ p.1 + 2 ≤ q.1)
    (h : patchAll code patches = (code', .ok ())) {reference : Int} {offset : Nat}
    (hmem : (reference, offset) ∈ patches) : code'.readWord? reference = some offset := by
  fun_induction patchAll code patches with
  | case1 code => cases hmem
  | case2 code first value rest e hfault => cases h
  | case3 code first value rest hfault ih =>
      rw [List.pairwise_cons] at hapart
      rcases List.mem_cons.mp hmem with heq | hmem
      · obtain ⟨rfl, rfl⟩ := Prod.mk.inj heq
        obtain ⟨h0, hsize, -, hvalue⟩ := (Buffer.patchFault?_eq_none_iff _ _ _).mp hfault
        obtain ⟨n, rfl⟩ := Int.eq_ofNat_of_zero_le h0
        have hlater := @readWord?_patchAll_of_apart (code.setWord n offset) rest n hapart.1
        rw [Int.toNat_natCast] at h
        rw [h, Buffer.readWord?_setWord (by omega) (by omega)] at hlater
        exact hlater
      · exact ih hapart.2 h hmem

end Patches

/-! ## patches of references -/

section PatchedReferences

variable {refs : List Int} {low high : Int} {before : Bytes} {code : Buffer}
  {patches : Ordered Int Nat}

/-- A reference that is patched holds its patch. -/
theorem readUInt?_of_patch (hfields : FieldsIn low high refs)
    (hrefs : ∀ p ∈ patches.toList, p.1 ∈ refs)
    (h : patchAll before.toArray patches.toList = (code, .ok ())) {reference : Int} {v : Nat}
    (hpatch : patches.get? reference = some v) :
    Bytes.readUInt? code.toList reference 2 = some v := by
  -- different references are apart, and no reference is patched twice
  have hnodup := patches.nodup_keys
  rw [List.Nodup, List.pairwise_map] at hnodup
  have hapart : patches.toList.Pairwise fun p q => q.1 + 2 ≤ p.1 ∨ p.1 + 2 ≤ q.1 := by
    refine hnodup.imp_of_mem fun {p q} hp hq hne => ?_
    rcases hfields.eq_or_apart (hrefs p hp) (hrefs q hq) with heq | hapart
    · exact absurd heq hne
    · omega
  rw [← Buffer.readWord?_toArray, Array.toArray_toList]
  exact readWord?_patchAll_of_mem hapart h ((patches.mem_toList_iff _ _).mpr hpatch)

/-- A reference that is not patched holds what it held. -/
theorem readUInt?_of_not_patch (hfields : FieldsIn low high refs)
    (hrefs : ∀ p ∈ patches.toList, p.1 ∈ refs)
    (h : patchAll before.toArray patches.toList = (code, .ok ())) {reference : Int}
    (hreference : reference ∈ refs) (hpatch : patches.get? reference = none) :
    Bytes.readUInt? code.toList reference 2 = before.readUInt? reference 2 := by
  have hapart : ∀ p ∈ patches.toList, p.1 + 2 ≤ reference ∨ reference + 2 ≤ p.1 := by
    intro p hp
    rcases hfields.eq_or_apart (hrefs p hp) hreference with heq | hapart
    · exact absurd heq (Ordered.forall_ne_of_get?_eq_none hpatch p hp)
    · exact hapart
  have hsame := @readWord?_patchAll_of_apart before.toArray patches.toList reference hapart
  rw [h] at hsame
  rw [← Buffer.readWord?_toArray, ← Buffer.readWord?_toArray, Array.toArray_toList]
  exact hsame

end PatchedReferences

/-! ## drafts -/

variable [Codecs] {r : Revision} {image : Image}

omit [Codecs] in
/-- The new text of a reference is the one given for it, if that is not the
text it has. -/
theorem newText?_eq_some_iff {stored : Resolved} {text : String} :
    r.newText? stored = some text ↔
      r.texts.get? stored.reference = some text ∧ text ≠ stored.text := by
  rw [newText?]
  cases r.texts.get? stored.reference with
  | none => simp
  | some given =>
      simp only [Option.ite_none_left_eq_some, Option.some.injEq]
      constructor
      · rintro ⟨hne, rfl⟩
        exact ⟨rfl, hne⟩
      · rintro ⟨rfl, hne⟩
        exact ⟨hne, rfl⟩

/-- Whether a reference gets a string in the new pool: when that is made
anew, or when the reference has a new text. -/
def touches (r : Revision) (stored : Resolved) : Bool :=
  r.mode == .rebuild || (r.newText? stored).isSome

omit [Codecs] in
/-- A reference that gets no string keeps its text in a pool that is kept. -/
theorem of_not_touches {stored : Resolved} (h : ¬ r.touches stored = true) :
    r.mode = .append ∧ r.newText? stored = none := by
  rw [touches, Bool.or_eq_true, not_or, Bool.not_eq_true, Bool.not_eq_true,
    Option.isSome_eq_false_iff, Option.isNone_iff_eq_none] at h
  cases hmode : r.mode with
  | append => exact ⟨rfl, h.2⟩
  | rebuild => simp [hmode] at h

/-- The bytes that a reference is to find: those of its new text, or those it
finds in the image. -/
def meant? (r : Revision) (image : Image) (stored : Resolved) : Option Bytes :=
  match r.newText? stored with
  | some text => Encoding.bytesOf? r.outputEncoding text
  | none => some (Pool.stringAt image.pool stored.offset)

/-- A draft has a string for a reference and patches the reference to it. -/
def Serves (r : Revision) (image : Image) (draft : Draft) (stored : Resolved) : Prop :=
  ∃ (raw : Bytes) (p : Placement), r.meant? image stored = some raw ∧
    draft.builder.offset? raw = some p.offset ∧
    (r.allowOverflow = false → p.offset ≤ Placement.maxOffset) ∧ p ∈ draft.placements ∧
    draft.patches.get? stored.reference = some p.field

/-- What a reference adds to the pool. -/
theorem contribute_eq_ok_iff {b b' : Pool.Builder} {stored : Resolved} {placed : Option Placement}
    (hencoding : b.encoding = r.outputEncoding) :
    r.contribute image (.ofPool image.pool) b stored = (b', .ok placed) ↔
      (r.touches stored = false ∧ b' = b ∧ placed = none) ∨
      (r.touches stored = true ∧ ∃ raw p, r.meant? image stored = some raw ∧
        b.addRaw raw (image.absolute stored.reference) = (b', .ok p) ∧ placed = some p) := by
  have hplaced : ∀ x : Pool.Builder × Except Error Placement,
      (x.1, x.2.map some) = (b', .ok placed) ↔ ∃ p, x = (b', .ok p) ∧ placed = some p := by
    rintro ⟨b₁, e | p⟩
    · simp [Except.map]
    · simp [Except.map, and_assoc, eq_comm]
  cases hnew : r.newText? stored with
  | some text =>
      have htouched : r.touches stored = true := by simp [touches, hnew]
      simp only [contribute, hnew, hplaced, Pool.Builder.add_eq_ok_iff, hencoding, htouched, meant?]
      grind
  | none =>
      cases hmode : r.mode with
      | append =>
          have huntouched : r.touches stored = false := by simp [touches, hnew, hmode]
          simp [contribute, hnew, hmode, huntouched, eq_comm]
      | rebuild =>
          have htouched : r.touches stored = true := by simp [touches, hmode]
          simp only [contribute, hnew, hmode, hplaced, Pool.Index.stringAt_ofPool, htouched, meant?]
          grind

/-- How references make a draft of another, one after the other, when none of
them fails. -/
inductive Drafts (r : Revision) (image : Image) : Draft → List Resolved → Draft → Prop where
  | nil {draft : Draft} : Drafts r image draft [] draft
  | keep {draft draft' : Draft} {s : Resolved} {stored : List Resolved}
      (huntouched : r.touches s = false) (rest : Drafts r image draft stored draft') :
      Drafts r image draft (s :: stored) draft'
  | add {draft draft' : Draft} {s : Resolved} {stored : List Resolved} {raw : Bytes}
      {b : Pool.Builder} {p : Placement} (htouched : r.touches s = true)
      (hraw : r.meant? image s = some raw)
      (hadd : draft.builder.addRaw raw (image.absolute s.reference) = (b, .ok p))
      (rest : Drafts r image
        ⟨b, p :: draft.placements, draft.patches.set s.reference p.field⟩ stored draft') :
      Drafts r image draft (s :: stored) draft'

/-- A draft is finished exactly in this way. -/
theorem addAll_eq_ok_iff {draft draft' : Draft} {stored : List Resolved}
    (hencoding : draft.builder.encoding = r.outputEncoding) :
    r.addAll image (.ofPool image.pool) draft stored = (draft', .ok ()) ↔
      Drafts r image draft stored draft' := by
  constructor
  · intro h
    induction stored generalizing draft with
    | nil =>
        simp only [addAll, Prod.mk.injEq, and_true] at h
        subst h
        exact .nil
    | cons s stored ih =>
        obtain ⟨b, placements, patches⟩ := draft
        rw [addAll] at h
        split at h
        · cases h
        · next b' hcontribute =>
          obtain ⟨huntouched, rfl, -⟩ | ⟨-, _, _, -, -, hnone⟩ :=
            (contribute_eq_ok_iff hencoding).mp hcontribute
          · exact .keep huntouched (ih hencoding h)
          · cases hnone
        · next b' p hcontribute =>
          obtain ⟨-, -, hsome⟩ | ⟨htouched, raw, _, hraw, hadd, hp⟩ :=
            (contribute_eq_ok_iff hencoding).mp hcontribute
          · cases hsome
          · obtain rfl := Option.some.inj hp
            have hsame := (Pool.Builder.addRaw_eq_ok hadd).1.encoding
            exact .add htouched hraw hadd (ih (hsame.trans hencoding) h)
  · intro h
    induction h with
    | nil => rfl
    | @keep draft _ s _ huntouched rest ih =>
        have hcontribute :
            r.contribute image (.ofPool image.pool) draft.builder s = (draft.builder, .ok none) :=
          (contribute_eq_ok_iff hencoding).mpr (.inl ⟨huntouched, rfl, rfl⟩)
        rw [addAll, hcontribute]
        exact ih hencoding
    | @add draft _ s _ raw b p htouched hraw hadd rest ih =>
        have hcontribute := (contribute_eq_ok_iff hencoding).mpr
          (.inr ⟨htouched, raw, p, hraw, hadd, rfl⟩)
        rw [addAll, hcontribute]
        exact ih ((Pool.Builder.addRaw_eq_ok hadd).1.encoding.trans hencoding)

/-- A finished draft serves the references that need a string, and patches no
other. -/
theorem Drafts.serves {draft draft' : Draft} {stored : List Resolved}
    (h : Drafts r image draft stored draft')
    (hoverflow : draft.builder.allowOverflow = r.allowOverflow)
    (hnodup : (stored.map Resolved.reference).Nodup) :
    draft.builder.Grows draft'.builder ∧ draft.placements ⊆ draft'.placements ∧
      (∀ s ∈ stored, r.touches s = true → r.Serves image draft' s) ∧
      ∀ reference, (∀ s ∈ stored, s.reference = reference → r.touches s = false) →
        draft'.patches.get? reference = draft.patches.get? reference := by
  induction h with
  | nil => exact ⟨.refl _, List.Subset.refl _, by simp, fun _ _ => rfl⟩
  | @keep draft draft' s stored huntouched rest ih =>
      rw [List.map_cons, List.nodup_cons] at hnodup
      obtain ⟨hgrows, hplaced, hserves, hothers⟩ := ih hoverflow hnodup.2
      refine ⟨hgrows, hplaced, fun s' hs' htouched => ?_, fun reference hreference =>
        hothers reference fun s' hs' => hreference s' (List.mem_cons_of_mem _ hs')⟩
      rcases List.mem_cons.mp hs' with rfl | hs'
      · rw [huntouched] at htouched
        cases htouched
      · exact hserves s' hs' htouched
  | @add draft draft' s stored raw b p htouched hraw hadd rest ih =>
      rw [List.map_cons, List.nodup_cons] at hnodup
      obtain ⟨hstep, hoffset, hfits⟩ := Pool.Builder.addRaw_eq_ok hadd
      obtain ⟨hgrows, hplaced, hserves, hothers⟩ :=
        ih (hstep.allowOverflow.trans hoverflow) hnodup.2
      refine ⟨hstep.trans hgrows, fun q hq => hplaced (List.mem_cons_of_mem _ hq),
        fun s' hs' htouched' => ?_, fun reference hreference => ?_⟩
      · rcases List.mem_cons.mp hs' with rfl | hs'
        · -- no later reference is at this place, so the patch stays
          refine ⟨raw, p, hraw, hgrows.offset? _ _ hoffset,
            fun hno => hfits (hoverflow.trans hno), hplaced List.mem_cons_self, ?_⟩
          rw [hothers s'.reference fun s hs heq =>
            absurd (List.mem_map.mpr ⟨s, hs, heq⟩) hnodup.1]
          simp [Ordered.get?_set]
        · exact hserves s' hs' htouched'
      · have hne : s.reference ≠ reference := fun heq => by
          rw [hreference s List.mem_cons_self heq] at htouched
          cases htouched
        rw [hothers reference fun s' hs' => hreference s' (List.mem_cons_of_mem _ hs'),
          Ordered.get?_set, if_neg hne]

/-- The patches of a draft are 16-bit values at references. -/
theorem patches_addAll {P : Int → Nat → Prop} {index : Pool.Index} {draft : Draft}
    {stored : List Resolved}
    (hdraft : ∀ reference v, draft.patches.get? reference = some v → P reference v)
    (hstored : ∀ s ∈ stored, ∀ v < 65536, P s.reference v) {reference : Int} {v : Nat}
    (h : (r.addAll image index draft stored).1.patches.get? reference = some v) :
    P reference v := by
  induction stored generalizing draft with
  | nil => exact hdraft reference v h
  | cons s stored ih =>
      obtain ⟨b, placements, patches⟩ := draft
      have hrest : ∀ s' ∈ stored, ∀ v < 65536, P s'.reference v :=
        fun s' hs' => hstored s' (List.mem_cons_of_mem _ hs')
      rw [addAll] at h
      split at h
      · exact hdraft reference v h
      · refine ih ?_ hrest h
        exact hdraft
      · next p _ =>
        refine ih (fun reference' v' h' => ?_) hrest h
        simp only [Ordered.get?_set] at h'
        split at h'
        · next heq =>
          subst heq
          obtain rfl := Option.some.inj h'
          exact hstored s List.mem_cons_self _ (Nat.mod_lt _ (by decide))
        · exact hdraft reference' v' h'

end Revision

/-! ## stored texts -/

namespace Image

variable [Codecs] {image : Image} {encoding : String}

/-- A reference that resolves holds an offset inside the pool. -/
theorem resolveAt_eq_ok {reference : Int} {s : Resolved}
    (h : image.resolveAt encoding reference = .ok s) :
    s.reference = reference ∧ image.code.readUInt? reference 2 = some s.offset ∧
      s.offset < image.pool.length := by
  obtain ⟨offset, hoffset, hrest⟩ := andThen_eq_ok_iff.mp h
  obtain ⟨text, htext, hs⟩ := andThen_eq_ok_iff.mp hrest
  obtain rfl := Except.ok.inj hs
  refine ⟨rfl, ?_, ?_⟩
  · rw [offsetAt] at hoffset
    split at hoffset
    · next hread => rw [hread, Except.ok.inj hoffset]
    · cases hoffset
  · exact Int.ofNat_lt.mp (Pool.resolve_eq_ok_iff.mp htext).2.1

/-- The stored texts are those of the references, in their order. -/
theorem map_reference_of_storedTexts {refs : List Int} {stored : List Resolved}
    (h : image.storedTexts refs encoding = .ok stored) :
    stored.map Resolved.reference = refs := by
  rw [storedTexts_eq_mapM, mapM_eq_ok_iff] at h
  induction h with
  | nil => rfl
  | cons hone hrest ih => rw [List.map_cons, ih, (resolveAt_eq_ok hone).1]

/-- A stored text is what its reference resolves to. -/
theorem resolveAt_of_mem_storedTexts {refs : List Int} {stored : List Resolved}
    (h : image.storedTexts refs encoding = .ok stored) {s : Resolved} (hs : s ∈ stored) :
    image.resolveAt encoding s.reference = .ok s := by
  rw [storedTexts_eq_mapM] at h
  obtain ⟨reference, -, hresolve⟩ := exists_of_mem_mapM h hs
  rw [(resolveAt_eq_ok hresolve).1]
  exact hresolve

end Image

/-! ## runs -/

namespace Revision

variable [Codecs] {r : Revision} {image : Image}

/-- The patches of a draft lie inside the code. -/
theorem patches_inside {stored : List Resolved}
    (hstored : image.storedTexts r.refs r.inputEncoding = .ok stored) {draft : Draft}
    {result : Except Error Unit} {index : Pool.Index}
    (hdraft : r.addAll image index (r.start image) stored = (draft, result)) :
    ∀ p ∈ draft.patches.toList,
      p.1 ∈ r.refs ∧ 0 ≤ p.1 ∧ p.1 + 2 ≤ image.code.length ∧ p.2 < 65536 := by
  rintro ⟨reference, v⟩ hp
  rw [Ordered.mem_toList_iff] at hp
  refine @patches_addAll _ r image
    (fun reference v => reference ∈ r.refs ∧ 0 ≤ reference ∧
      reference + 2 ≤ image.code.length ∧ v < 65536)
    index (r.start image) stored ?_ ?_ reference v (by rw [hdraft]; exact hp)
  · intro reference v hempty
    simp [start] at hempty
  · intro s hs v hv
    obtain ⟨-, hread, -⟩ := Image.resolveAt_eq_ok (Image.resolveAt_of_mem_storedTexts hstored hs)
    obtain ⟨h0, hlength⟩ := Bytes.inside_of_readUInt? hread
    rw [← Image.map_reference_of_storedTexts hstored]
    exact ⟨List.mem_map_of_mem hs, h0, hlength, hv⟩

/-- What a revision tells of a finished draft. -/
def reportOf (r : Revision) (image : Image) (draft : Draft) : Report :=
  { mode := r.mode
    references := r.refs.length
    patched := draft.patches.size
    uniqueStrings := draft.builder.cache.size
    poolBefore := image.pool.length
    poolAfter := draft.builder.value.length
    patches := draft.patches.toList }

/-- A revision whose draft is finished and whose patches can be made succeeds. -/
theorem run_of_drafts {stored : List Resolved} {draft : Draft} {code : Buffer}
    (hstored : image.storedTexts r.refs r.inputEncoding = .ok stored)
    (hdrafts : Drafts r image (r.start image) stored draft)
    (hcode : patchAll image.code.toArray draft.patches.toList = (code, .ok ())) :
    r.run image = ⟨{ image with code := code.toList, pool := draft.builder.value },
      draft.placements.reverse, .ok (r.reportOf image draft)⟩ := by
  have hdraft := (addAll_eq_ok_iff rfl).mpr hdrafts
  simp only [run, hstored, hdraft, commit, hcode]
  rfl

/-- A revision fails and leaves the image alone, or makes all its patches. -/
theorem run_cases (r : Revision) (image : Image) :
    (∃ e, (r.run image).result = .error e ∧ (r.run image).image = image) ∨
      ∃ stored draft code,
        image.storedTexts r.refs r.inputEncoding = .ok stored ∧
        Drafts r image (r.start image) stored draft ∧
        patchAll image.code.toArray draft.patches.toList = (code, .ok ()) ∧
        (∀ p ∈ draft.patches.toList, p.1 ∈ r.refs) ∧
        r.run image = ⟨{ image with code := code.toList, pool := draft.builder.value },
          draft.placements.reverse, .ok (r.reportOf image draft)⟩ := by
  cases hstored : image.storedTexts r.refs r.inputEncoding with
  | error e => exact .inl ⟨e, by simp [run, hstored], by simp [run, hstored]⟩
  | ok stored =>
      cases hdraft : r.addAll image (.ofPool image.pool) (r.start image) stored with
      | mk draft result =>
          cases result with
          | error e =>
              exact .inl ⟨e, by simp [run, hstored, hdraft], by simp [run, hstored, hdraft]⟩
          | ok =>
              have hinside := patches_inside hstored hdraft
              obtain ⟨code, hcode⟩ := @exists_patchAll_eq_ok image.code.toArray
                draft.patches.toList fun p hp => (hinside p hp).2
              have hdrafts := (addAll_eq_ok_iff rfl).mp hdraft
              exact .inr ⟨stored, draft, code, rfl, hdrafts, hcode, fun p hp => (hinside p hp).1,
                run_of_drafts hstored hdrafts hcode⟩

/-- **Failures change nothing**: a revision that fails leaves the image as it
was. -/
theorem run_image_of_error {e : Error} (h : (r.run image).result = .error e) :
    (r.run image).image = image := by
  obtain ⟨-, -, himage⟩ | ⟨_, _, _, -, -, -, -, hrun⟩ := r.run_cases image
  · exact himage
  · rw [hrun] at h
    cases h

/-- How a revision succeeded. -/
theorem exists_drafts_of_run {report : Report} (h : (r.run image).result = .ok report) :
    ∃ stored draft code,
      image.storedTexts r.refs r.inputEncoding = .ok stored ∧
      Drafts r image (r.start image) stored draft ∧
      patchAll image.code.toArray draft.patches.toList = (code, .ok ()) ∧
      (∀ p ∈ draft.patches.toList, p.1 ∈ r.refs) ∧
      (r.run image).image = { image with code := code.toList, pool := draft.builder.value } ∧
      (r.run image).placements = draft.placements.reverse ∧ report = r.reportOf image draft := by
  obtain ⟨e, herror, -⟩ | ⟨stored, draft, code, hstored, hdrafts, hcode, hrefs, hrun⟩ :=
    r.run_cases image
  · rw [herror] at h
    cases h
  · rw [hrun] at h ⊢
    exact ⟨stored, draft, code, hstored, hdrafts, hcode, hrefs, rfl, rfl, (Except.ok.inj h).symm⟩

/-- What a revision did that succeeded: `image'` is the image behind it, and
`b` the builder that made its pool. -/
structure Done (r : Revision) (image image' : Image) (b : Pool.Builder) : Prop where
  header : image'.header = image.header
  labels : image'.labels = image.labels
  codeBase : image'.codeBase = image.codeBase
  length_code : image'.code.length = image.code.length
  /-- Bytes outside the fields of the references stay. -/
  outside : ∀ i : Nat, (∀ reference ∈ r.refs, (i : Int) < reference ∨ reference + 2 ≤ i) →
    image'.code[i]? = image.code[i]?
  pool : image'.pool = b.value
  grows : (r.start image).builder.Grows b
  /-- References that need a string lead to theirs; the others hold what they
  held. -/
  references : ∀ reference ∈ r.refs, ∃ stored,
    image.resolveAt r.inputEncoding reference = .ok stored ∧
    if r.touches stored then
      ∃ (raw : Bytes) (p : Placement), r.meant? image stored = some raw ∧
        b.offset? raw = some p.offset ∧
        (r.allowOverflow = false → p.offset ≤ Placement.maxOffset) ∧
        p ∈ (r.run image).placements ∧
        image'.code.readUInt? reference 2 = some p.field
    else image'.code.readUInt? reference 2 = some stored.offset

/-- A revision of fields that do not overlap does all of that. -/
theorem exists_done_of_run {low high : Int} (hfields : FieldsIn low high r.refs) {report : Report}
    (h : (r.run image).result = .ok report) : ∃ b, Done r image (r.run image).image b := by
  obtain ⟨stored, draft, code, hstored, hdrafts, hcode, hpatched, himage, hplacements, -⟩ :=
    exists_drafts_of_run h
  rw [himage]
  have hrefs := Image.map_reference_of_storedTexts hstored
  obtain ⟨hgrows, -, hserves, hothers⟩ :=
    hdrafts.serves rfl (by rw [hrefs]; exact hfields.nodup)
  have hcode' : code = (patchAll image.code.toArray draft.patches.toList).1 := by rw [hcode]
  refine ⟨draft.builder, rfl, rfl, rfl, ?_, ?_, rfl, hgrows, ?_⟩
  · rw [Array.length_toList, hcode', size_patchAll, List.size_toArray]
  · intro i hi
    rw [Array.getElem?_toList, hcode', getElem?_patchAll fun p hp => hi p.1 (hpatched p hp),
      List.getElem?_toArray]
  · intro reference hreference
    obtain ⟨s, hs, rfl⟩ := List.mem_map.mp (hrefs ▸ hreference)
    have hresolve := Image.resolveAt_of_mem_storedTexts hstored hs
    refine ⟨s, hresolve, ?_⟩
    split
    · next htouched =>
      obtain ⟨raw, p, hraw, hoffset, hfits, hplaced, hpatch⟩ := hserves s hs htouched
      have hplaced' : p ∈ (r.run image).placements := by simpa [hplacements] using hplaced
      exact ⟨raw, p, hraw, hoffset, hfits, hplaced',
        readUInt?_of_patch hfields hpatched hcode hpatch⟩
    · next huntouched =>
      have hnone : draft.patches.get? s.reference = none := by
        rw [hothers s.reference fun s' hs' heq => ?_]
        · simp [start]
        · have hsame := Image.resolveAt_of_mem_storedTexts hstored hs'
          rw [heq, hresolve, Except.ok.injEq] at hsame
          rw [← hsame]
          exact Bool.eq_false_iff.mpr huntouched
      rw [readUInt?_of_not_patch hfields hpatched hcode hreference hnone]
      exact (Image.resolveAt_eq_ok hresolve).2.1

/-- A pool that is kept has the added strings behind it. -/
theorem Done.exists_pool_eq {image' : Image} {b : Pool.Builder} (h : Done r image image' b)
    (hmode : r.mode = .append) :
    ∃ bs, image'.pool = image.pool ++ bs := by
  have hstart : (r.start image).builder.Behind image.pool := by
    rw [start, hmode]
    exact Pool.Builder.behind_start ..
  obtain ⟨bs, hvalue, -⟩ := h.grows.behind _ hstart
  exact ⟨bs, by rw [h.pool, hvalue]⟩

/-- After a revision every reference leads into the pool. -/
theorem Done.exists_offset {image' : Image} {b : Pool.Builder} (h : Done r image image' b)
    {reference : Int} (hreference : reference ∈ r.refs) :
    ∃ offset, image'.code.readUInt? reference 2 = some offset ∧ offset < image'.pool.length := by
  obtain ⟨stored, hresolve, hholds⟩ := h.references reference hreference
  split at hholds
  · obtain ⟨raw, p, -, hoffset, -, -, hread⟩ := hholds
    refine ⟨p.field, hread, Nat.lt_of_le_of_lt (Nat.mod_le _ _) ?_⟩
    -- the terminator lies behind every string
    obtain ⟨before, behind, hvalue, hbefore⟩ :=
      (h.grows.behind _ (Pool.Builder.behind_start ..)).exists_split hoffset
    rw [h.pool, hvalue, h.grows.terminator, hbefore]
    simp only [start, Pool.Builder.start, Pool.terminator, List.length_append, List.length_cons]
    omega
  · next huntouched =>
    obtain ⟨bs, hpool⟩ := h.exists_pool_eq (of_not_touches huntouched).1
    have hlt := (Image.resolveAt_eq_ok hresolve).2.2
    exact ⟨stored.offset, hholds, by rw [hpool, List.length_append]; omega⟩

end Revision

end Scenario
