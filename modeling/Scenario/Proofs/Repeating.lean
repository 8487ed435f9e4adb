import Scenario.Proofs.Rereading
import Scenario.Proofs.Unedited

/-!
# Scenario.Proofs.Repeating

Revisions that are made again, on the image they left.

1. References that lead into a pool can be resolved if the bytes that they find
   have a text in their encoding (`Image.Reads`).  Otherwise the first that has
   none is what fails (`Revision.Unread`).
2. A reference that was left alone is left alone again
   (`Revision.Done.leaves_again`).  One that got a new text may now have it, or
   may read its bytes as another text and get it once more.  Either way it is to
   find the bytes it finds (`Revision.Done.meant?_again`).
3. So a new pool is made of the same strings in the same order
   (`Revision.Drafts.again`), and its patches put into the code what the code
   holds (`Revision.patchAll_of_held`).
4. In a pool that is kept, nothing is added for texts that are read back as
   themselves.

An empty string has a text whatever the encoding.  Once it got another, the
second revision has to decode the bytes of that one, and there are encodings
that refuse them (`Revision.run_again_needs_codec`).
-/

namespace Scenario

/-! ## patches that change nothing -/

/-- A field into which its own value is put stays as it is. -/
theorem Buffer.setWord_of_readWord? {b : Buffer} {offset : Nat} {value : Nat}
    (h : b.readWord? offset = some value) : b.setWord offset value = b := by
  rw [← @Array.toArray_toList _ b, readWord?_toArray, Bytes.readUInt?_word_iff] at h
  obtain ⟨low, high, hlow, hhigh, rfl⟩ := h
  rw [Array.getElem?_toList] at hlow hhigh
  have hbytes := Bytes.ofNat_word low high
  simp only [Bytes.ofNat, List.cons.injEq, and_true] at hbytes
  rw [setWord, hbytes.1, hbytes.2]
  apply Array.ext_getElem?
  intro i
  simp only [Array.getElem?_setIfInBounds]
  grind

/-- Patches that the code holds already leave it as it is. -/
theorem Revision.patchAll_of_held {code : Buffer} {patches : List (Int × Nat)}
    (h : ∀ p ∈ patches, code.readWord? p.1 = some p.2) :
    patchAll code patches = (code, .ok ()) := by
  induction patches with
  | nil => rfl
  | cons p patches ih =>
      obtain ⟨reference, value⟩ := p
      rw [List.forall_mem_cons] at h
      have hread := h.1
      rw [← @Array.toArray_toList _ code, Buffer.readWord?_toArray] at hread
      obtain ⟨h0, hlength⟩ := Bytes.inside_of_readUInt? hread
      obtain ⟨n, rfl⟩ := Int.eq_ofNat_of_zero_le h0
      obtain ⟨low, high, -, -, rfl⟩ := (Bytes.readUInt?_word_iff _ _ _).mp hread
      have hlt := Bytes.word_lt low high
      have hnone := (Buffer.patchFault?_eq_none_iff code.size n (Bytes.word low high)).mpr
        ⟨h0, hlength, by omega, by omega⟩
      rw [patchAll, hnone]
      dsimp only
      rw [Int.toNat_natCast, Buffer.setWord_of_readWord? h.1]
      exact ih h.2

/-! ## strings that can be read -/

/-- A reference finds bytes that have a text in the encoding. -/
def Image.Reads [Codecs] (image : Image) (encoding : String) (reference : Int) : Prop :=
  ∃ raw text, image.bytesAt? reference = some raw ∧ Pool.decodeText encoding raw = .ok text

namespace Revision

variable [Codecs] {r : Revision} {image image' : Image} {b : Pool.Builder} {reference : Int}

/-- What a revision that is made on an image fails with because a string cannot
be read: with the failure of the first such string. -/
def Unread (r : Revision) (image : Image) (e : Error) : Prop :=
  ∃ front reference behind raw, r.refs = front ++ reference :: behind ∧
    (∀ before ∈ front, image.Reads r.inputEncoding before) ∧
    image.bytesAt? reference = some raw ∧ Pool.decodeText r.inputEncoding raw = .error e

section Resolving

variable (hinside : ∀ reference ∈ r.refs,
  ∃ offset, image.code.readUInt? reference 2 = some offset ∧ offset < image.pool.length)

include hinside

/-- A reference into the pool resolves as the bytes that it finds decode. -/
theorem exists_resolveAt_eq (hreference : reference ∈ r.refs) :
    ∃ raw offset, image.bytesAt? reference = some raw ∧
      image.resolveAt r.inputEncoding reference =
        (Pool.decodeText r.inputEncoding raw).map fun text => ⟨reference, offset, text⟩ := by
  obtain ⟨offset, hread, hlt⟩ := hinside reference hreference
  exact ⟨_, offset, by rw [Image.bytesAt?, hread]; rfl, Image.resolveAt_eq hread hlt _⟩

/-- It resolves exactly if they have a text. -/
theorem exists_resolveAt_iff (hreference : reference ∈ r.refs) :
    (∃ stored, image.resolveAt r.inputEncoding reference = .ok stored) ↔
      image.Reads r.inputEncoding reference := by
  obtain ⟨raw, offset, hraw, hresolve⟩ := exists_resolveAt_eq hinside hreference
  rw [hresolve, Image.Reads, hraw]
  cases hdecode : Pool.decodeText r.inputEncoding raw <;> simp [Except.map, hdecode]

/-- References into the pool have texts if their strings can be read. -/
theorem exists_storedTexts_of_reads
    (h : ∀ reference ∈ r.refs, image.Reads r.inputEncoding reference) :
    ∃ stored, image.storedTexts r.refs r.inputEncoding = .ok stored := by
  rw [Image.storedTexts_eq_mapM]
  exact exists_mapM_eq_ok fun reference hreference =>
    (exists_resolveAt_iff hinside hreference).mpr (h reference hreference)

/-- If they have not, the first that cannot be read is why. -/
theorem unread_of_storedTexts {e : Error}
    (h : image.storedTexts r.refs r.inputEncoding = .error e) : r.Unread image e := by
  rw [Image.storedTexts_eq_mapM] at h
  obtain ⟨front, reference, behind, hsplit, hfront, herror⟩ := exists_split_of_mapM_eq_error h
  have hreference : reference ∈ r.refs := by simp [hsplit]
  obtain ⟨raw, offset, hraw, hresolve⟩ := exists_resolveAt_eq hinside hreference
  refine ⟨front, reference, behind, raw, hsplit, fun before hbefore => ?_, hraw, ?_⟩
  · exact (exists_resolveAt_iff hinside (by simp [hsplit, hbefore])).mp (hfront before hbefore)
  · rw [hresolve] at herror
    cases hdecode : Pool.decodeText r.inputEncoding raw with
    | ok text =>
        rw [hdecode] at herror
        cases herror
    | error cause =>
        rw [hdecode] at herror
        rw [Except.error.inj herror]

end Resolving

/-! ## what is meant the second time -/

/-- A reference that has the text given for it is left alone. -/
theorem leaves_of_textAt {text : String} (htext : image.textAt r.inputEncoding reference = .ok text)
    (hget : r.texts.get? reference = some text) : r.Leaves image reference := by
  obtain ⟨stored, hresolve, rfl⟩ := Image.textAt_eq_ok_iff.mp htext
  exact .inr ⟨stored, hresolve, hget⟩

/-- A reference that was left alone is left alone again, and has the text it
had. -/
theorem Done.leaves_again (h : Done r image image' b) (hoverflow : r.allowOverflow = false)
    (hend : r.mode = .append → image.pool.getLast? = some 0) (hreference : reference ∈ r.refs)
    (hleaves : r.Leaves image reference) :
    r.Leaves image' reference ∧ ∃ text, image'.textAt r.inputEncoding reference = .ok text := by
  obtain ⟨raw, text, -, -, hdecode, hbefore, hreads⟩ :=
    h.textAt_of_leaves (.inl hoverflow) hend hreference hleaves
  have hafter := (hreads r.inputEncoding).trans hdecode
  refine ⟨?_, text, hafter⟩
  rcases hleaves with hnone | ⟨stored, hresolve, hget⟩
  · exact .inl hnone
  · rw [Image.textAt_eq_ok_iff.mpr ⟨stored, hresolve, rfl⟩, Except.ok.injEq] at hbefore
    exact leaves_of_textAt hafter (hget.trans (congrArg some hbefore))

section Again

variable {stored stored' : Resolved} (h : Done r image image' b)
  (hoverflow : r.allowOverflow = false)
  (hend : r.mode = .append → image.pool.getLast? = some 0) (hreference : reference ∈ r.refs)
  (hstored : image.resolveAt r.inputEncoding reference = .ok stored)
  (hstored' : image'.resolveAt r.inputEncoding reference = .ok stored')

include h hoverflow hend hreference hstored hstored'

/-- A text that is new again was new before. -/
theorem Done.newText?_of_again {text : String} (hnew : r.newText? stored' = some text) :
    r.newText? stored = some text := by
  have hget := (newText?_eq_some_iff.mp hnew).1
  rw [(Image.resolveAt_eq_ok hstored').1] at hget
  rw [newText?_eq_some_iff, (Image.resolveAt_eq_ok hstored).1]
  refine ⟨hget, ?_⟩
  rintro rfl
  obtain ⟨hleaves, -⟩ := h.leaves_again hoverflow hend hreference (.inr ⟨stored, hstored, hget⟩)
  rw [hleaves.newText?_eq_none hstored'] at hnew
  cases hnew

/-- A reference is to find again what it was to find. -/
theorem Done.meant?_again (hzero : r.ZeroFree) :
    r.meant? image' stored' = r.meant? image stored := by
  obtain ⟨bs, hfound, hmeant⟩ := h.bytesAt?_eq hoverflow hzero hend hreference
  rw [meantAt?_of_resolveAt hstored] at hmeant
  rw [Image.bytesAt?, (Image.resolveAt_eq_ok hstored').2.1, Option.map_some] at hfound
  cases hnew : r.newText? stored' with
  | none => rw [hmeant, meant?, hnew, hfound]
  | some text =>
      have hbefore := h.newText?_of_again hoverflow hend hreference hstored hstored' hnew
      rw [meant?, meant?, hnew, hbefore]

end Again

/-! ## drafts made again -/

/-- A draft is made in the same way from any image in which the references are
to find the same. -/
theorem Drafts.again (hbase : image'.codeBase = image.codeBase) {draft draft' : Draft}
    {stored stored' : List Resolved} (h : Drafts r image draft stored draft')
    (hrefs : stored'.map Resolved.reference = stored.map Resolved.reference)
    (hsame : ∀ s ∈ stored, ∀ s' ∈ stored', s'.reference = s.reference →
      r.touches s' = r.touches s ∧ r.meant? image' s' = r.meant? image s) :
    Drafts r image' draft stored' draft' := by
  induction h generalizing stored' with
  | nil =>
      rw [List.map_nil, List.map_eq_nil_iff] at hrefs
      subst hrefs
      exact .nil
  | @keep draft draft' s stored huntouched rest ih =>
      obtain ⟨s', stored', rfl, hreference, hrefs⟩ := List.map_eq_cons_iff.mp hrefs
      obtain ⟨htouches, -⟩ := hsame s List.mem_cons_self s' List.mem_cons_self hreference
      exact .keep (htouches.trans huntouched) (ih hrefs fun t ht t' ht' =>
        hsame t (List.mem_cons_of_mem _ ht) t' (List.mem_cons_of_mem _ ht'))
  | @add draft draft' s stored raw b p htouched hraw hadd rest ih =>
      obtain ⟨s', stored', rfl, hreference, hrefs⟩ := List.map_eq_cons_iff.mp hrefs
      obtain ⟨htouches, hmeant⟩ := hsame s List.mem_cons_self s' List.mem_cons_self hreference
      have habsolute : image'.absolute s'.reference = image.absolute s.reference := by
        rw [Image.absolute, Image.absolute, hbase, hreference]
      refine .add (htouches.trans htouched) (hmeant.trans hraw) (habsolute ▸ hadd) ?_
      rw [hreference]
      exact ih hrefs fun t ht t' ht' =>
        hsame t (List.mem_cons_of_mem _ ht) t' (List.mem_cons_of_mem _ ht')

/-- A new pool is made again as it was made before, if the strings can be
read. -/
theorem run_again_of_rebuild {low high : Int} (hfields : FieldsIn low high r.refs)
    (hmode : r.mode = .rebuild) (hoverflow : r.allowOverflow = false) (hzero : r.ZeroFree)
    {report : Report} (h : (r.run image).result = .ok report) {stored' : List Resolved}
    (hstored' : (r.run image).image.storedTexts r.refs r.inputEncoding = .ok stored') :
    (r.run (r.run image).image).image = (r.run image).image ∧
      (r.run (r.run image).image).result = .ok { report with poolBefore := report.poolAfter } := by
  obtain ⟨b, hdone⟩ := exists_done_of_run hfields h
  obtain ⟨stored, draft, code, hstored, hdrafts, hcode, hpatched, himage, -, rfl⟩ :=
    exists_drafts_of_run h
  have hrefs := Image.map_reference_of_storedTexts hstored
  have hdrafts' : Drafts r (r.run image).image (r.start (r.run image).image) stored' draft := by
    have hstart : r.start (r.run image).image = r.start image := by rw [start, start, hmode]
    rw [hstart]
    refine hdrafts.again hdone.codeBase
      (by rw [hrefs, Image.map_reference_of_storedTexts hstored']) fun s hs s' hs' hreference => ?_
    have hmem : s.reference ∈ r.refs := hrefs ▸ List.mem_map_of_mem hs
    have hresolve' := Image.resolveAt_of_mem_storedTexts hstored' hs'
    rw [hreference] at hresolve'
    exact ⟨by simp [touches, hmode], hdone.meant?_again hoverflow (by simp [hmode]) hmem
      (Image.resolveAt_of_mem_storedTexts hstored hs) hresolve' hzero⟩
  have hheld : patchAll (r.run image).image.code.toArray draft.patches.toList =
      ((r.run image).image.code.toArray, .ok ()) := by
    refine patchAll_of_held fun p hp => ?_
    rw [Buffer.readWord?_toArray, himage]
    exact readUInt?_of_patch hfields hpatched hcode ((draft.patches.mem_toList_iff _ _).mp hp)
  rw [run_of_drafts hstored' hdrafts' hheld]
  refine ⟨?_, ?_⟩
  · rw [himage]
  · rw [himage]
    rfl

/-! ## texts that are read back -/

/-- The bytes of each text of a revision are read as that text. -/
def ReadsBack (r : Revision) : Prop :=
  ∀ pair ∈ r.texts.toList, ∀ raw, Encoding.bytesOf? r.outputEncoding pair.2 = some raw →
    Pool.decodeText r.inputEncoding raw = .ok pair.2

/-- If texts are read back, every reference is left alone the second time. -/
theorem Done.leaves_of_readsBack (h : Done r image image' b)
    (hoverflow : r.allowOverflow = false) (hzero : r.ZeroFree)
    (hend : r.mode = .append → image.pool.getLast? = some 0) (hback : r.ReadsBack)
    (hreference : reference ∈ r.refs) :
    r.Leaves image' reference ∧ ∃ text, image'.textAt r.inputEncoding reference = .ok text := by
  obtain ⟨stored, hresolve, -⟩ := h.references reference hreference
  cases hnew : r.newText? stored with
  | none =>
      exact h.leaves_again hoverflow hend hreference (leaves_of_newText?_eq_none hresolve hnew)
  | some text =>
      have hget := (newText?_eq_some_iff.mp hnew).1
      rw [(Image.resolveAt_eq_ok hresolve).1] at hget
      obtain ⟨raw, hfound, hmeant⟩ := h.bytesAt?_eq hoverflow hzero hend hreference
      rw [meantAt?_of_resolveAt hresolve, meant?, hnew] at hmeant
      obtain ⟨offset, hread, hlt⟩ := h.exists_offset hreference
      have htext : image'.textAt r.inputEncoding reference = .ok text := by
        rw [Image.textAt_of_bytesAt? hread hlt hfound]
        exact hback _ ((r.texts.mem_toList_iff _ _).mpr hget) raw hmeant
      exact ⟨leaves_of_textAt htext hget, text, htext⟩

/-- **Revisions made again** change nothing.

When the pool is made anew, the second revision makes the same pool and the
same patches, if the bytes that the references find have texts in the input
encoding; if not, it fails with what decoding the first of them fails with.
When the pool is kept, and texts are read back as themselves, the second
revision succeeds and patches nothing. -/
theorem repeats_of_run {dialect : Dialect} {encoding : String} {d : Decoded}
    (hd : image.decode dialect encoding = .ok d) (hrefs : r.refs = d.stringRefs)
    (hoverflow : r.allowOverflow = false) (hzero : r.ZeroFree) {report : Report}
    (h : (r.run image).result = .ok report) :
    (r.mode = .rebuild →
      (r.run (r.run image).image).image = (r.run image).image ∧
      ((∀ reference ∈ r.refs, (r.run image).image.Reads r.inputEncoding reference) →
        (r.run (r.run image).image).result = .ok { report with poolBefore := report.poolAfter }) ∧
      (¬(∀ reference ∈ r.refs, (r.run image).image.Reads r.inputEncoding reference) →
        ∃ e, r.Unread (r.run image).image e ∧ (r.run (r.run image).image).result = .error e)) ∧
    (r.mode = .append → image.pool.getLast? = some 0 → r.ReadsBack →
      (r.run (r.run image).image).image = (r.run image).image ∧
      ∃ report', (r.run (r.run image).image).result = .ok report' ∧ report'.patched = 0) := by
  have hfields : FieldsIn 0 d.consumed r.refs := hrefs ▸ Image.fieldsIn_of_decode hd
  obtain ⟨b, hdone⟩ := exists_done_of_run hfields h
  refine ⟨fun hmode => ?_, fun hmode hend hback => ?_⟩
  · have hinside : ∀ reference ∈ r.refs, ∃ offset,
        (r.run image).image.code.readUInt? reference 2 = some offset ∧
          offset < (r.run image).image.pool.length := fun _ => hdone.exists_offset
    cases hstored : (r.run image).image.storedTexts r.refs r.inputEncoding with
    | ok stored =>
        obtain ⟨himage, hresult⟩ := run_again_of_rebuild hfields hmode hoverflow hzero h hstored
        refine ⟨himage, fun _ => hresult, fun hnot => absurd (fun reference hreference => ?_) hnot⟩
        rw [Image.storedTexts_eq_mapM] at hstored
        obtain ⟨s, -, hresolve⟩ := exists_mem_of_mapM hstored hreference
        exact (exists_resolveAt_iff hinside hreference).mp ⟨s, hresolve⟩
    | error e =>
        have hresult : (r.run (r.run image).image).result = .error e := by rw [run, hstored]
        refine ⟨run_image_of_error hresult, fun hreads => ?_,
          fun _ => ⟨e, unread_of_storedTexts hinside hstored, hresult⟩⟩
        obtain ⟨stored, hok⟩ := exists_storedTexts_of_reads hinside hreads
        cases hstored.symm.trans hok
  · have hleaves : ∀ reference ∈ r.refs, r.Leaves (r.run image).image reference ∧
        ∃ text, (r.run image).image.textAt r.inputEncoding reference = .ok text :=
      fun _ => hdone.leaves_of_readsBack hoverflow hzero (fun _ => hend) hback
    have hstored : ∃ stored,
        (r.run image).image.storedTexts r.refs r.inputEncoding = .ok stored := by
      rw [Image.storedTexts_eq_mapM]
      refine exists_mapM_eq_ok fun reference hreference => ?_
      obtain ⟨-, text, htext⟩ := hleaves reference hreference
      obtain ⟨stored, hresolve, -⟩ := Image.textAt_eq_ok_iff.mp htext
      exact ⟨stored, hresolve⟩
    obtain ⟨stored, hstored⟩ := hstored
    exact run_of_append_of_leaves hmode
      (fun reference hreference => (hleaves reference hreference).1) hstored

end Revision

/-- A text for the first call of a file, and a letter for the second. -/
def Revision.lettered (mode : Mode) (text outputEncoding : String) : Revision :=
  ⟨mode, [2, 6], .ofList [(2, text), (6, "x")], "cp932", outputEncoding, false⟩

theorem Revision.snd_mem_lettered {mode : Mode} {text outputEncoding : String}
    {pair : Int × String}
    (h : pair ∈ (Revision.lettered mode text outputEncoding).texts.toList) :
    pair.2 ∈ [text, "x"] := by
  have htexts : (Revision.lettered mode text outputEncoding).texts.toList =
      [(2, text), (6, "x")] :=
    Ordered.toList_ofList_of_nodup (by simp)
  rw [htexts] at h
  exact List.mem_map_of_mem h (f := Prod.snd)

/-- A letter with an accent is not read back in another encoding, and is
therefore new again where the pool is made anew.  Katakana is read back in its
own. -/
theorem Revision.repeats_lettered :
    (∃ report image',
      ((Revision.lettered .rebuild "é" "latin-1").run Session.katakanaImage).result = .ok report ∧
      ((Revision.lettered .rebuild "é" "latin-1").run Session.katakanaImage).image = image' ∧
      image'.bytesAt? 2 = some [0xE9] ∧ image'.textAt "cp932" 2 ≠ .ok "é" ∧
      ((Revision.lettered .rebuild "é" "latin-1").run image').image = image' ∧
      ((Revision.lettered .rebuild "é" "latin-1").run image').result =
        .ok { report with poolBefore := report.poolAfter }) ∧
    ∃ report report' image',
      ((Revision.lettered .append "ｲ" "cp932").run Session.katakanaImage).result = .ok report ∧
      ((Revision.lettered .append "ｲ" "cp932").run Session.katakanaImage).image = image' ∧
      image'.bytesAt? 2 = some [0xB2] ∧
      ((Revision.lettered .append "ｲ" "cp932").run image').image = image' ∧
      ((Revision.lettered .append "ｲ" "cp932").run image').result = .ok report' ∧
      report'.patched = 0 := by
  obtain ⟨d, hd, hrefs⟩ := @Image.exists_decode_of_calls _ Session.katakanaImage .v0 "cp932"
    (Encoding.decodes_of_lenient rfl) [(0, 0), (2, 0)] rfl
    (by simp [Bytes.word, Session.katakanaImage])
  have hlatin : ∀ text ∈ ["é", "x"], ∀ raw, Encoding.bytesOf? "latin-1" text = some raw →
      (0 : UInt8) ∉ raw := by
    have haccent : Encoding.bytesOf? "latin-1" "é" = some [0xE9] := rfl
    have hletter : Encoding.bytesOf? "latin-1" "x" = some [0x78] := rfl
    simp [haccent, hletter]
  have hcp932 : ∀ text ∈ ["ｲ", "x"], ∀ raw, Encoding.bytesOf? "cp932" text = some raw →
      (0 : UInt8) ∉ raw ∧ Pool.decodeText "cp932" raw = .ok text := by
    have hkatakana : Encoding.bytesOf? "cp932" "ｲ" = some [0xB2] := rfl
    have hletter : Encoding.bytesOf? "cp932" "x" = some [0x78] := rfl
    have hback : Pool.decodeText "cp932" [0xB2] = .ok "ｲ" := rfl
    have hback' : Pool.decodeText "cp932" [0x78] = .ok "x" := rfl
    simp [hkatakana, hletter, hback, hback']
  have hzero : (Revision.lettered .rebuild "é" "latin-1").ZeroFree := fun pair hpair =>
    hlatin pair.2 (Revision.snd_mem_lettered hpair)
  have hzero' : (Revision.lettered .append "ｲ" "cp932").ZeroFree := fun pair hpair raw hraw =>
    (hcp932 pair.2 (Revision.snd_mem_lettered hpair) raw hraw).1
  obtain ⟨report, hrebuild⟩ : ∃ report, ((Revision.lettered .rebuild "é" "latin-1").run
      Session.katakanaImage).result = .ok report := ⟨_, rfl⟩
  obtain ⟨report', happend⟩ : ∃ report, ((Revision.lettered .append "ｲ" "cp932").run
      Session.katakanaImage).result = .ok report := ⟨_, rfl⟩
  obtain ⟨hagain, -⟩ := Revision.repeats_of_run hd hrefs.symm rfl hzero hrebuild
  obtain ⟨himage, hresult, -⟩ := hagain rfl
  obtain ⟨-, hagain'⟩ := Revision.repeats_of_run hd hrefs.symm rfl hzero' happend
  obtain ⟨himage', report'', hresult', hpatched⟩ := hagain' rfl rfl fun pair hpair raw hraw =>
    (hcp932 pair.2 (Revision.snd_mem_lettered hpair) raw hraw).2
  have hreads : ((Revision.lettered .rebuild "é" "latin-1").run
      Session.katakanaImage).image.textAt "cp932" 2 = .ok "\uFFFD" := rfl
  refine ⟨⟨report, _, hrebuild, rfl, rfl, ?_, himage, hresult fun reference hreference => ?_⟩,
    report', report'', _, happend, rfl, rfl, himage', hresult', hpatched⟩
  · rw [hreads]
    simp
  · simp only [Revision.lettered, List.mem_cons, List.not_mem_nil, or_false] at hreference
    rcases hreference with rfl | rfl
    · exact ⟨[0xE9], "\uFFFD", rfl, rfl⟩
    · exact ⟨[0x78], "x", rfl, rfl⟩

/-- A file with one call, of an empty string. -/
def Image.silentFile : Bytes := [
  0x00, 0x00, 0x00, 0x00, 0x00, 0x00, 0x05, 0x00, 0x00, 0x00, 0x00, 0x00,
  0x00, 0x00, 0x00, 0x00, 0x0D,
  0x00, 0x00]

/-- The image of that file. -/
def Image.silent : Image :=
  ⟨Image.silentFile.take 12, [], Code.ofCalls [(0, 0)], 12, [0x00, 0x00]⟩

/-- A text for the call, read in an encoding that refuses all bytes. -/
def Revision.unreadable : Revision :=
  ⟨.rebuild, [2], .ofList [(2, "x")], "idna", "cp932", false⟩

/-- An empty string is read in every encoding, and the text that took its place
is not: the revision succeeds once and fails when it is made again. -/
theorem Revision.run_again_needs_codec :
    ∃ image d report, Image.load Image.silentFile = .ok image ∧
      image.decode Version.v0.dialect "cp932" = .ok d ∧
      Revision.unreadable.refs = d.stringRefs ∧ Revision.unreadable.ZeroFree ∧
      (Revision.unreadable.run image).result = .ok report ∧
      (Revision.unreadable.run (Revision.unreadable.run image).image).result =
        .error (.codecFailed .decoding "idna" "Unsupported error handling replace") := by
  obtain ⟨d, hd, hrefs⟩ := @Image.exists_decode_of_calls _ .silent .v0 "cp932"
    (Encoding.decodes_of_lenient rfl) [(0, 0)] rfl (by simp [Bytes.word, Image.silent])
  have hzero : Revision.unreadable.ZeroFree := by
    have htexts : Revision.unreadable.texts.toList = [(2, "x")] :=
      Ordered.toList_ofList_of_nodup (by simp)
    have hbytes : Encoding.bytesOf? Revision.unreadable.outputEncoding "x" = some [0x78] := rfl
    simp [ZeroFree, htexts, hbytes]
  exact ⟨.silent, d, _, rfl, hd, hrefs.symm, hzero, rfl, rfl⟩

end Scenario
