import Scenario.Proofs.Revising
import Scenario.Proofs.Writing

/-!
# Scenario.Proofs.Readback

What references find after a revision.

A reference with a new text finds the bytes of that text, and any other finds
the bytes it found before.  Both ways of putting texts back do this, so they
cannot be told apart by following references.  Three things could come
between:

* a text with a zero byte in it would be cut short;
* an offset stored modulo 65536 would lead elsewhere;
* behind a pool whose last string has no terminator, added strings would go on
  where that string ends.
-/

namespace Scenario

/-- The bytes that the reference at a position of the code finds. -/
def Image.bytesAt? (image : Image) (reference : Int) : Option Bytes :=
  (image.code.readUInt? reference 2).map fun offset : Nat => Pool.stringAt image.pool offset

namespace Revision

/-- The bytes that the reference at a position of the code is to find. -/
def meantAt? [Codecs] (r : Revision) (image : Image) (reference : Int) : Option Bytes :=
  (image.resolveAt r.inputEncoding reference).toOption.bind (r.meant? image)

/-- The same change of texts, put back in another way. -/
def inMode (r : Revision) (mode : Mode) : Revision := { r with mode }

/-- No text of a revision has a zero byte. -/
def ZeroFree [Codecs] (r : Revision) : Prop :=
  ∀ pair ∈ r.texts.toList, ∀ raw, Encoding.bytesOf? r.outputEncoding pair.2 = some raw →
    (0 : UInt8) ∉ raw

variable [Codecs] {r : Revision} {image image' : Image} {b : Pool.Builder}

/-- What a position is to find is what its stored text is to find. -/
theorem meantAt?_of_resolveAt {reference : Int} {stored : Resolved}
    (h : image.resolveAt r.inputEncoding reference = .ok stored) :
    r.meantAt? image reference = r.meant? image stored := by
  rw [meantAt?, h]
  rfl

/-- What a reference is to find has no zero byte. -/
theorem ZeroFree.notMem_of_meant? (hzero : r.ZeroFree) {stored : Resolved} {raw : Bytes}
    (h : r.meant? image stored = some raw) : (0 : UInt8) ∉ raw := by
  rw [meant?] at h
  split at h
  · next text hnew =>
    have htext := (newText?_eq_some_iff.mp hnew).1
    exact hzero _ ((r.texts.mem_toList_iff _ _).mpr htext) raw h
  · rw [← Option.some.inj h]
    exact Pool.zero_notMem_stringAt _ _

/-- A string of a finished pool is found at its offset, up to its first zero
byte. -/
theorem Done.stringAt_offset (h : Done r image image' b) {raw : Bytes} {offset : Nat}
    (hoffset : b.offset? raw = some offset) :
    Pool.stringAt image'.pool offset = raw.takeWhile (· != 0) := by
  obtain ⟨before, behind, hvalue, rfl⟩ :=
    (h.grows.behind _ (Pool.Builder.behind_start ..)).exists_split hoffset
  rw [h.pool, hvalue, h.grows.terminator, List.append_assoc raw]
  exact Pool.stringAt_append_terminated before raw (0 :: behind)

/-- A string without a zero byte is found whole. -/
theorem Done.stringAt_pool (h : Done r image image' b) {raw : Bytes} (hzero : (0 : UInt8) ∉ raw)
    {offset : Nat} (hoffset : b.offset? raw = some offset) :
    Pool.stringAt image'.pool offset = raw := by
  rw [h.stringAt_offset hoffset, List.takeWhile_eq_self_iff]
  exact fun b hb => bne_iff_ne.mpr fun h0 => hzero (h0 ▸ hb)

/-- Every reference finds what it is to find. -/
theorem Done.bytesAt?_eq (h : Done r image image' b) (hoverflow : r.allowOverflow = false)
    (hzero : r.ZeroFree) (hend : r.mode = .append → image.pool.getLast? = some 0) {reference : Int}
    (hreference : reference ∈ r.refs) :
    ∃ bs, image'.bytesAt? reference = some bs ∧ r.meantAt? image reference = some bs := by
  obtain ⟨stored, hresolve, hholds⟩ := h.references reference hreference
  rw [meantAt?_of_resolveAt hresolve, Image.bytesAt?]
  split at hholds
  · obtain ⟨raw, p, hraw, hoffset, hfits, -, hread⟩ := hholds
    have hfield : p.field = p.offset := Nat.mod_eq_of_lt (Nat.lt_succ_of_le (hfits hoverflow))
    refine ⟨raw, ?_, hraw⟩
    rw [hread, hfield, Option.map_some, h.stringAt_pool (hzero.notMem_of_meant? hraw) hoffset]
  · next huntouched =>
    -- the pool is kept and the reference has no new text
    obtain ⟨hmode, hnew⟩ := of_not_touches huntouched
    obtain ⟨bs, hpool⟩ := h.exists_pool_eq hmode
    refine ⟨Pool.stringAt image.pool stored.offset, ?_, by rw [meant?, hnew]⟩
    rw [hholds, Option.map_some, hpool,
      Pool.stringAt_append (hend hmode) bs (Image.resolveAt_eq_ok hresolve).2.2]

/-- A revision makes the references of a decoded image find what they are to
find. -/
theorem exists_bytesAt?_of_run {dialect : Dialect} {encoding : String} {d : Decoded}
    (hd : image.decode dialect encoding = .ok d) (hrefs : r.refs = d.stringRefs)
    (hoverflow : r.allowOverflow = false) (hzero : r.ZeroFree) {report : Report}
    (h : (r.run image).result = .ok report)
    (hend : r.mode = .append → image.pool.getLast? = some 0) {reference : Int}
    (hreference : reference ∈ d.stringRefs) :
    ∃ bs, (r.run image).image.bytesAt? reference = some bs ∧
      r.meantAt? image reference = some bs := by
  have hfields : FieldsIn 0 d.consumed r.refs := hrefs ▸ Image.fieldsIn_of_decode hd
  obtain ⟨b, hdone⟩ := exists_done_of_run hfields h
  exact hdone.bytesAt?_eq hoverflow hzero hend (hrefs ▸ hreference)

/-- **Both ways of putting texts back do what is meant**: each reference finds
the bytes of its new text, or those it found before.  Hence both make all
references find the same. -/
theorem readback_of_run (r : Revision) {dialect : Dialect} {encoding : String} {d : Decoded}
    (hd : image.decode dialect encoding = .ok d) (hrefs : r.refs = d.stringRefs)
    (hoverflow : r.allowOverflow = false) (hzero : r.ZeroFree) :
    (∀ mode report, ((r.inMode mode).run image).result = .ok report →
      (mode = .append → image.pool.getLast? = some 0) →
      ∀ reference ∈ d.stringRefs, ∃ bs,
        ((r.inMode mode).run image).image.bytesAt? reference = some bs ∧
        r.meantAt? image reference = some bs) ∧
    (image.pool.getLast? = some 0 → ∀ report report',
      ((r.inMode .append).run image).result = .ok report →
      ((r.inMode .rebuild).run image).result = .ok report' →
      ∀ reference ∈ d.stringRefs,
        ((r.inMode .append).run image).image.bytesAt? reference =
          ((r.inMode .rebuild).run image).image.bytesAt? reference) := by
  refine ⟨fun mode report hok hend reference hreference =>
    exists_bytesAt?_of_run (r := r.inMode mode) hd hrefs hoverflow hzero hok hend hreference,
    fun hend report report' happend hrebuild reference hreference => ?_⟩
  obtain ⟨bs, hread, hmeant⟩ := exists_bytesAt?_of_run (r := r.inMode .append) hd hrefs hoverflow
    hzero happend (fun _ => hend) hreference
  obtain ⟨bs', hread', hmeant'⟩ := exists_bytesAt?_of_run (r := r.inMode .rebuild) hd hrefs
    hoverflow hzero hrebuild nofun hreference
  -- what is meant does not depend on the mode
  have hsame : some bs = some bs' := hmeant.symm.trans hmeant'
  rw [hread, hread', hsame]

end Revision

/-- Three calls with strings, of which the second begins inside the first. -/
def Image.nested : Image :=
  { header := []
    labels := []
    code := [
      0x00, 0x00, 0x00, 0x00,
      0x00, 0x00, 0x01, 0x00,
      0x00, 0x00, 0x00, 0x00,
      0x0D]
    codeBase := 12
    pool := [0x41, 0x42, 0x00] }

/-- A new text for the first call, and for the last the text it has. -/
def Revision.sample : Revision :=
  { mode := .append
    refs := [2, 6, 10]
    texts := .ofList [(2, "XY"), (10, "AB")]
    inputEncoding := "ascii"
    outputEncoding := "ascii"
    allowOverflow := false }

theorem Revision.readback_sample :
    (∃ report, ((Revision.sample.inMode .append).run .nested).result = .ok report) ∧
      (∃ report, ((Revision.sample.inMode .rebuild).run .nested).result = .ok report) ∧
      ((Revision.sample.inMode .append).run .nested).image.bytesAt? 2 = some [0x58, 0x59] ∧
      ∀ reference ∈ [2, 6, 10],
        ((Revision.sample.inMode .append).run .nested).image.bytesAt? reference =
          ((Revision.sample.inMode .rebuild).run .nested).image.bytesAt? reference := by
  have hd : (Image.nested.decode Dialect.sample "ascii").toOption.map Decoded.stringRefs =
      some [2, 6, 10] := by
    decide +kernel
  have hresult : ∀ mode : Mode, (((Revision.sample.inMode mode).run .nested).result).toOption.map
      Report.references = some 3 := by
    intro mode
    cases mode <;> decide +kernel
  have hzero : Revision.sample.ZeroFree := by
    have htexts : Revision.sample.texts.toList = [(2, "XY"), (10, "AB")] := by decide +kernel
    have hbytes : ∀ text ∈ ["XY", "AB"], ∀ raw ∈ Encoding.bytesOf? "ascii" text,
        (0 : UInt8) ∉ raw := by
      decide +kernel
    rintro pair hpair raw hraw
    rw [htexts] at hpair
    exact hbytes pair.2 (by simpa using List.mem_map_of_mem hpair (f := Prod.snd)) raw hraw
  obtain ⟨d, hd, hrefs⟩ := exists_ok_of_map_toOption hd
  obtain ⟨report, happend, -⟩ := exists_ok_of_map_toOption (hresult .append)
  obtain ⟨report', hrebuild, -⟩ := exists_ok_of_map_toOption (hresult .rebuild)
  obtain ⟨hmeant, hagree⟩ := Revision.readback_of_run .sample hd hrefs.symm rfl hzero
  rw [hrefs] at hmeant hagree
  refine ⟨⟨report, happend⟩, ⟨report', hrebuild⟩, ?_, hagree rfl report report' happend hrebuild⟩
  obtain ⟨bs, hread, hbs⟩ := hmeant .append report happend (fun _ => rfl) 2 (by simp)
  have hnew : Revision.sample.meantAt? .nested 2 = some [0x58, 0x59] := by decide +kernel
  rw [hread, ← hbs, hnew]

end Scenario
