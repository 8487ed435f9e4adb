import Scenario.Proofs.Calls
import Scenario.Proofs.Readback

/-!
# Scenario.Proofs.Untouched

Strings that a revision has no new text for.

When the pool is kept, a reference without a new text keeps its offset, and
the offsets of the pool keep their bytes, but strings are read up to a zero
byte and the added ones lie directly behind the pool.  So a string finds its
bytes again exactly if its terminator lies in the pool, or the first string
added is empty (`Revision.kept_iff_of_append`).  The last string of a pool may
lack its terminator, and then it is continued
(`Revision.append_continues_unended`).
-/

namespace Scenario

/-- A string of a pool with bytes behind it is the string of the pool exactly
if it has its terminator or nothing goes on behind the pool. -/
theorem Pool.stringAt_append_eq_iff (pool behind : Bytes) {offset : Nat}
    (h : offset < pool.length) :
    stringAt (pool ++ behind) offset = stringAt pool offset ↔
      (0 : UInt8) ∈ pool.drop offset ∨ stringAt (pool ++ behind) pool.length = [] := by
  by_cases hmem : (0 : UInt8) ∈ pool.drop offset
  · simp [hmem, stringAt_append_of_mem hmem]
  · rw [stringAt_append_of_notMem (Nat.le_of_lt h) hmem]
    simp [hmem]

namespace Revision

/-- A reference that a revision leaves alone: it has no text, or the one it has
already. -/
def Leaves [Codecs] (r : Revision) (image : Image) (reference : Int) : Prop :=
  r.texts.get? reference = none ∨
    ∃ stored, image.resolveAt r.inputEncoding reference = .ok stored ∧
      r.texts.get? reference = some stored.text

variable [Codecs] {r : Revision} {image image' : Image} {b : Pool.Builder} {reference : Int}

/-- A reference that is left alone has no new text. -/
theorem Leaves.newText?_eq_none (h : r.Leaves image reference) {stored : Resolved}
    (hresolve : image.resolveAt r.inputEncoding reference = .ok stored) :
    r.newText? stored = none := by
  have hreference := (Image.resolveAt_eq_ok hresolve).1
  rw [newText?, hreference]
  rcases h with hnone | ⟨stored', hresolve', hsame⟩
  · rw [hnone]
  · rw [hresolve, Except.ok.injEq] at hresolve'
    rw [hsame, hresolve']
    simp

/-- A reference that has no new text is left alone. -/
theorem leaves_of_newText?_eq_none {stored : Resolved}
    (hresolve : image.resolveAt r.inputEncoding reference = .ok stored)
    (h : r.newText? stored = none) : r.Leaves image reference := by
  cases hget : r.texts.get? reference with
  | none => exact .inl hget
  | some text =>
      refine .inr ⟨stored, hresolve, hget.trans (congrArg some ?_)⟩
      by_contra hne
      rw [newText?_eq_some_iff.mpr ⟨(Image.resolveAt_eq_ok hresolve).1 ▸ hget, hne⟩] at h
      cases h

/-- In a pool that is kept, a reference that is left alone keeps its offset. -/
theorem Done.exists_offset_of_leaves (h : Done r image image' b) (hmode : r.mode = .append)
    (hreference : reference ∈ r.refs) (hleaves : r.Leaves image reference) :
    ∃ offset < image.pool.length, image.code.readUInt? reference 2 = some offset ∧
      image'.code.readUInt? reference 2 = some offset := by
  obtain ⟨stored, hresolve, hholds⟩ := h.references reference hreference
  have huntouched : r.touches stored = false := by
    simp [touches, hmode, hleaves.newText?_eq_none hresolve]
  obtain ⟨-, hread, hlt⟩ := Image.resolveAt_eq_ok hresolve
  rw [huntouched] at hholds
  exact ⟨stored.offset, hlt, hread, hholds⟩

/-- **Strings of a pool that is kept**: each offset finds its bytes again
exactly if the string there has its terminator or the first string added is
empty, and a reference that is left alone keeps its offset, so that it finds
its bytes again under the same condition. -/
theorem kept_iff_of_append {dialect : Dialect} {encoding : String} {d : Decoded}
    (hd : image.decode dialect encoding = .ok d) (hrefs : r.refs = d.stringRefs)
    (hmode : r.mode = .append) {report : Report} (h : (r.run image).result = .ok report) :
    (∀ offset < image.pool.length,
      Pool.stringAt (r.run image).image.pool offset = Pool.stringAt image.pool offset ↔
        (0 : UInt8) ∈ image.pool.drop offset ∨
          Pool.stringAt (r.run image).image.pool image.pool.length = []) ∧
    ∀ reference ∈ d.stringRefs, r.Leaves image reference →
      ∃ offset < image.pool.length, image.code.readUInt? reference 2 = some offset ∧
        (r.run image).image.code.readUInt? reference 2 = some offset ∧
        ((r.run image).image.bytesAt? reference = image.bytesAt? reference ↔
          (0 : UInt8) ∈ image.pool.drop offset ∨
            Pool.stringAt (r.run image).image.pool image.pool.length = []) := by
  have hfields : FieldsIn 0 d.consumed r.refs := hrefs ▸ Image.fieldsIn_of_decode hd
  obtain ⟨b, hdone⟩ := exists_done_of_run hfields h
  obtain ⟨bs, hpool⟩ := hdone.exists_pool_eq hmode
  have hoffsets : ∀ offset < image.pool.length,
      Pool.stringAt (r.run image).image.pool offset = Pool.stringAt image.pool offset ↔
        (0 : UInt8) ∈ image.pool.drop offset ∨
          Pool.stringAt (r.run image).image.pool image.pool.length = [] := by
    intro offset hlt
    rw [hpool]
    exact Pool.stringAt_append_eq_iff image.pool bs hlt
  refine ⟨hoffsets, fun reference hreference hleaves => ?_⟩
  obtain ⟨offset, hlt, hread, hread'⟩ :=
    hdone.exists_offset_of_leaves hmode (hrefs ▸ hreference) hleaves
  refine ⟨offset, hlt, hread, hread', ?_⟩
  rw [Image.bytesAt?, Image.bytesAt?, hread, hread', Option.map_some, Option.map_some,
    Option.some.injEq]
  exact hoffsets offset hlt

end Revision

/-- Two calls, the second with a string that ends with the pool. -/
def Image.halfEnded : Image :=
  { header := []
    labels := []
    code := Code.ofCalls [(0, 0), (3, 0)]
    codeBase := 12
    pool := [0x41, 0x42, 0x00, 0x43] }

/-- A new text for the first call of two. -/
def Revision.first : Revision :=
  { mode := .append
    refs := [2, 6]
    texts := .ofList [(2, "X")]
    inputEncoding := "cp932"
    outputEncoding := "cp932"
    allowOverflow := false }

theorem Revision.kept_sample :
    (∃ report, (Revision.first.run .halfEnded).result = .ok report) ∧
      Revision.first.Leaves .halfEnded 6 ∧
      Pool.stringAt (Revision.first.run .halfEnded).image.pool 1 = [0x42] ∧
      Pool.stringAt (Revision.first.run .halfEnded).image.pool 3 ≠ [0x43] ∧
      (Revision.first.run .halfEnded).image.bytesAt? 6 ≠ Image.halfEnded.bytesAt? 6 := by
  obtain ⟨d, hd, hrefs⟩ := @Image.exists_decode_of_calls _ .halfEnded .v0 "cp932"
    (Encoding.decodes_of_lenient rfl) [(0, 0), (3, 0)] rfl (by simp [Bytes.word, Image.halfEnded])
  have hresult : (Revision.first.run .halfEnded).result.toOption.map Report.references =
      some 2 := by
    decide +kernel
  obtain ⟨report, hreport, -⟩ := exists_ok_of_map_toOption hresult
  have hleaves : Revision.first.Leaves .halfEnded 6 := .inl (by decide +kernel)
  -- the last string has no terminator, and the new text is not empty
  have hgoesOn : ¬ ((0 : UInt8) ∈ Image.halfEnded.pool.drop 3 ∨
      Pool.stringAt (Revision.first.run .halfEnded).image.pool Image.halfEnded.pool.length = []) := by
    decide +kernel
  obtain ⟨hoffsets, hreferences⟩ := Revision.kept_iff_of_append hd hrefs.symm rfl hreport
  obtain ⟨offset, -, hread, -, hiff⟩ := hreferences 6 (by rw [hrefs]; decide) hleaves
  have hthree : Image.halfEnded.code.readUInt? 6 2 = some 3 := by decide +kernel
  obtain rfl : 3 = offset := Option.some.inj (hthree.symm.trans hread)
  exact ⟨⟨report, hreport⟩, hleaves, (hoffsets 1 (by decide)).mpr (.inl (by decide)),
    fun hsame => hgoesOn ((hoffsets 3 (by decide)).mp hsame), fun hsame => hgoesOn (hiff.mp hsame)⟩

/-- A file with two calls, both with the one string of a pool that has no
terminator. -/
def Image.unendedFile : Bytes := [
  0x00, 0x00, 0x00, 0x00, 0x00, 0x00, 0x09, 0x00, 0x00, 0x00, 0x00, 0x00,
  0x00, 0x00, 0x00, 0x00, 0x00, 0x00, 0x00, 0x00, 0x0D,
  0x41, 0x42]

/-- A string without a terminator is continued by the string added behind it,
although the reference to it was left alone. -/
theorem Revision.append_continues_unended :
    ∃ image d report, Image.load Image.unendedFile = .ok image ∧
      image.decode Version.v0.dialect "cp932" = .ok d ∧ Revision.first.refs = d.stringRefs ∧
      (Revision.first.run image).result = .ok report ∧
      (∀ p ∈ (Revision.first.run image).placements, p.wraps = false) ∧
      Revision.first.Leaves image 6 ∧ image.bytesAt? 6 = some [0x41, 0x42] ∧
      (Revision.first.run image).image.bytesAt? 6 = some [0x41, 0x42, 0x58] := by
  let image : Image := ⟨Image.unendedFile.take 12, [], Code.ofCalls [(0, 0), (0, 0)], 12,
    [0x41, 0x42]⟩
  obtain ⟨d, hd, hrefs⟩ := @Image.exists_decode_of_calls _ image .v0 "cp932"
    (Encoding.decodes_of_lenient rfl) [(0, 0), (0, 0)] rfl (by simp [Bytes.word, image])
  have hresult : (Revision.first.run image).result.toOption.map Report.references = some 2 := by
    decide +kernel
  obtain ⟨report, hreport, -⟩ := exists_ok_of_map_toOption hresult
  refine ⟨image, d, report, rfl, hd, hrefs.symm, hreport, ?_, .inl ?_, ?_, ?_⟩ <;> decide +kernel

end Scenario
