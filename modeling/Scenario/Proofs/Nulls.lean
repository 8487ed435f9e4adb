import Scenario.Proofs.Lines
import Scenario.Proofs.Rereading

/-!
# Scenario.Proofs.Nulls

Texts with null characters in them.

1. Strings of a pool end at a zero byte, and a revision takes any text that has
   bytes.  A reference with a new text therefore finds its bytes up to the first
   zero byte, and all of them exactly if there is none
   (`Revision.bytesAt?_of_run`).  The rest is written, but no reference leads to
   it (`Revision.run_cuts_at_null`).
2. Many codecs write a text character by character, the null character as a zero
   byte and any other without one (`Encoding.Charwise`), among them those that
   are there on every system (`Encoding.marksNulls`).  Not all: in UTF-16 the
   letters of ASCII have a zero byte each.
3. There the bytes of a text up to the first zero byte are those of the text up
   to its first null character (`Encoding.Charwise.takeWhile`), and so that is
   what the reference finds.
-/

namespace Scenario

namespace Encoding

/-! ## zero bytes of characters -/

theorem ofNat_ne_zero {n : Nat} (h0 : 0 < n) (h : n < 256) : UInt8.ofNat n ≠ 0 := by
  intro heq
  have hn := congrArg UInt8.toNat heq
  rw [UInt8.toNat_ofNat_of_lt' h] at hn
  exact absurd hn (by simpa using Nat.ne_of_gt h0)

theorem toNat_pos {c : Char} (h : c ≠ '\x00') : 0 < c.toNat :=
  Nat.pos_of_ne_zero fun h0 => h (Char.toNat_inj.mp h0)

theorem utf8EncodeChar_ne_zero {c : Char} (h : c ≠ '\x00') :
    ∀ b ∈ String.utf8EncodeChar c, b ≠ 0 := by
  have hpos : 0 < c.val.toNat := toNat_pos h
  -- only a sequence of one byte is not marked in its high bits
  rw [String.utf8EncodeChar]
  split
  · simp only [List.forall_mem_cons]
    exact ⟨ofNat_ne_zero hpos (by omega), nofun⟩
  · split
    · simp only [List.forall_mem_cons]
      exact ⟨ofNat_ne_zero (by omega) (by omega), ofNat_ne_zero (by omega) (by omega), nofun⟩
    · split
      · simp only [List.forall_mem_cons]
        exact ⟨ofNat_ne_zero (by omega) (by omega), ofNat_ne_zero (by omega) (by omega),
          ofNat_ne_zero (by omega) (by omega), nofun⟩
      · simp only [List.forall_mem_cons]
        exact ⟨ofNat_ne_zero (by omega) (by omega), ofNat_ne_zero (by omega) (by omega),
          ofNat_ne_zero (by omega) (by omega), ofNat_ne_zero (by omega) (by omega), nofun⟩

namespace Cp932

theorem trailByte_ne_zero {index : Nat} (h : index < 188) : trailByte index ≠ 0 := by
  rw [trailByte]
  split
  · exact ofNat_ne_zero (by omega) (by omega)
  · exact ofNat_ne_zero (by omega) (by omega)

/-- A row that has a lead byte, and no more characters than there are trail
bytes. -/
def RowFits (row : UInt8 × String) : Prop := row.1 ≠ 0 ∧ row.2.toList.length ≤ 188

theorem rowFits_ofList {lead : UInt8} {cs : List Char} (hlead : lead ≠ 0)
    (h : cs.length ≤ 188) : RowFits (lead, String.ofList cs) := by
  rw [RowFits, String.toList_ofList]
  exact ⟨hlead, h⟩

/-- All rows of the table are such. -/
theorem rowFits_of_mem_table : ∀ row ∈ table, RowFits row := by
  unfold table
  -- a text is unified with the list of its characters, which can be counted
  repeat
    rw [List.forall_mem_cons]
    constructor
    · apply rowFits_ofList <;> decide +kernel
  exact nofun

theorem ne_zero_of_mem_codes {c : Char} {code : Bytes} (h : (c, code) ∈ codes) :
    ∀ b ∈ code, b ≠ 0 := by
  obtain ⟨⟨lead, row⟩, hrow, hcode⟩ := List.mem_flatMap.mp h
  obtain ⟨⟨c', index⟩, hindex, heq⟩ := List.mem_map.mp hcode
  obtain ⟨⟨lead', text⟩, htext, hsame⟩ := List.mem_map.mp hrow
  obtain ⟨rfl, rfl⟩ := Prod.mk.inj hsame
  obtain ⟨-, rfl⟩ := Prod.mk.inj heq
  obtain ⟨hlead, hlength⟩ := rowFits_of_mem_table _ htext
  have hlt : index < 188 := by
    obtain ⟨-, hindex, -⟩ := List.mem_zipIdx hindex
    rw [Nat.zero_add] at hindex
    exact Nat.lt_of_lt_of_le hindex hlength
  simp only [List.forall_mem_cons]
  exact ⟨hlead, trailByte_ne_zero hlt, nofun⟩

theorem encodeChar?_ne_zero {c : Char} {bs : Bytes} (h : encodeChar? c = some bs)
    (hc : c ≠ '\x00') : ∀ b ∈ bs, b ≠ 0 := by
  have hpos := toNat_pos hc
  have hone : ∀ {n : Nat}, 0 < n → n < 256 → ∀ b ∈ [UInt8.ofNat n], b ≠ 0 := by
    intro n h0 h b hb
    rw [List.mem_singleton.mp hb]
    exact ofNat_ne_zero h0 h
  rw [encodeChar?] at h
  split at h
  · rw [← Option.some.inj h]
    exact hone hpos (by omega)
  split at h
  · rw [← Option.some.inj h]
    exact hone (by omega) (by omega)
  split at h
  · rw [← Option.some.inj h]
    simp
  split at h
  · rw [← Option.some.inj h]
    exact hone (by omega) (by omega)
  split at h
  · rw [← Option.some.inj h]
    simp only [List.forall_mem_cons]
    exact ⟨ofNat_ne_zero (by omega) (by omega), trailByte_ne_zero (by omega), nofun⟩
  split at h
  · next lead trail hlook =>
    have hall : ∀ entry ∈ lookAlikes, entry.2.1 ≠ 0 ∧ entry.2.2 ≠ 0 := by simp [lookAlikes]
    obtain ⟨before, behind, hsplit, -⟩ := List.lookup_eq_some_iff.mp hlook
    obtain ⟨hlead, htrail⟩ := hall (c.toNat, lead, trail) (by rw [hsplit]; simp)
    rw [← Option.some.inj h]
    simp only [List.forall_mem_cons]
    exact ⟨hlead, htrail, nofun⟩
  · rw [getElem?_codeTable] at h
    obtain ⟨before, behind, hsplit, -⟩ := List.lookup_eq_some_iff.mp h
    exact ne_zero_of_mem_codes (c := c) (by rw [hsplit]; simp)

end Cp932

/-! ## texts, character by character -/

/-- Texts are written character by character, the null character as a zero byte
and any other without one. -/
structure Charwise (encode? : String → Option Bytes) (charBytes? : Char → Option Bytes) :
    Prop where
  nil : encode? (String.ofList []) = some []
  cons : ∀ c cs, encode? (String.ofList (c :: cs)) =
    (charBytes? c).bind fun first => (encode? (String.ofList cs)).map (first ++ ·)
  null : charBytes? '\x00' = some [0]
  ne_zero : ∀ {c bs}, charBytes? c = some bs → c ≠ '\x00' → ∀ b ∈ bs, b ≠ 0

theorem charwise_cp932 : Charwise (fun s => Cp932.encode? s.toList) Cp932.encodeChar? where
  nil := by simp [Cp932.encode?]
  cons c cs := by
    simp only [Cp932.encode?, String.toList_ofList, List.mapM_cons]
    cases Cp932.encodeChar? c with
    | none => rfl
    | some first => cases cs.mapM Cp932.encodeChar? <;> rfl
  null := rfl
  ne_zero := Cp932.encodeChar?_ne_zero

theorem utf8_encode_ofList (cs : List Char) :
    Utf8.encode (String.ofList cs) = cs.flatMap String.utf8EncodeChar := by
  rw [Utf8.encode, String.toUTF8_eq_toByteArray, String.toByteArray_ofList, List.utf8Encode,
    List.data_toByteArray]

theorem charwise_utf8 :
    Charwise (fun s => some (Utf8.encode s)) fun c => some (String.utf8EncodeChar c) where
  nil := by rw [utf8_encode_ofList, List.flatMap_nil]
  cons c cs := by
    rw [utf8_encode_ofList, utf8_encode_ofList, List.flatMap_cons]
    rfl
  null := rfl
  ne_zero h hc := by
    rw [← Option.some.inj h]
    exact utf8EncodeChar_ne_zero hc

theorem charwise_below {bound : Nat} (hpos : 0 < bound) (hbound : bound ≤ 256) :
    Charwise (encodeBelow? bound) fun c =>
      if c.toNat < bound then some [UInt8.ofNat c.toNat] else none where
  nil := by simp [encodeBelow?]
  cons c cs := by
    simp only [encodeBelow?, String.toList_ofList, List.all_cons]
    by_cases hc : c.toNat < bound
    · cases cs.all fun c => decide (c.toNat < bound) <;> simp [hc]
    · simp [hc]
  null := if_pos hpos
  ne_zero h hc := by
    split at h
    · rw [← Option.some.inj h]
      simp only [List.forall_mem_cons]
      exact ⟨ofNat_ne_zero (toNat_pos hc) (by omega), nofun⟩
    · cases h

namespace Charwise

variable {encode? : String → Option Bytes} {charBytes? : Char → Option Bytes} {cs : List Char}
  {raw : Bytes} (hchars : Charwise encode? charBytes?)
include hchars

/-- What the first character and the others of a text are written as. -/
theorem exists_of_cons {c : Char} (h : encode? (String.ofList (c :: cs)) = some raw) :
    ∃ first rest, charBytes? c = some first ∧ encode? (String.ofList cs) = some rest ∧
      raw = first ++ rest := by
  rw [hchars.cons] at h
  obtain ⟨first, hfirst, h⟩ := Option.bind_eq_some_iff.mp h
  obtain ⟨rest, hrest, rfl⟩ := Option.map_eq_some_iff.mp h
  exact ⟨first, rest, hfirst, hrest, rfl⟩

/-- The bytes of a text up to the first zero byte are those of its characters up
to the first null character. -/
theorem takeWhile (h : encode? (String.ofList cs) = some raw) :
    encode? (String.ofList (cs.takeWhile (· != '\x00'))) = some (raw.takeWhile (· != 0)) := by
  induction cs generalizing raw with
  | nil =>
      rw [hchars.nil, Option.some.injEq] at h
      rw [← h]
      exact hchars.nil
  | cons c cs ih =>
      obtain ⟨first, rest, hfirst, hrest, rfl⟩ := hchars.exists_of_cons h
      by_cases hc : c = '\x00'
      · subst hc
        rw [hchars.null, Option.some.injEq] at hfirst
        rw [← hfirst]
        exact hchars.nil
      · have hmarked : ∀ b ∈ first, (b != 0) = true :=
          fun b hb => bne_iff_ne.mpr (hchars.ne_zero hfirst hc b hb)
        rw [List.takeWhile_cons, if_pos (bne_iff_ne.mpr hc), hchars.cons, hfirst,
          Option.bind_some, ih hrest, Option.map_some, List.takeWhile_append_of_pos hmarked]

/-- A text has a zero byte exactly if it has a null character. -/
theorem zero_mem_iff (h : encode? (String.ofList cs) = some raw) :
    (0 : UInt8) ∈ raw ↔ '\x00' ∈ cs := by
  induction cs generalizing raw with
  | nil =>
      rw [hchars.nil, Option.some.injEq] at h
      simp [← h]
  | cons c cs ih =>
      obtain ⟨first, rest, hfirst, hrest, rfl⟩ := hchars.exists_of_cons h
      rw [List.mem_append, List.mem_cons, ih hrest]
      by_cases hc : c = '\x00'
      · subst hc
        rw [hchars.null, Option.some.injEq] at hfirst
        simp [← hfirst]
      · have hfree : (0 : UInt8) ∉ first := fun hmem => hchars.ne_zero hfirst hc 0 hmem rfl
        simp [hfree, Ne.symm hc]

end Charwise

/-- An encoding that writes the null character, and no other, with a zero
byte. -/
def MarksNulls [Codecs] (name : String) : Prop :=
  ∃ codec charBytes?, ofName .encoding name = .ok codec ∧
    Charwise (fun s => (codec.encode s).toOption) charBytes?

theorem marksNulls_of_lenient [Codecs] {name : String} {decode : Bytes → List Char}
    {encode? : String → Option Bytes} {charBytes? : Char → Option Bytes}
    (hcodec : ofName .encoding name = .ok (lenient decode encode?))
    (h : Charwise encode? charBytes?) : MarksNulls name := by
  refine ⟨_, charBytes?, hcodec, ?_⟩
  have hencode : (fun s => ((lenient decode encode?).encode s).toOption) = encode? := by
    funext s
    simp only [lenient]
    cases encode? s <;> rfl
  rwa [hencode]

/-- The encodings that are there on every system do. -/
theorem marksNulls [Codecs] : ∀ name ∈ heldNames, MarksNulls name := by
  simp only [heldNames, List.forall_mem_cons, List.not_mem_nil, false_imp_iff, implies_true,
    and_true]
  exact ⟨marksNulls_of_lenient rfl charwise_cp932, marksNulls_of_lenient rfl charwise_utf8,
    marksNulls_of_lenient rfl (charwise_below (by decide) (by decide)),
    marksNulls_of_lenient rfl (charwise_below (by decide) (by decide))⟩

end Encoding

/-- A text up to its first null character. -/
def Text.beforeNull (s : String) : String := String.ofList (s.toList.takeWhile (· != '\x00'))

/-- Bytes of a text and of the part before its first null character. -/
theorem Encoding.bytesOf?_beforeNull [Codecs] {name text : String} {raw : Bytes}
    (hmarks : MarksNulls name) (h : bytesOf? name text = some raw) :
    bytesOf? name (Text.beforeNull text) = some (raw.takeWhile (· != 0)) ∧
      ((0 : UInt8) ∈ raw ↔ '\x00' ∈ text.toList) := by
  obtain ⟨codec, charBytes?, hcodec, hchars⟩ := hmarks
  have hbytes : ∀ s, bytesOf? name s = (codec.encode s).toOption := fun s => by
    rw [bytesOf?, hcodec]
    rfl
  rw [hbytes, ← String.ofList_toList (s := text)] at h
  exact ⟨(hbytes _).trans (hchars.takeWhile h), hchars.zero_mem_iff h⟩

/-! ## what references find -/

namespace Revision

variable {r : Revision} {image image' : Image} {b : Pool.Builder}

/-- A reference with a new text finds the bytes of that text up to the first
zero byte. -/
theorem Done.bytesAt?_of_newText [Codecs] (h : Done r image image' b)
    (hoverflow : r.allowOverflow = false)
    {reference : Int} (hreference : reference ∈ r.refs) {stored : Resolved}
    (hresolve : image.resolveAt r.inputEncoding reference = .ok stored) {text : String}
    (hnew : r.newText? stored = some text) :
    ∃ raw, Encoding.bytesOf? r.outputEncoding text = some raw ∧
      image'.bytesAt? reference = some (raw.takeWhile (· != 0)) := by
  obtain ⟨stored', hresolve', hholds⟩ := h.references reference hreference
  obtain rfl : stored = stored' := Except.ok.inj (hresolve.symm.trans hresolve')
  have htouched : r.touches stored = true := by simp [touches, hnew]
  rw [if_pos htouched] at hholds
  obtain ⟨raw, p, hraw, hoffset, hfits, -, hread⟩ := hholds
  rw [meant?, hnew] at hraw
  have hfield : p.field = p.offset := Nat.mod_eq_of_lt (Nat.lt_succ_of_le (hfits hoverflow))
  refine ⟨raw, hraw, ?_⟩
  rw [Image.bytesAt?, hread, hfield, Option.map_some, h.stringAt_offset hoffset]

/-- **What is stored of a text**: a revision that succeeds had bytes for each
new text, and its reference finds these bytes up to the first zero byte.  It
finds all of them exactly if there is none.  In an encoding that marks null
characters, it finds the bytes of the text up to the first null character, and
those of the whole text exactly if there is none. -/
theorem bytesAt?_of_run [Codecs] {dialect : Dialect} {encoding : String} {d : Decoded}
    (hd : image.decode dialect encoding = .ok d) (hrefs : r.refs = d.stringRefs)
    (hoverflow : r.allowOverflow = false) {report : Report}
    (h : (r.run image).result = .ok report) {reference : Int}
    (hreference : reference ∈ d.stringRefs) {text : String}
    (htext : r.texts.get? reference = some text)
    (hnew : image.textAt r.inputEncoding reference ≠ .ok text) :
    ∃ raw, Encoding.bytesOf? r.outputEncoding text = some raw ∧
      (r.run image).image.bytesAt? reference = some (raw.takeWhile (· != 0)) ∧
      ((r.run image).image.bytesAt? reference = some raw ↔ (0 : UInt8) ∉ raw) ∧
      (Encoding.MarksNulls r.outputEncoding →
        (r.run image).image.bytesAt? reference =
          Encoding.bytesOf? r.outputEncoding (Text.beforeNull text) ∧
        ((r.run image).image.bytesAt? reference = some raw ↔ '\x00' ∉ text.toList)) := by
  have hfields : FieldsIn 0 d.consumed r.refs := hrefs ▸ Image.fieldsIn_of_decode hd
  obtain ⟨b, hdone⟩ := exists_done_of_run hfields h
  rw [← hrefs] at hreference
  obtain ⟨stored, hresolve, -⟩ := hdone.references reference hreference
  have hnewText : r.newText? stored = some text := by
    rw [newText?_eq_some_iff, (Image.resolveAt_eq_ok hresolve).1]
    refine ⟨htext, ?_⟩
    rintro rfl
    exact hnew (by rw [Image.textAt, hresolve]; rfl)
  obtain ⟨raw, hraw, hfound⟩ := hdone.bytesAt?_of_newText hoverflow hreference hresolve hnewText
  have hwhole : (r.run image).image.bytesAt? reference = some raw ↔ (0 : UInt8) ∉ raw := by
    rw [hfound, Option.some.injEq, List.takeWhile_eq_self_iff]
    exact ⟨fun hall h0 => bne_iff_ne.mp (hall 0 h0) rfl,
      fun hfree b hb => bne_iff_ne.mpr fun h0 => hfree (h0 ▸ hb)⟩
  refine ⟨raw, hraw, hfound, hwhole, fun hmarks => ?_⟩
  obtain ⟨hbefore, hzero⟩ := Encoding.bytesOf?_beforeNull hmarks hraw
  exact ⟨hfound.trans hbefore.symm, by rw [hwhole, hzero]⟩

end Revision

/-- A file with two calls, both with the one string of its pool. -/
def Image.twiceFile : Bytes := [
  0x00, 0x00, 0x00, 0x00, 0x00, 0x00, 0x09, 0x00, 0x00, 0x00, 0x00, 0x00,
  0x00, 0x00, 0x00, 0x00, 0x00, 0x00, 0x00, 0x00, 0x0D,
  0x41, 0x42, 0x00, 0x00]

/-- The image of that file. -/
def Image.twice : Image :=
  ⟨Image.twiceFile.take 12, [], Code.ofCalls [(0, 0), (0, 0)], 12, [0x41, 0x42, 0x00, 0x00]⟩

/-- A sheet with new texts for both calls, the first with a null character in
it. -/
def Revision.nullSheet : List (Nat × String) := [(2, "A\x00B"), (6, "CD")]

/-- The revision that puts the texts of that sheet back. -/
def Revision.nulls (mode : Mode) : Revision :=
  { mode
    refs := [2, 6]
    texts := Sheet.toTexts Revision.nullSheet
    inputEncoding := "cp932"
    outputEncoding := "cp932"
    allowOverflow := false }

theorem Image.exists_decode_twice :
    ∃ d, Image.twice.decode Version.v0.dialect "cp932" = .ok d ∧ [2, 6] = d.stringRefs := by
  obtain ⟨d, hd, hrefs⟩ := @Image.exists_decode_of_calls _ .twice .v0 "cp932"
    (Encoding.decodes_of_lenient rfl) [(0, 0), (0, 0)] rfl (by simp [Bytes.word, Image.twice])
  exact ⟨d, hd, hrefs.symm⟩

theorem Revision.exists_run_nulls [Codecs] (mode : Mode) :
    ∃ report, ((Revision.nulls mode).run .twice).result = .ok report := by
  cases mode with
  | append => exact ⟨_, rfl⟩
  | rebuild => exact ⟨_, rfl⟩

/-- Both calls have the text of that string. -/
theorem Image.textAt_twice [Codecs] {reference : Int} (h : reference = 2 ∨ reference = 6) :
    Image.twice.textAt "cp932" reference = .ok "AB" := by
  rcases h with rfl | rfl
  · rfl
  · rfl

theorem Revision.bytesAt?_nulls :
    (∃ report, ((Revision.nulls .append).run .twice).result = .ok report) ∧
      ((Revision.nulls .append).run .twice).image.bytesAt? 2 = some [0x41] ∧
      ((Revision.nulls .append).run .twice).image.bytesAt? 2 ≠ some [0x41, 0x00, 0x42] ∧
      ((Revision.nulls .append).run .twice).image.bytesAt? 6 = some [0x43, 0x44] := by
  obtain ⟨d, hd, hrefs⟩ := Image.exists_decode_twice
  obtain ⟨report, hreport⟩ := Revision.exists_run_nulls .append
  have hnew : Image.twice.textAt "cp932" 2 ≠ .ok "A\x00B" := by
    rw [Image.textAt_twice (.inl rfl)]
    simp
  have hnew' : Image.twice.textAt "cp932" 6 ≠ .ok "CD" := by
    rw [Image.textAt_twice (.inr rfl)]
    simp
  obtain ⟨raw, hraw, -, hwhole, hnulls⟩ := Revision.bytesAt?_of_run hd hrefs rfl hreport
    (hrefs ▸ List.mem_cons_self) rfl hnew
  obtain ⟨raw', hraw', -, hwhole', -⟩ := Revision.bytesAt?_of_run hd hrefs rfl hreport
    (hrefs ▸ List.mem_cons_of_mem _ List.mem_cons_self) rfl hnew'
  have hbytes : Encoding.bytesOf? "cp932" "A\x00B" = some [0x41, 0x00, 0x42] := rfl
  have hbytes' : Encoding.bytesOf? "cp932" "CD" = some [0x43, 0x44] := rfl
  have hcut : Encoding.bytesOf? "cp932" (Text.beforeNull "A\x00B") = some [0x41] := rfl
  obtain rfl := Option.some.inj (hbytes.symm.trans hraw)
  obtain rfl := Option.some.inj (hbytes'.symm.trans hraw')
  have hfound := (hnulls (Encoding.marksNulls "cp932" (by decide))).1
  exact ⟨⟨report, hreport⟩, hfound.trans hcut, fun heq => hwhole.mp heq (by simp),
    hwhole'.mpr (by simp)⟩

/-- A text that a sheet holds is put back in either way without a failure, and
cut at its null character: the reference finds less than the bytes of the
text. -/
theorem Revision.run_cuts_at_null :
    ∃ image d, Image.load Image.twiceFile = .ok image ∧
      image.decode Version.v0.dialect "cp932" = .ok d ∧
      Sheet.parse (Sheet.format [(2, "A\x00B"), (6, "CD")]) = .ok Revision.nullSheet ∧
      Encoding.bytesOf? "cp932" "A\x00B" = some [0x41, 0x00, 0x42] ∧
      image.textAt "cp932" 2 ≠ .ok "A\x00B" ∧
      ∀ mode, (Revision.nulls mode).refs = d.stringRefs ∧
        (Revision.nulls mode).texts.get? 2 = some "A\x00B" ∧
        (∃ report, ((Revision.nulls mode).run image).result = .ok report) ∧
        ((Revision.nulls mode).run image).image.bytesAt? 2 = some [0x41] := by
  obtain ⟨d, hd, hrefs⟩ := Image.exists_decode_twice
  have hsheet : Sheet.parse (Sheet.format [(2, "A\x00B"), (6, "CD")]) =
      .ok Revision.nullSheet := by
    rw [Sheet.parse_format (by simp [Sheet.Addressable])]
    rfl
  refine ⟨.twice, d, rfl, hd, hsheet, rfl, ?_, fun mode =>
    ⟨hrefs, rfl, Revision.exists_run_nulls mode, ?_⟩⟩
  · rw [Image.textAt_twice (.inl rfl)]
    simp
  · cases mode with
    | append => rfl
    | rebuild => rfl

end Scenario
