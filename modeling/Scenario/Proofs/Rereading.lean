import Scenario.Proofs.Atomicity
import Scenario.Proofs.History
import Scenario.Proofs.Untouched

/-!
# Scenario.Proofs.Rereading

What a session reads where it was given no new text.

Both ways of putting texts back keep the stored bytes of such a string.  But
afterwards the session reads in the encoding of the new texts, so the text is
what these bytes mean there:

1. `Revision.Done.bytesAt?_of_leaves` — a reference that is left alone finds
   the bytes it found before, wherever they lie now, and hence their text
   (`Revision.Done.textAt_of_leaves`).
2. `Session.textAt_of_apply` — its text changes from one reading of these bytes
   to another, and stays exactly if the two are the same.  So it stays if the
   encoding does, and if the bytes are ASCII and both encodings read ASCII as
   its characters.  Those that are there on every system do
   (`Encoding.readsAscii`), but not all: in UTF-16 a byte is half a character.
3. `Session.apply_misreads_kept` — other bytes are misread.
-/

namespace Scenario

/-! ## ASCII -/

namespace Encoding

/-- Characters of bytes that stand for themselves. -/
def asciiChars (raw : Bytes) : List Char := raw.map fun b => Char.ofNat b.toNat

/-- A decoder that is between two characters, and takes each ASCII byte as
itself, reads ASCII bytes as their characters. -/
theorem foldl_of_ascii {σ : Type} {step : σ → UInt8 → σ} {between : List Char → σ}
    (hstep : ∀ read b, b < 0x80 → step (between read) b = between (Char.ofNat b.toNat :: read))
    {raw : Bytes} (h : ∀ b ∈ raw, b < 0x80) (read : List Char) :
    raw.foldl step (between read) = between ((asciiChars raw).reverse ++ read) := by
  induction raw generalizing read with
  | nil => rfl
  | cons b raw ih =>
      have hfirst : b < 0x80 := h b List.mem_cons_self
      rw [List.foldl_cons, hstep read b hfirst, ih fun c hc => h c (List.mem_cons_of_mem _ hc)]
      simp [asciiChars]

theorem Utf8.decode_of_ascii {raw : Bytes} (h : ∀ b ∈ raw, b < 0x80) :
    Utf8.decode raw = asciiChars raw := by
  have hstep : ∀ read b, b < 0x80 →
      State.step ⟨read, none⟩ b = ⟨Char.ofNat b.toNat :: read, none⟩ := by
    intro read b hb
    simp [State.step, State.start, lead, hb]
  rw [decode, foldl_of_ascii hstep h]
  simp [State.finish]

theorem Cp932.decode_of_ascii {raw : Bytes} (h : ∀ b ∈ raw, b < 0x80) :
    Cp932.decode raw = asciiChars raw := by
  have hstep : ∀ read b, b < 0x80 →
      State.step ⟨read, none⟩ b = ⟨Char.ofNat b.toNat :: read, none⟩ := by
    intro read b hb
    simp [State.step, State.start, single?, UInt8.le_of_lt hb]
  rw [decode, foldl_of_ascii hstep h]
  simp [State.finish]

/-- An encoding that reads ASCII bytes as their characters. -/
def ReadsAscii [Codecs] (name : String) : Prop :=
  ∃ codec, ofName .decoding name = .ok codec ∧
    ∀ raw : Bytes, (∀ b ∈ raw, b < 0x80) → codec.decode raw = .ok (String.ofList (asciiChars raw))

/-- Names of the encodings that are there on every system. -/
def heldNames : List String := ["cp932", "utf-8", "ascii", "iso8859-1"]

/-- They all do. -/
theorem readsAscii [Codecs] : ∀ name ∈ heldNames, ReadsAscii name := by
  simp only [heldNames, List.forall_mem_cons, List.not_mem_nil, false_imp_iff, implies_true,
    and_true]
  refine ⟨⟨cp932, rfl, fun raw h => ?_⟩, ⟨utf8, rfl, fun raw h => ?_⟩,
    ⟨ascii, rfl, fun raw h => ?_⟩, ⟨latin1, rfl, fun raw h => rfl⟩⟩
  · simp only [cp932, lenient, Cp932.decode_of_ascii h]
  · simp only [utf8, lenient, Utf8.decode_of_ascii h]
  · simp only [ascii, lenient, asciiChars]
    rw [List.map_congr_left fun b hb => if_pos (h b hb)]

end Encoding

/-- ASCII bytes have their characters as text. -/
theorem Pool.decodeText_of_ascii [Codecs] {encoding : String} (h : Encoding.ReadsAscii encoding)
    {raw : Bytes} (hascii : ∀ b ∈ raw, b < 0x80) :
    decodeText encoding raw = .ok (String.ofList (Encoding.asciiChars raw)) := by
  cases raw with
  | nil => rfl
  | cons b raw =>
      obtain ⟨codec, hcodec, hdecode⟩ := h
      refine andThen_eq_ok_iff.mpr ⟨codec, hcodec, ?_⟩
      rw [hdecode _ hascii]

/-! ## texts of references -/

/-- The text that a reference finds. -/
def Image.textAt [Codecs] (image : Image) (encoding : String) (reference : Int) :
    Except Error String :=
  (image.resolveAt encoding reference).map Resolved.text

/-- A text that a reference finds is that of what it resolves to. -/
theorem Image.textAt_eq_ok_iff [Codecs] {image : Image} {encoding : String} {reference : Int}
    {text : String} :
    image.textAt encoding reference = .ok text ↔
      ∃ stored, image.resolveAt encoding reference = .ok stored ∧ stored.text = text := by
  rw [textAt]
  cases image.resolveAt encoding reference <;> simp [Except.map]

/-- A reference into the pool resolves to the text of the bytes there. -/
theorem Image.resolveAt_eq [Codecs] {image : Image} {reference : Int} {offset : Nat}
    (hread : image.code.readUInt? reference 2 = some offset) (h : offset < image.pool.length)
    (encoding : String) :
    image.resolveAt encoding reference =
      (Pool.decodeText encoding (Pool.stringAt image.pool offset)).map
        fun text => ⟨reference, offset, text⟩ := by
  have hresolve : Pool.resolve image.pool offset encoding (some (image.absolute reference)) =
      Pool.decodeText encoding (Pool.stringAt image.pool offset) := by
    rw [Pool.resolve, if_neg (by omega)]
  simp only [resolveAt, offsetAt, hread, bind, Except.bind, hresolve]
  cases Pool.decodeText encoding (Pool.stringAt image.pool offset) <;> rfl

/-- A reference that finds bytes inside the pool finds their text. -/
theorem Image.textAt_of_bytesAt? [Codecs] {image : Image} {reference : Int} {raw : Bytes}
    {offset : Nat} (hread : image.code.readUInt? reference 2 = some offset)
    (h : offset < image.pool.length) (hraw : image.bytesAt? reference = some raw)
    (encoding : String) : image.textAt encoding reference = Pool.decodeText encoding raw := by
  rw [bytesAt?, hread, Option.map_some, Option.some.injEq] at hraw
  rw [textAt, resolveAt_eq hread h, hraw]
  cases Pool.decodeText encoding raw <;> rfl

namespace Revision

variable {r : Revision} {image image' : Image} {b : Pool.Builder} {reference : Int}

/-- No offset is stored modulo 65536: it is forbidden, or none is too large. -/
def Fits [Codecs] (r : Revision) (image : Image) : Prop :=
  r.allowOverflow = false ∨ ∀ p ∈ (r.run image).placements, p.wraps = false

/-- A reference that is left alone finds the bytes it found before. -/
theorem Done.bytesAt?_of_leaves [Codecs] (h : Done r image image' b) (hfits : r.Fits image)
    (hend : r.mode = .append → image.pool.getLast? = some 0) (hreference : reference ∈ r.refs)
    (hleaves : r.Leaves image reference) :
    ∃ raw, image.bytesAt? reference = some raw ∧ image'.bytesAt? reference = some raw := by
  obtain ⟨stored, hresolve, hholds⟩ := h.references reference hreference
  obtain ⟨-, hread, hlt⟩ := Image.resolveAt_eq_ok hresolve
  have hnew := hleaves.newText?_eq_none hresolve
  refine ⟨Pool.stringAt image.pool stored.offset, by rw [Image.bytesAt?, hread]; rfl, ?_⟩
  rw [Image.bytesAt?]
  split at hholds
  · -- the string was written anew, without a zero byte in it
    obtain ⟨raw, p, hraw, hoffset, hsmall, hplaced, hread'⟩ := hholds
    rw [meant?, hnew, Option.some.injEq] at hraw
    subst hraw
    have hle : p.offset ≤ Placement.maxOffset := by
      rcases hfits with hno | hnone
      · exact hsmall hno
      · simpa [Placement.wraps] using hnone p hplaced
    have hfield : p.field = p.offset := Nat.mod_eq_of_lt (Nat.lt_succ_of_le hle)
    rw [hread', hfield, Option.map_some,
      h.stringAt_pool (Pool.zero_notMem_stringAt _ _) hoffset]
  · next huntouched =>
    have hmode := (of_not_touches huntouched).1
    obtain ⟨bs, hpool⟩ := h.exists_pool_eq hmode
    rw [hholds, Option.map_some, hpool, Pool.stringAt_append (hend hmode) bs hlt]

/-- A reference that is left alone had a text, that of its bytes, and has in
any encoding the text of these bytes there. -/
theorem Done.textAt_of_leaves [Codecs] (h : Done r image image' b) (hfits : r.Fits image)
    (hend : r.mode = .append → image.pool.getLast? = some 0) (hreference : reference ∈ r.refs)
    (hleaves : r.Leaves image reference) :
    ∃ raw text, image.bytesAt? reference = some raw ∧ image'.bytesAt? reference = some raw ∧
      Pool.decodeText r.inputEncoding raw = .ok text ∧
      image.textAt r.inputEncoding reference = .ok text ∧
      ∀ encoding, image'.textAt encoding reference = Pool.decodeText encoding raw := by
  obtain ⟨raw, hraw, hraw'⟩ := h.bytesAt?_of_leaves hfits hend hreference hleaves
  obtain ⟨stored, hresolve, -⟩ := h.references reference hreference
  obtain ⟨-, hread, hlt⟩ := Image.resolveAt_eq_ok hresolve
  obtain ⟨offset, hread', hlt'⟩ := h.exists_offset hreference
  have htext : image.textAt r.inputEncoding reference = .ok stored.text :=
    congrArg (Except.map _) hresolve
  have hdecode : Pool.decodeText r.inputEncoding raw = .ok stored.text :=
    (Image.textAt_of_bytesAt? hread hlt hraw _).symm.trans htext
  exact ⟨raw, stored.text, hraw, hraw', hdecode, htext,
    Image.textAt_of_bytesAt? hread' hlt' hraw'⟩

end Revision

namespace Session

/-- The text that a session reads at a reference. -/
def textAt [Codecs] (s : Session) (reference : Int) : Except Error String :=
  s.image.textAt s.options.encoding reference

/-- **What is read again**: a reference that is left alone finds the bytes it
found before, now read in the encoding of the new texts.  So it has the same
text exactly if the two encodings read these bytes alike.  They do if they are
one, or if both read ASCII as its characters and the bytes are ASCII. -/
theorem textAt_of_apply [Codecs] {data : Bytes} {options : Options} {s : Session}
    (hload : load data options = .ok s) {mode : Mode} {texts : Ordered Int String}
    {report : Report} (h : (s.apply mode texts).result = .ok report)
    (hfits : options.allowOverflow = false ∨
      ∀ p ∈ (s.apply mode texts).placements, p.wraps = false)
    (hend : mode = .append → s.image.pool.getLast? = some 0) {reference : Int}
    (hreference : reference ∈ s.refs)
    (hleaves : (s.revision mode texts).Leaves s.image reference) :
    ∃ raw text, s.image.bytesAt? reference = some raw ∧
      (s.apply mode texts).session.image.bytesAt? reference = some raw ∧
      Pool.decodeText options.encoding raw = .ok text ∧ s.textAt reference = .ok text ∧
      (s.apply mode texts).session.textAt reference = Pool.decodeText options.newEncoding raw ∧
      ((s.apply mode texts).session.textAt reference = .ok text ↔
        Pool.decodeText options.newEncoding raw = Pool.decodeText options.encoding raw) ∧
      (options.newEncoding = options.encoding ∨
          Encoding.ReadsAscii options.encoding ∧ Encoding.ReadsAscii options.newEncoding ∧
            (∀ b ∈ raw, b < 0x80) →
        (s.apply mode texts).session.textAt reference = .ok text) := by
  obtain ⟨-, rfl, hd⟩ := load_eq_ok hload
  have hencoding := encoding_apply_of_ok h
  rw [result_apply] at h
  rw [placements_apply] at hfits
  have hfields : FieldsIn 0 s.decoded.consumed (s.revision mode texts).refs :=
    Image.fieldsIn_of_decode hd
  obtain ⟨b, hdone⟩ := Revision.exists_done_of_run hfields h
  obtain ⟨raw, text, hraw, hraw', hdecode, hbefore, hreads⟩ :=
    hdone.textAt_of_leaves hfits hend hreference hleaves
  replace hdecode : Pool.decodeText s.options.encoding raw = .ok text := hdecode
  have hafter : (s.apply mode texts).session.textAt reference =
      Pool.decodeText s.options.newEncoding raw := by
    rw [textAt, image_session_apply, hencoding, hreads]
  refine ⟨raw, text, hraw, by rw [image_session_apply]; exact hraw', hdecode, hbefore, hafter,
    by rw [hafter, hdecode], fun hsame => ?_⟩
  rw [hafter, ← hdecode]
  rcases hsame with hname | ⟨hreads, hreads', hascii⟩
  · rw [hname]
  · rw [Pool.decodeText_of_ascii hreads hascii, Pool.decodeText_of_ascii hreads' hascii]

/-- A file with two calls; the string of the second is half-width katakana. -/
def katakanaFile : Bytes := [
  0x00, 0x00, 0x00, 0x00, 0x00, 0x00, 0x09, 0x00, 0x00, 0x00, 0x00, 0x00,
  0x00, 0x00, 0x00, 0x00, 0x00, 0x00, 0x02, 0x00, 0x0D,
  0x41, 0x00, 0xB1, 0x00]

/-- The image of that file. -/
def katakanaImage : Image :=
  ⟨katakanaFile.take 12, [], Code.ofCalls [(0, 0), (2, 0)], 12, [0x41, 0x00, 0xB1, 0x00]⟩

/-- New texts are stored in another encoding. -/
def katakanaOptions : Options := ⟨.v0, "cp932", some "utf-8", false⟩

/-- The revision that a session of that file makes. -/
def katakanaRevision (reference : Int) : Revision :=
  ⟨.rebuild, [2, 6], .ofList [(reference, "x")], "cp932", "utf-8", false⟩

/-- A session of that file can be given a text for either call. -/
theorem exists_apply_katakana {reference : Int} (h : reference = 2 ∨ reference = 6) :
    ∃ s report, load katakanaFile katakanaOptions = .ok s ∧ s.image = katakanaImage ∧
      s.options = katakanaOptions ∧ s.refs = [2, 6] ∧
      s.revision .rebuild (.ofList [(reference, "x")]) = katakanaRevision reference ∧
      (s.apply .rebuild (.ofList [(reference, "x")])).result = .ok report := by
  obtain ⟨d, hload, hrefs⟩ := @exists_load_of_calls _ katakanaFile katakanaImage katakanaOptions rfl
    (Encoding.decodes_of_lenient rfl) [(0, 0), (2, 0)] rfl (by simp [Bytes.word, katakanaImage])
  have hrun : ((katakanaRevision reference).run katakanaImage).result.toOption.map
      Report.references = some 2 := by
    rcases h with rfl | rfl <;> decide +kernel
  obtain ⟨report, hreport, -⟩ := exists_ok_of_map_toOption hrun
  have hrevision : revision ⟨katakanaImage, d, katakanaOptions⟩ .rebuild
      (.ofList [(reference, "x")]) = katakanaRevision reference := by
    rw [revision, refs, hrefs]
    rfl
  refine ⟨_, report, hload, rfl, rfl, hrefs, hrevision, ?_⟩
  rw [result_apply, hrevision]
  exact hreport

theorem textAt_sample :
    ∃ s report, load katakanaFile katakanaOptions = .ok s ∧
      (s.apply .rebuild (.ofList [(6, "x")])).result = .ok report ∧
      s.textAt 2 = .ok "A" ∧
      (s.apply .rebuild (.ofList [(6, "x")])).session.textAt 2 = .ok "A" := by
  obtain ⟨s, report, hload, himage, -, hrefs, hrevision, hresult⟩ :=
    exists_apply_katakana (.inr rfl)
  have hreference : 2 ∈ s.refs := by
    rw [hrefs]
    decide
  have hleaves : (s.revision .rebuild (.ofList [(6, "x")])).Leaves s.image 2 := by
    rw [hrevision]
    exact .inl (by decide +kernel)
  obtain ⟨raw, text, hraw, -, hdecode, htext, -, -, hsame⟩ :=
    textAt_of_apply hload hresult (.inl rfl) nofun hreference hleaves
  have hbytes : katakanaImage.bytesAt? 2 = some [0x41] := by decide +kernel
  rw [himage, hbytes] at hraw
  obtain rfl : [0x41] = raw := Option.some.inj hraw
  obtain rfl : "A" = text := Except.ok.inj hdecode
  have hcp932 := Encoding.readsAscii "cp932" (by decide)
  have hutf8 := Encoding.readsAscii "utf-8" (by decide)
  exact ⟨s, report, hload, hresult, htext, hsame (.inr ⟨hcp932, hutf8, by simp⟩)⟩

/-- Katakana that was left alone is misread by a session that changed to
another encoding. -/
theorem apply_misreads_kept :
    ∃ s report, load katakanaFile katakanaOptions = .ok s ∧
      s.image.pool.getLast? = some 0 ∧
      (s.apply .rebuild (.ofList [(2, "x")])).result = .ok report ∧
      (∀ p ∈ (s.apply .rebuild (.ofList [(2, "x")])).placements, p.wraps = false) ∧
      6 ∈ s.refs ∧ (s.revision .rebuild (.ofList [(2, "x")])).Leaves s.image 6 ∧
      s.textAt 6 = .ok "ｱ" ∧
      (s.apply .rebuild (.ofList [(2, "x")])).session.textAt 6 = .ok "\uFFFD" := by
  obtain ⟨s, report, hload, himage, hoptions, hrefs, hrevision, hresult⟩ :=
    exists_apply_katakana (.inl rfl)
  have hbefore : (katakanaImage.textAt "cp932" 6).toOption.map id = some "ｱ" := by decide +kernel
  have hafter : ((((katakanaRevision 2).run katakanaImage).image).textAt "utf-8" 6).toOption.map
      id = some "\uFFFD" := by
    decide +kernel
  obtain ⟨_, hbefore, rfl⟩ := exists_ok_of_map_toOption hbefore
  obtain ⟨_, hafter, rfl⟩ := exists_ok_of_map_toOption hafter
  refine ⟨s, report, hload, by rw [himage]; rfl, hresult, ?_, by rw [hrefs]; decide, ?_, ?_, ?_⟩
  · rw [placements_apply, hrevision, himage]
    decide +kernel
  · rw [hrevision]
    exact .inl (by decide +kernel)
  · rw [textAt, himage, hoptions]
    exact hbefore
  · rw [textAt, image_session_apply, encoding_apply_of_ok hresult, hrevision, himage, hoptions]
    exact hafter

end Session

end Scenario
