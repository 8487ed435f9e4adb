import Scenario.Command
import Scenario.Proofs.Atomicity
import Scenario.Proofs.Faults
import Scenario.Proofs.Packing
import Scenario.Proofs.Trees

/-!
# Scenario.Proofs.Refusals

Every way in which the parts of a command can fail.

1. Operations on files are refused, or their path holds a null character
   (`FileError.At`).  Making directories can lead too deep as well.
2. Converting text fails because a name has no codec, or because the codec
   refuses what it is given (`Encoding.Fails`).  For a canonical name the
   first is reported, but for two encodings that refuse everything
   (`Encoding.Refuses`).
3. Scripts, sheets and archives fail on their content, or on converting their
   texts.
4. Packing fails when a number does not fit its field
   (`Archive.build_eq_error`).
-/

namespace Scenario

/-! ## files -/

/-- Failures of an operation on one path. -/
inductive FileError.At (p : Path) : FileError → Prop where
  | refused (fault : FileFault) (path : String) : At p (.refused fault path)
  | nullInPath (h : p.hasNull = true) : At p .nullInPath

namespace Tree

variable {t : Tree} {p : Path} {e : FileError}

theorem answer_eq_error {α : Type} {r : Except FileFault α} (h : answer p r = .error e) :
    e.At p := by
  rw [answer.eq_def] at h
  split at h
  · next hnull =>
    cases h
    exact .nullInPath hnull
  · split at h
    · cases h
    · cases h
      exact .refused ..

theorem find?_eq_error (h : t.find? p = .error e) :
    ∃ fault path, e = .refused fault path := by
  rw [find?] at h
  split at h
  · cases h
  · split at h
    · cases h
    · cases h
      exact ⟨_, _, rfl⟩
    · cases h

theorem isFile_eq_error (h : t.isFile p = .error e) : ∃ fault path, e = .refused fault path := by
  rcases andThen_eq_error_iff.mp h with h | ⟨node, -, h⟩
  · exact find?_eq_error h
  · split at h <;> cases h

theorem isDirectory_eq_error (h : t.isDirectory p = .error e) :
    ∃ fault path, e = .refused fault path := by
  rcases andThen_eq_error_iff.mp h with h | ⟨node, -, h⟩
  · exact find?_eq_error h
  · cases h

/-- No file has a null character in its path. -/
theorem hasNull_of_isFile (h : t.isFile p = .ok true) : p.hasNull = false := by
  obtain ⟨node, hnode, h⟩ := andThen_eq_ok_iff.mp h
  by_contra hnull
  rw [find?, if_pos (by simpa using hnull)] at hnode
  cases hnode
  cases h

theorem fileNames_eq_error (h : t.fileNames p = .error e) : e.At p := by
  rcases andThen_eq_error_iff.mp h with h | ⟨names, -, h⟩
  · exact answer_eq_error h
  · obtain ⟨name, -, h⟩ := exists_of_filterM_eq_error h
    obtain ⟨fault, path, rfl⟩ := isFile_eq_error h
    exact .refused ..

/-- The files of a directory have names without null characters. -/
theorem null_notMem_of_fileNames {names : List String} (h : t.fileNames p = .ok names)
    {name : String} (hname : name ∈ names) : '\x00' ∉ name.toList := by
  obtain ⟨all, -, h⟩ := andThen_eq_ok_iff.mp h
  have hnull := hasNull_of_isFile (of_mem_filterM h hname)
  rw [Path.hasNull_child, Bool.or_eq_false_iff] at hnull
  simpa using hnull.2

theorem settle_eq_error {t' : Tree} {made : Except FileFault Tree}
    (h : t.settle p made = (t', .error e)) : ∃ fault path, e = .refused fault path := by
  cases made with
  | ok made => cases h
  | error fault =>
      rw [settle] at h
      split at h
      · cases h
      · cases h
        exact ⟨_, _, rfl⟩

/-- Making directories is refused, or leads too deep. -/
theorem makeParts_eq_error {t t' : Tree} {slashes depth : Nat} {reversed : List String}
    (h : t.makeParts slashes depth reversed = (t', .error e)) :
    (∃ fault path, e = .refused fault path) ∨ e = .tooDeep ∧ depth < reversed.length := by
  induction reversed generalizing depth t t' with
  | nil =>
      rw [makeParts] at h
      cases h
  | cons part above ih =>
      cases depth with
      | zero =>
          cases h
          exact .inr ⟨rfl, by simp⟩
      | succ depth =>
          rw [makeParts] at h
          split at h
          · split at h
            · exact .inl (settle_eq_error h)
            · next failed _ =>
              -- one part fewer is left for one level fewer
              obtain hrefused | ⟨rfl, hdepth⟩ := ih h
              · exact .inl hrefused
              · exact .inr ⟨rfl, by simpa using hdepth⟩
          · exact .inl (settle_eq_error h)

theorem makeDirectory_eq_error [Host] {t' : Tree} (h : t.makeDirectory p = (t', .error e)) :
    e.At p ∨ e = .tooDeep ∧ Host.maxDepth < p.parts.length := by
  rw [makeDirectory] at h
  split at h
  · next hnull =>
    cases h
    exact .inl (.nullInPath hnull)
  · obtain ⟨fault, path, rfl⟩ | ⟨rfl, hdepth⟩ := makeParts_eq_error h
    · exact .inl (.refused ..)
    · exact .inr ⟨rfl, by simpa using hdepth⟩

end Tree

/-! ## encodings -/

namespace Encoding

/-- How the encoding of a canonical name refuses what it is given, with the
words of `message`. -/
inductive Refuses [Codecs] : (way : Conversion) → (canonical message : String) → Prop where
  | undefined {way : Conversion} {message : String}
      (h : ofName way "undefined" = .error (.refusingEncoding way message)) :
      Refuses way "undefined" message
  | idna {message : String}
      (h : ofName .decoding "idna" = .error (.refusingEncoding .decoding message)) :
      Refuses .decoding "idna" message
  /-- Its codec refuses some string of a pool. -/
  | bytes {canonical message : String} {codec : Encoding} {raw : Bytes}
      (hcodec : ofName .decoding canonical = .ok codec) (hraw : raw ≠ [])
      (hzero : (0 : UInt8) ∉ raw) (h : codec.decode raw = .error message) :
      Refuses .decoding canonical message
  /-- Its codec refuses some text, and not for a character without a code. -/
  | text {canonical message text : String} {codec : Encoding}
      (hcodec : ofName .encoding canonical = .ok codec)
      (h : codec.encode text = .error (.refused message)) :
      Refuses .encoding canonical message

/-- The failures of converting text, texts without a code apart: the name has
no codec, or its codec refuses what it is given. -/
inductive Fails [Codecs] (name : String) : Conversion → Error → Prop where
  | codec {way : Conversion} {e : Error} (h : ofName way name = .error e) : Fails name way e
  | bytes {codec : Encoding} {raw : Bytes} {message : String}
      (hcodec : ofName .decoding name = .ok codec) (hraw : raw ≠ []) (hzero : (0 : UInt8) ∉ raw)
      (h : codec.decode raw = .error message) :
      Fails name .decoding (.refusingEncoding .decoding message)
  | text {codec : Encoding} {text message : String}
      (hcodec : ofName .encoding name = .ok codec)
      (h : codec.encode text = .error (.refused message)) :
      Fails name .encoding (.refusingEncoding .encoding message)

/-- A string of a pool is decoded, or converting text fails. -/
theorem fails_of_decodeText [Codecs] {name : String} {raw : Bytes} {e : Error}
    (hzero : (0 : UInt8) ∉ raw) (h : Pool.decodeText name raw = .error e) :
    Fails name .decoding e := by
  have hraw : raw ≠ [] := by
    rintro rfl
    cases h
  rcases Pool.decodeText_eq_error h with hcodec | ⟨codec, message, hcodec, hmessage, rfl⟩
  · exact .codec hcodec
  · exact .bytes hcodec hraw hzero hmessage

/-- Nothing fails in an encoding that decodes every string. -/
theorem Decodes.not_fails [Codecs] {name : String} {e : Error} (h : Decodes name) :
    ¬Fails name .decoding e := by
  intro hfails
  cases hfails with
  | codec herror =>
      obtain ⟨text, htext⟩ := h [1]
      rw [Pool.decodeText, herror] at htext
      cases htext
  | @bytes codec raw message hcodec hraw hzero hmessage =>
      obtain ⟨text, htext⟩ := h raw
      obtain ⟨b, rest, rfl⟩ := List.exists_cons_of_ne_nil hraw
      rw [Pool.decodeText, hcodec] at htext
      simp [bind, Except.bind, hmessage] at htext

/-- Canonical names hold no null character, and are in normal form if that is
the name of an encoding that refuses everything. -/
theorem canonical_spelled : ∀ r ∈ registry, '\x00' ∉ r.canonical.toList ∧
    (normalName r.canonical = "undefined" ∨ normalName r.canonical = "idna" →
      normalName r.canonical = r.canonical) := by
  simp only [registry, List.forall_mem_cons]
  simp [normalName, nameWords, isNameChar]

/-- The encodings that refuse everything have no other names. -/
theorem plain_of_refuses : ∀ r ∈ registry, r.canonical = "undefined" ∨ r.canonical = "idna" →
    r.plain = r.canonical ∧ r.others = [] := by
  simp only [registry, List.forall_mem_cons]
  simp

theorem of_registered? {name : String} {r : Registered} (h : registered? name = some r) :
    r ∈ registry ∧ (r.plain = name ∨ r.others ≠ []) := by
  unfold registered? at h
  refine ⟨List.mem_of_find?_eq_some h, ?_⟩
  have hnamed := List.find?_some h
  simp only [Bool.or_eq_true, beq_iff_eq, List.contains_iff_mem] at hnamed
  rcases hnamed with (hplain | hother) | hspaced
  · exact .inl hplain
  · exact .inr (List.ne_nil_of_mem hother)
  · exact .inr (List.ne_nil_of_mem hspaced)

theorem canonicalName_eq_ok {name c : String} (h : canonicalName name = .ok c) :
    ∃ r ∈ registry, r.canonical = c ∧ (r.plain = normalName name ∨ r.others ≠ []) := by
  rw [canonicalName] at h
  split at h
  · cases h
  · split at h
    · next r hr =>
      obtain ⟨hmem, hnamed⟩ := of_registered? hr
      exact ⟨r, hmem, Except.ok.inj h, hnamed⟩
    · cases h

theorem canonicalName_eq_error {name : String} {e : Error} (h : canonicalName name = .error e) :
    e.isReported = true ∨ e = .nullInName ∧ '\x00' ∈ name.toList := by
  rw [canonicalName] at h
  split at h
  · next hnull =>
    cases h
    exact .inr ⟨rfl, by simpa using hnull⟩
  · split at h
    · cases h
    · cases h
      exact .inl rfl

/-- A canonical name stands for an encoding that refuses everything only if it
is the name of that encoding. -/
theorem eq_of_canonicalName {name c target : String} (h : canonicalName name = .ok c)
    (htarget : target = "undefined" ∨ target = "idna") (hc : canonicalName c = .ok target) :
    c = target := by
  obtain ⟨r, hr, rfl, -⟩ := canonicalName_eq_ok h
  obtain ⟨r', hr', rfl, hplain⟩ := canonicalName_eq_ok hc
  obtain ⟨hsame, hothers⟩ := plain_of_refuses r' hr' htarget
  have hnormal : r'.canonical = normalName r.canonical := by
    rw [← hsame]
    exact hplain.resolve_right fun hne => hne hothers
  rw [hnormal] at htarget ⊢
  exact ((canonical_spelled r hr).2 htarget).symm

section Canonical

variable [Codecs] {name c : String} (h : canonicalName name = .ok c) {way : Conversion} {e : Error}

include h

/-- Looking up the codec of a canonical name fails in a way that is reported,
or because the encoding refuses everything. -/
theorem ofName_canonical_eq_error (he : ofName way c = .error e) :
    e.isReported = true ∨ ∃ message, Refuses way c message ∧ e = .refusingEncoding way message := by
  have hlookup := he
  rcases andThen_eq_error_iff.mp he with he | ⟨canonical, hcanonical, he⟩
  · obtain ⟨r, hr, rfl, -⟩ := canonicalName_eq_ok h
    obtain hreported | ⟨-, hnull⟩ := canonicalName_eq_error he
    · exact .inl hreported
    · exact absurd hnull (canonical_spelled r hr).1
  · split at he
    · cases he
    · cases he
    · cases he
    · cases he
    · cases he
      obtain rfl := eq_of_canonicalName h (.inl rfl) hcanonical
      exact .inr ⟨_, .undefined hlookup, rfl⟩
    · cases he
      obtain rfl := eq_of_canonicalName h (.inr rfl) hcanonical
      exact .inr ⟨_, .idna hlookup, rfl⟩
    · left
      split at he
      · cases he
        rfl
      · split at he
        · cases he
        · cases he
          rfl

/-- Converting text in the encoding of a canonical name fails in a way that is
reported, or because the encoding refuses what it is given. -/
theorem Fails.of_canonical (he : Fails c way e) :
    e.isReported = true ∨ ∃ message, Refuses way c message ∧ e = .refusingEncoding way message := by
  cases he with
  | codec he => exact ofName_canonical_eq_error h he
  | bytes hcodec hraw hzero hmessage => exact .inr ⟨_, .bytes hcodec hraw hzero hmessage, rfl⟩
  | text hcodec hmessage => exact .inr ⟨_, .text hcodec hmessage, rfl⟩

end Canonical

end Encoding

/-! ## scripts -/

theorem Error.isReported_of_isContentFault {e : Error} (h : e.isContentFault = true) :
    e.isReported = true := by
  simp [isReported, h]

/-- Reading a code fails on the code, or on decoding its texts. -/
theorem Image.decode_eq_error [Codecs] {image : Image} {dialect : Dialect} {encoding : String}
    {interrupted : Interrupted} (h : image.decode dialect encoding = .error interrupted) :
    interrupted.error.isContentFault = true ∨
      Encoding.Fails encoding .decoding interrupted.error := by
  obtain ⟨start, -, -, -, ⟨offset, htext⟩ | ⟨cause, _, _, hcause, -⟩⟩ := Code.decode_eq_error h
  · rw [Pool.Index.stringAt_ofPool] at htext
    exact .inr (Encoding.fails_of_decodeText (Pool.zero_notMem_stringAt _ _) htext)
  · exact .inl (by rw [hcause]; rfl)

theorem Image.load_eq_error {data : Bytes} {e : Error} (h : load data = .error e) :
    e.isContentFault = true := by
  rw [load] at h
  split at h
  · cases h
    rfl
  split at h
  · cases h
    rfl
  split at h
  · cases h
    rfl
  split at h
  · cases h
    rfl
  · cases h

/-- Loading fails on the content of a script, or on decoding its texts. -/
theorem Session.isContentFault_of_load [Codecs] {data : Bytes} {options : Options}
    {interrupted : Interrupted} (h : load data options = .error interrupted) :
    interrupted.error.isContentFault = true ∨
      Encoding.Fails options.encoding .decoding interrupted.error := by
  rw [load] at h
  split at h
  · next e hload =>
    cases h
    exact .inl (Image.load_eq_error hload)
  · rcases andThen_eq_error_iff.mp h with h | ⟨d, -, h⟩
    · exact Image.decode_eq_error h
    · cases h

theorem Session.load_eq_error [Codecs] {data : Bytes} {options : Options}
    {interrupted : Interrupted} (h : load data options = .error interrupted) :
    interrupted.error.isReported = true ∨
      Encoding.Fails options.encoding .decoding interrupted.error :=
  (isContentFault_of_load h).imp_left Error.isReported_of_isContentFault

/-- A failure that is reported, or one of decoding a text. -/
theorem Image.storedTexts_eq_error [Codecs] {image : Image} {refs : List Int} {encoding : String}
    {e : Error} (h : image.storedTexts refs encoding = .error e) :
    e.isReported = true ∨ Encoding.Fails encoding .decoding e := by
  obtain ⟨reference, -, h⟩ := exists_of_mapM_eq_error h
  split at h
  · cases h
    exact .inl rfl
  · rcases andThen_eq_error_iff.mp h with h | ⟨text, -, h⟩
    · obtain ⟨rfl, -⟩ | htext := Pool.Index.resolve_eq_error h
      · exact .inl rfl
      · rw [Pool.Index.stringAt_ofPool] at htext
        exact .inr (Encoding.fails_of_decodeText (Pool.zero_notMem_stringAt _ _) htext)
    · cases h

theorem Session.entries_eq_error [Codecs] {s : Session} {e : Error} (h : s.entries = .error e) :
    e.isReported = true ∨ Encoding.Fails s.options.encoding .decoding e := by
  rcases andThen_eq_error_iff.mp h with h | ⟨texts, -, h⟩
  · exact Image.storedTexts_eq_error h
  · cases h

/-! ## revisions -/

namespace Pool.Builder

variable {b b' : Builder} {reference : Int} {e : Error}

theorem place_eq_error {offset : Nat} (h : b.place offset reference = .error e) :
    e.isReported = true := by
  rw [place] at h
  split at h
  · cases h
    rfl
  · cases h

theorem addRaw_eq_error {raw : Bytes} (h : b.addRaw raw reference = (b', .error e)) :
    e.isReported = true := by
  rw [addRaw] at h
  split at h
  · exact place_eq_error (Prod.mk.inj h).2
  · exact place_eq_error (Prod.mk.inj h).2

theorem add_eq_error [Codecs] {text : String} (h : b.add text reference = (b', .error e)) :
    e.isReported = true ∨ Encoding.Fails b.encoding .encoding e := by
  rw [add] at h
  split at h
  · next hencode =>
    cases h
    rcases andThen_eq_error_iff.mp hencode with h | ⟨codec, hcodec, h⟩
    · exact .inr (.codec h)
    · split at h
      · cases h
      · cases h
        exact .inl rfl
      · next message hmessage =>
        cases h
        exact .inr (.text hcodec hmessage)
  · exact .inl (addRaw_eq_error h)

end Pool.Builder

namespace Revision

variable [Codecs] {r : Revision} {image : Image} {e : Error}

theorem contribute_eq_error {index : Pool.Index} {b b' : Pool.Builder} {stored : Resolved}
    (h : r.contribute image index b stored = (b', .error e)) :
    e.isReported = true ∨ Encoding.Fails b.encoding .encoding e := by
  -- adding a string fails as the builder does
  have hadded : ∀ x : Pool.Builder × Except Error Placement,
      (x.1, x.2.map some) = (b', .error e) → x = (b', .error e) := by
    rintro ⟨b₁, e₁ | p⟩ h
    · simpa [Except.map] using h
    · simp [Except.map] at h
  rw [contribute] at h
  split at h
  · exact Pool.Builder.add_eq_error (hadded _ h)
  · cases h
  · exact .inl (Pool.Builder.addRaw_eq_error (hadded _ h))

/-- Strings are added in the encoding of new texts, up to the first that
fails. -/
theorem addAll_eq_error {draft draft' : Draft} {stored : List Resolved}
    (hencoding : draft.builder.encoding = r.outputEncoding)
    (h : r.addAll image (.ofPool image.pool) draft stored = (draft', .error e)) :
    e.isReported = true ∨ Encoding.Fails r.outputEncoding .encoding e := by
  induction stored generalizing draft with
  | nil => cases h
  | cons s stored ih =>
      obtain ⟨builder, placements, patches⟩ := draft
      rw [addAll] at h
      split at h
      · next hcontribute =>
        cases h
        rw [← hencoding]
        exact contribute_eq_error hcontribute
      · next b hcontribute =>
        obtain ⟨-, rfl, -⟩ | ⟨-, _, _, -, -, hnone⟩ :=
          (contribute_eq_ok_iff hencoding).mp hcontribute
        · exact ih hencoding h
        · cases hnone
      · next b placement hcontribute =>
        obtain ⟨-, -, hsome⟩ | ⟨-, raw, p, -, hadd, -⟩ :=
          (contribute_eq_ok_iff hencoding).mp hcontribute
        · cases hsome
        · exact ih ((Pool.Builder.addRaw_eq_ok hadd).1.encoding.trans hencoding) h

theorem result_eq_error {e : Error} (h : (r.run image).result = .error e) :
    e.isReported = true ∨ Encoding.Fails r.inputEncoding .decoding e ∨
      Encoding.Fails r.outputEncoding .encoding e := by
  rcases andThen_eq_error_iff.mp (result_eq_error_iff.mp h) with h | ⟨stored, -, h⟩
  · exact (Image.storedTexts_eq_error h).imp_right .inl
  · cases hadd : r.addAll image (.ofPool image.pool) (r.start image) stored with
    | mk draft finished =>
        rw [hadd] at h
        rcases andThen_eq_error_iff.mp h with hfinished | ⟨_, -, h⟩
        · obtain rfl : finished = .error e := hfinished
          exact (addAll_eq_error rfl hadd).imp_right .inr
        · cases h

end Revision

/-! ## sheets and archives -/

namespace Sheet

theorem recordsFrom_eq_error {read records : List Record} {lines : List (Nat × List Char)}
    {e : Error} (h : recordsFrom read lines = (records, some e)) : e.isReported = true := by
  fun_induction recordsFrom read lines with
  | case1 => cases h
  | case2 _ _ _ _ _ _ _ ih => exact ih h
  | case3 =>
      cases h
      rfl

theorem parse_eq_error {text : String} {e : Error} (h : parse text = .error e) :
    e.isReported = true := by
  rw [parse] at h
  split at h
  · cases h
  · next hrecords =>
    cases h
    exact recordsFrom_eq_error hrecords

end Sheet

namespace Archive

variable {data : Bytes} {e : Error}

theorem entriesFrom_eq_error {size index offset : Nat} {read : List Entry} {body : Bytes}
    {lengths : List Nat} (h : entriesFrom size read index offset body lengths = .error e) :
    e.isReported = true := by
  fun_induction entriesFrom size read index offset body lengths with
  | case1 => cases h
  | case2 =>
      cases h
      rfl
  | case3 _ _ _ _ _ _ ih => exact ih h
  | case4 =>
      cases h
      rfl
  | case5 _ _ _ _ _ _ _ _ _ ih => exact ih h

theorem readIndex_eq_error (h : readIndex data = .error e) : e.isReported = true := by
  rw [readIndex] at h
  split at h
  · cases h
    rfl
  · dsimp only at h
    split at h
    · cases h
      rfl
    · split at h
      · cases h
        rfl
      · exact entriesFrom_eq_error h

theorem payload_eq_error {entry : Entry} (h : payload data entry = .error e) :
    e.isReported = true := by
  rw [payload] at h
  split at h
  · cases h
  · split at h
    · rw [Compression.expandRange] at h
      split at h
      · cases h
        split <;> rfl
      · cases h
    · cases h

theorem numberedFiles_eq_error {directory : String} {names : List String}
    (h : numberedFiles directory names = .error e) : e.isReported = true := by
  rw [numberedFiles] at h
  split at h
  · cases h
    rfl
  · split at h
    · cases h
      rfl
    · cases h

/-- A number that a 32-bit field of the archive of some payloads would have to
hold, and cannot. -/
def Overflows (payloads : List Bytes) (n : Nat) : Prop :=
  0x100000000 ≤ n ∧
    (n = payloads.length ∨ ∃ data ∈ payloads, n = data.length ∨ n = (bodyOf data).length)

theorem pack_eq_error {n : Nat} (h : Bytes.pack 4 n = .error e) :
    0x100000000 ≤ n ∧ e = .fieldRange 32 n := by
  rw [Bytes.pack] at h
  split at h
  · cases h
  · next hout =>
    cases h
    refine ⟨?_, rfl⟩
    have hpow : Nat.pow 256 4 = 0x100000000 := rfl
    omega

theorem packEntry_eq_error (h : packEntry data none = .error e) :
    0x100000000 ≤ data.length ∧ e = .fieldRange 32 data.length := by
  rw [packEntry] at h
  split at h
  · cases h
  · rcases andThen_eq_error_iff.mp h with h | ⟨size, -, h⟩
    · exact pack_eq_error h
    · split at h <;> cases h

/-- Building an archive fails without payloads, or on a number that does not
fit its field. -/
theorem build_eq_error {payloads : List Bytes} (h : build payloads = .error e) :
    e.isReported = true ∨ ∃ n, Overflows payloads n ∧ e = .fieldRange 32 n := by
  rw [build] at h
  split at h
  · cases h
    exact .inl rfl
  · right
    rcases andThen_eq_error_iff.mp h with h | ⟨bodies, hbodies, h⟩
    · obtain ⟨data, hdata, h⟩ := exists_of_mapM_eq_error h
      obtain ⟨hle, rfl⟩ := packEntry_eq_error h
      exact ⟨_, ⟨hle, .inr ⟨data, hdata, .inl rfl⟩⟩, rfl⟩
    · rcases andThen_eq_error_iff.mp h with h | ⟨count, -, h⟩
      · obtain ⟨hle, rfl⟩ := pack_eq_error h
        have hlength := (mapM_eq_ok_iff.mp hbodies).length_eq
        exact ⟨_, ⟨hle, .inl hlength.symm⟩, rfl⟩
      · rcases andThen_eq_error_iff.mp h with h | ⟨lengths, -, h⟩
        · obtain ⟨body, hbody, h⟩ := exists_of_mapM_eq_error h
          obtain ⟨hle, rfl⟩ := pack_eq_error h
          obtain ⟨data, hdata, hpacked⟩ := exists_of_mem_mapM hbodies hbody
          obtain ⟨-, rfl⟩ := packEntry_eq_ok_iff.mp hpacked
          exact ⟨_, ⟨hle, .inr ⟨data, hdata, .inr rfl⟩⟩, rfl⟩
        · cases h

end Archive

end Scenario
