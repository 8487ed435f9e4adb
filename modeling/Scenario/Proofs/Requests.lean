import Scenario.Proofs.Deduplication

/-!
# Scenario.Proofs.Requests

Builders that serve any requests in any order, and go on after those that
fail.

1. `Pool.Builder.Filled` — behind the base lie the strings that were written,
   each once and each where its offset says.  Every request keeps this
   (`Pool.Builder.grows_serve`), also one that is refused for its offset: its
   string has been written by then.
2. `Pool.Builder.Serves` — what a single request does to the strings and what
   it is answered.
3. `Pool.Builder.serves_after` — both, behind any run of requests.
-/

namespace Scenario.Pool

/-! ## requests -/

/-- A string that a builder is asked to add, as a text or as bytes, and the
reference that asks. -/
inductive Request where
  | text (text : String) (reference : Int)
  | raw (raw : Bytes) (reference : Int)

namespace Request

/-- The reference that asks. -/
def reference : Request → Int
  | .text _ reference | .raw _ reference => reference

/-- The bytes to add.  A text may have none in the encoding. -/
def bytes? [Codecs] (encoding : String) : Request → Option Bytes
  | .text s _ => Encoding.bytesOf? encoding s
  | .raw bytes _ => some bytes

end Request

namespace Builder

/-- Serves one request. -/
def serve [Codecs] (b : Builder) : Request → Builder × Except Error Placement
  | .text text reference => b.add text reference
  | .raw raw reference => b.addRaw raw reference

/-- The builder behind a run of requests, whatever became of each. -/
def after [Codecs] (b : Builder) (requests : List Request) : Builder :=
  requests.foldl (fun b request => (b.serve request).1) b

/-- The field that a reference to the string at an offset gets. -/
def fieldAt (allowOverflow : Bool) (offset : Nat) (reference : Int) : Except Error Nat :=
  if offset ≤ 0xFFFF then .ok offset
  else if allowOverflow then .ok (offset % 65536)
  else .error (.poolOverflow offset reference)

variable {b : Builder} {request : Request} {base raw : Bytes}

theorem map_field_place (b : Builder) (offset : Nat) (reference : Int) :
    (b.place offset reference).map Placement.field =
      fieldAt b.allowOverflow offset reference := by
  have hplace : b.place offset reference =
      if 0xFFFF < offset ∧ b.allowOverflow = false then .error (.poolOverflow offset reference)
      else .ok ⟨offset, reference⟩ := by
    simp [place, Placement.maxOffset]
  rw [hplace, fieldAt]
  by_cases hfits : offset ≤ 0xFFFF
  · rw [if_neg (by omega), if_pos hfits]
    exact congrArg Except.ok (Nat.mod_eq_of_lt (by simp only [Placement.maxOffset]; omega))
  · rw [if_neg hfits]
    cases b.allowOverflow with
    | false =>
        rw [if_pos ⟨by omega, rfl⟩]
        rfl
    | true =>
        rw [if_neg (by simp)]
        rfl

/-- A request with bytes is served by adding them. -/
theorem serve_of_bytes? [Codecs] (h : request.bytes? b.encoding = some raw) :
    b.serve request = b.addRaw raw request.reference := by
  cases request with
  | raw bytes reference =>
      obtain rfl := Option.some.inj h
      rfl
  | text text reference =>
      rw [serve, add, encodeText_eq_ok_iff.mpr h]
      rfl

/-- A request without bytes fails and changes nothing. -/
theorem serve_of_bytes?_eq_none [Codecs] (h : request.bytes? b.encoding = none) :
    ∃ e, b.serve request = (b, .error e) := by
  cases request with
  | raw bytes reference => cases h
  | text text reference =>
      rw [serve, add]
      cases hencode : b.encodeText text reference with
      | error e => exact ⟨e, rfl⟩
      | ok raw =>
          rw [Request.bytes?, encodeText_eq_ok_iff.mp hencode] at h
          cases h

theorem grows_serve [Codecs] (b : Builder) (request : Request) : b.Grows (b.serve request).1 := by
  cases hbytes : request.bytes? b.encoding with
  | some raw =>
      rw [serve_of_bytes? hbytes]
      exact (b.addRaw_spec raw request.reference).1
  | none =>
      obtain ⟨e, he⟩ := serve_of_bytes?_eq_none hbytes
      rw [he]
      exact .refl b

/-- Requests only make a builder grow. -/
theorem grows_after [Codecs] (b : Builder) (requests : List Request) : b.Grows (b.after requests) :=
    by
  induction requests generalizing b with
  | nil => exact .refl b
  | cons request requests ih => exact (b.grows_serve request).trans (ih _)

/-! ## the strings of a builder -/

/-- Behind the base lie the strings in the order in which they were first
added, each once and with its terminator, and the offset of each is where it
begins. -/
structure Filled (base terminator : Bytes) (b : Builder) : Prop where
  value : b.value = base ++ pack terminator b.strings
  nodup : b.strings.Nodup
  offset : ∀ {before behind raw offset}, b.cache.toList = before ++ (raw, offset) :: behind →
    offset = base.length + (pack terminator (before.map (·.1))).length

theorem Behind.filled (h : b.Behind base) : b.Filled base b.terminator := by
  obtain ⟨bs, hvalue, hlaid⟩ := h
  refine ⟨?_, b.nodup_strings, hlaid.offset_eq_of_split⟩
  rw [hvalue, hlaid.eq_pack, strings]

/-- What one request does to a builder, and what it is answered: `b'` is the
builder behind it. -/
structure Serves [Codecs] (encoding : String) (allowOverflow : Bool) (b : Builder)
    (request : Request) (b' : Builder) (answer : Except Error Placement) : Prop where
  /-- A string that was added before changes nothing. -/
  known : ∀ raw ∈ b.strings, request.bytes? encoding = some raw → b' = b
  /-- Another joins the strings, also if it is refused for its offset. -/
  new : ∀ raw ∉ b.strings, request.bytes? encoding = some raw → b'.strings = b.strings ++ [raw]
  /-- A text that has no bytes fails and changes nothing. -/
  without : request.bytes? encoding = none → b' = b ∧ ∃ e, answer = .error e
  /-- In particular one that the encoding cannot hold. -/
  unencodable : ∀ text name reference,
    answer = .error (.unencodable text name reference) → b' = b
  /-- A string is answered by its offset if that fits a field, and otherwise as
  the builder treats overflows. -/
  answered : ∀ raw, request.bytes? encoding = some raw → ∃ offset,
    b'.offset? raw = some offset ∧
      answer.map Placement.field = fieldAt allowOverflow offset request.reference
  /-- So every field that is answered has 16 bits, and where overflows are
  refused it is the offset of the string. -/
  fits : ∀ p, answer = .ok p → p.field < 65536 ∧
    (allowOverflow = false → ∃ raw, request.bytes? encoding = some raw ∧
      b'.offset? raw = some p.field)

/-- Errors of placing a string are not about its text. -/
theorem place_ne_unencodable (b : Builder) (offset : Nat) (reference : Int) (text name : String)
    (place : Int) : b.place offset reference ≠ .error (.unencodable text name place) := by
  rw [Builder.place]
  split <;> simp

theorem addRaw_of_mem (h : raw ∈ b.strings) (reference : Int) : (b.addRaw raw reference).1 = b := by
  obtain ⟨offset, hoffset⟩ := mem_strings_iff.mp h
  rw [addRaw, hoffset]

/-- A field that is answered is the offset modulo 65536. -/
theorem of_fieldAt_eq_ok {allowOverflow : Bool} {offset field : Nat} {reference : Int}
    (h : fieldAt allowOverflow offset reference = .ok field) :
    field < 65536 ∧ (allowOverflow = false → field = offset) := by
  rw [fieldAt] at h
  split at h
  · cases h
    exact ⟨by omega, fun _ => rfl⟩
  · split at h
    · next hoverflow =>
      cases h
      exact ⟨Nat.mod_lt _ (by decide), fun hrefused => by simp [hrefused] at hoverflow⟩
    · cases h

theorem serves_serve [Codecs] (b : Builder) (request : Request) :
    Serves b.encoding b.allowOverflow b request (b.serve request).1 (b.serve request).2 := by
  cases hbytes : request.bytes? b.encoding with
  | none =>
      obtain ⟨e, he⟩ := serve_of_bytes?_eq_none hbytes
      rw [he]
      refine ⟨fun _ _ _ => rfl, ?_, fun _ => ⟨rfl, e, rfl⟩, fun _ _ _ _ => rfl, ?_, ?_⟩ <;>
        simp [hbytes]
  | some raw =>
      obtain ⟨-, offset, hoffset, hplace⟩ := b.addRaw_spec raw request.reference
      have hfield := b.map_field_place offset request.reference
      rw [serve_of_bytes? hbytes, hplace]
      refine ⟨?_, ?_, by simp [hbytes], ?_, ?_, ?_⟩
      · rintro _ hmem hraw
        obtain rfl := Option.some.inj (hbytes.symm.trans hraw)
        exact addRaw_of_mem hmem _
      · rintro _ hnew hraw
        obtain rfl := Option.some.inj (hbytes.symm.trans hraw)
        rw [strings_addRaw (Prod.eta (b.addRaw raw request.reference)).symm, if_neg hnew]
      · exact fun text name place h => (place_ne_unencodable _ _ _ _ _ _ h).elim
      · rintro _ hraw
        obtain rfl := Option.some.inj (hbytes.symm.trans hraw)
        exact ⟨offset, hoffset, hfield⟩
      · intro p hp
        rw [hp] at hfield
        obtain ⟨hlt, hsame⟩ := of_fieldAt_eq_ok hfield.symm
        exact ⟨hlt, fun hrefused => ⟨raw, hbytes, by rw [hoffset, hsame hrefused]⟩⟩

/-- **Requests**: behind any run of requests, of which some may have failed, a
builder holds its base with the distinct strings that it was asked for, each
where its offset says; and every further request changes and is answered as
`Serves` says. -/
theorem serves_after [Codecs] (encoding : String) (base : Bytes) (allowOverflow : Bool)
    (terminator : Bytes) (requests : List Request) :
    let b := (start encoding base allowOverflow terminator).after requests
    b.Filled base terminator ∧ ∀ request,
      Serves encoding allowOverflow b request (b.serve request).1 (b.serve request).2 := by
  intro b
  have hgrows := (start encoding base allowOverflow terminator).grows_after requests
  have hfilled := (hgrows.behind base (behind_start ..)).filled
  rw [hgrows.terminator] at hfilled
  refine ⟨hfilled, fun request => ?_⟩
  have hserves := b.serves_serve request
  rw [hgrows.encoding, hgrows.allowOverflow] at hserves
  exact hserves

-- the second text has no bytes, and the bytes of the first come again
example : ((start "ascii" [0x21] false).after
    [.text "A" 0, .text "\u00E9" 1, .raw [0x41] 2, .raw [] 3]).value =
      [0x21, 0x41, 0x00, 0x00, 0x00, 0x00] := rfl

end Builder

end Scenario.Pool
