import Mathlib.Data.List.TakeWhile
import Scenario.Pool.Builder
import Scenario.Proofs.Traverse

/-!
# Scenario.Proofs.Builder

What a pool under construction holds.

A builder writes each byte string once and remembers its offset.  Behind the
base lie the strings in the order of their first adding, each with the
terminator, and each where its offset says (`Pool.EntriesLaid`).

Every way of adding, also one that fails, only makes a builder grow
(`Pool.Builder.Grows`): strings keep their offsets and the pool keeps its
bytes.  So what is known of one string after its adding is still known when
the pool is finished (`Pool.Builder.exists_split_of_offset?`).
-/

namespace Scenario

/-! ## dictionaries -/

/-- The pairs of a dictionary are its keys with their values. -/
theorem Ordered.mem_toList_iff {κ ν : Type} [Ord κ] [DecidableEq κ] (d : Ordered κ ν) (key : κ)
    (value : ν) : (key, value) ∈ d.toList ↔ d.get? key = some value := by
  rw [d.get?_eq_lookup]
  constructor
  · intro hmem
    obtain ⟨i, hi⟩ := List.mem_iff_getElem?.mp hmem
    exact lookup_of_getElem? d.nodup_keys hi
  · intro hlookup
    obtain ⟨before, behind, hsplit, -⟩ := List.lookup_eq_some_iff.mp hlookup
    rw [hsplit]
    simp

/-- A key without a value is in no pair. -/
theorem Ordered.forall_ne_of_get?_eq_none {κ ν : Type} [Ord κ] [DecidableEq κ] {d : Ordered κ ν}
    {key : κ} (h : d.get? key = none) : ∀ pair ∈ d.toList, pair.1 ≠ key := by
  rintro ⟨k, value⟩ hmem rfl
  rw [d.mem_toList_iff, h] at hmem
  cases hmem

/-- Bytes of a text in the encoding of that name, if it has a codec that can
hold the text. -/
def Encoding.bytesOf? [Codecs] (name text : String) : Option Bytes :=
  (Encoding.ofName .encoding name).toOption.bind fun codec => (codec.encode text).toOption

namespace Pool

/-! ## strings of a pool -/

theorem stringAt_natCast (pool : Bytes) (offset : Nat) :
    stringAt pool offset = (pool.drop offset).takeWhile (· != 0) := by
  rw [stringAt, Bytes.bound, if_neg (by omega), Int.toNat_natCast]

/-- A string has no zero byte. -/
theorem zero_notMem_stringAt (pool : Bytes) (offset : Int) :
    (0 : UInt8) ∉ stringAt pool offset := by
  intro hmem
  have := List.all_eq_true.mp List.all_takeWhile 0 hmem
  simp at this

/-- A string is read up to its first zero byte. -/
theorem stringAt_append_terminated (before raw behind : Bytes) :
    stringAt (before ++ (raw ++ 0 :: behind)) before.length = raw.takeWhile (· != 0) := by
  rw [stringAt_natCast, List.drop_left]
  induction raw with
  | nil => simp
  | cons b raw ih => simp only [List.cons_append, List.takeWhile_cons, ih]

/-- Bytes behind a pool are not seen by a string that has its terminator. -/
theorem stringAt_append_of_mem {pool : Bytes} {offset : Nat} (hmem : (0 : UInt8) ∈ pool.drop offset)
    (behind : Bytes) : stringAt (pool ++ behind) offset = stringAt pool offset := by
  have hle : offset ≤ pool.length := by
    by_contra hlt
    rw [List.drop_eq_nil_of_le (by omega)] at hmem
    cases hmem
  rw [stringAt_natCast, stringAt_natCast, List.drop_append_of_le_length hle, List.takeWhile_append,
    if_neg]
  -- a string as long as what is left of the pool would hold the zero byte
  intro hlength
  have hall := (List.takeWhile_prefix (· != 0)).eq_of_length hlength
  exact zero_notMem_stringAt pool offset (by rw [stringAt_natCast, hall]; exact hmem)

/-- A string without a terminator goes on behind its pool. -/
theorem stringAt_append_of_notMem {pool : Bytes} {offset : Nat} (hle : offset ≤ pool.length)
    (hmem : (0 : UInt8) ∉ pool.drop offset) (behind : Bytes) :
    stringAt (pool ++ behind) offset =
      stringAt pool offset ++ stringAt (pool ++ behind) pool.length := by
  have hall : ∀ b ∈ pool.drop offset, (b != 0) = true :=
    fun b hb => bne_iff_ne.mpr fun h0 => hmem (h0 ▸ hb)
  rw [stringAt_natCast, stringAt_natCast, stringAt_natCast, List.drop_append_of_le_length hle,
    List.takeWhile_append_of_pos hall, List.drop_left, List.takeWhile_eq_self_iff.mpr hall]

/-- Bytes behind a pool that ends with a zero byte are not seen from inside
of it. -/
theorem stringAt_append {pool : Bytes} (hlast : pool.getLast? = some 0) (behind : Bytes)
    {offset : Nat} (h : offset < pool.length) :
    stringAt (pool ++ behind) offset = stringAt pool offset := by
  apply stringAt_append_of_mem
  rw [List.getLast?_eq_getElem?] at hlast
  refine List.mem_iff_getElem?.mpr ⟨pool.length - 1 - offset, ?_⟩
  rw [List.getElem?_drop, ← hlast]
  congr 1
  omega

/-! ## entries -/

/-- Strings with their offsets, laid out from `start` on, with the terminator
behind each of them. -/
inductive EntriesLaid (terminator : Bytes) : (start : Nat) → List (Bytes × Nat) → Bytes → Prop where
  | nil {start : Nat} : EntriesLaid terminator start [] []
  | cons {start : Nat} {entries : List (Bytes × Nat)} {bs : Bytes} (raw : Bytes)
      (rest : EntriesLaid terminator (start + (raw ++ terminator).length) entries bs) :
      EntriesLaid terminator start ((raw, start) :: entries) (raw ++ terminator ++ bs)

namespace EntriesLaid

variable {terminator : Bytes} {start : Nat} {entries : List (Bytes × Nat)} {bs : Bytes}

/-- A string can be added behind the last entry. -/
theorem concat (h : EntriesLaid terminator start entries bs) (raw : Bytes) :
    EntriesLaid terminator start (entries ++ [(raw, start + bs.length)])
      (bs ++ (raw ++ terminator)) := by
  induction h with
  | nil => simpa using cons raw nil
  | @cons start entries bs first rest ih =>
      have hoffset : start + (first ++ terminator ++ bs).length =
          start + (first ++ terminator).length + bs.length := by
        rw [List.length_append, Nat.add_assoc]
      rw [List.cons_append, List.append_assoc _ bs, hoffset]
      exact cons first ih

/-- Each string lies where its offset says. -/
theorem exists_split_of_mem (h : EntriesLaid terminator start entries bs) {raw : Bytes}
    {offset : Nat} (hmem : (raw, offset) ∈ entries) :
    ∃ before behind, bs = before ++ (raw ++ terminator ++ behind) ∧
      offset = start + before.length := by
  induction h with
  | nil => cases hmem
  | @cons start entries bs first rest ih =>
      rcases List.mem_cons.mp hmem with heq | hmem
      · obtain ⟨rfl, rfl⟩ := Prod.mk.inj heq
        exact ⟨[], bs, rfl, rfl⟩
      · obtain ⟨before, behind, rfl, hoffset⟩ := ih hmem
        refine ⟨first ++ terminator ++ before, behind, by simp, ?_⟩
        rw [hoffset, Nat.add_assoc, ← List.length_append]

end EntriesLaid

/-! ## builders -/

namespace Builder

/-- The pool so far is the base with the entries behind it. -/
def Behind (base : Bytes) (b : Builder) : Prop :=
  ∃ bs, b.value = base ++ bs ∧ EntriesLaid b.terminator base.length b.cache.toList bs

theorem behind_start (encoding : String) (base : Bytes) (allowOverflow : Bool)
    (terminator : Bytes) : (start encoding base allowOverflow terminator).Behind base :=
  ⟨[], by simp [value, start], .nil⟩

/-- A string lies where its offset says. -/
theorem Behind.exists_split {base : Bytes} {b : Builder} (h : b.Behind base) {raw : Bytes}
    {offset : Nat} (hraw : b.offset? raw = some offset) :
    ∃ before behind, b.value = before ++ (raw ++ b.terminator ++ behind) ∧
      offset = before.length := by
  obtain ⟨bs, hvalue, hlaid⟩ := h
  obtain ⟨before, behind, rfl, rfl⟩ :=
    hlaid.exists_split_of_mem ((b.cache.mem_toList_iff raw offset).mpr hraw)
  exact ⟨base ++ before, behind, by rw [hvalue, List.append_assoc base], List.length_append.symm⟩

/-- A builder is one that came of another by adding strings. -/
structure Grows (b b' : Builder) : Prop where
  encoding : b'.encoding = b.encoding
  allowOverflow : b'.allowOverflow = b.allowOverflow
  terminator : b'.terminator = b.terminator
  offset? : ∀ raw offset, b.offset? raw = some offset → b'.offset? raw = some offset
  behind : ∀ base, b.Behind base → b'.Behind base

namespace Grows

theorem refl (b : Builder) : b.Grows b := ⟨rfl, rfl, rfl, fun _ _ h => h, fun _ h => h⟩

theorem trans {a b c : Builder} (h : a.Grows b) (h' : b.Grows c) : a.Grows c :=
  ⟨h'.encoding.trans h.encoding, h'.allowOverflow.trans h.allowOverflow,
    h'.terminator.trans h.terminator, fun raw offset ho => h'.offset? raw offset (h.offset? _ _ ho),
    fun base hb => h'.behind base (h.behind base hb)⟩

end Grows

/-- Writing a new string. -/
theorem grows_write {b : Builder} {raw : Bytes} (h : b.offset? raw = none) :
    b.Grows (b.write raw) where
  encoding := rfl
  allowOverflow := rfl
  terminator := rfl
  offset? := by
    intro other offset hother
    have hne : raw ≠ other := by
      rintro rfl
      rw [h] at hother
      cases hother
    simp only [Builder.offset?, write, Ordered.get?_set, if_neg hne]
    exact hother
  behind := by
    rintro base ⟨bs, hvalue, hlaid⟩
    have hsize : b.buffer.size = base.length + bs.length := by
      rw [← List.length_append, ← hvalue, value, Array.length_toList]
    have hcache : (b.write raw).cache.toList =
        b.cache.toList ++ [(raw, base.length + bs.length)] := by
      simp only [write, Ordered.toList_set, hsize,
        Ordered.assign_of_forall_ne _ (Ordered.forall_ne_of_get?_eq_none h)]
    refine ⟨bs ++ (raw ++ b.terminator), ?_, ?_⟩
    · rw [← List.append_assoc, ← hvalue]
      simp [write, value]
    · rw [hcache]
      exact hlaid.concat raw

/-- Adding a byte string gives it an offset, which is that of its placement
unless it is refused. -/
theorem addRaw_spec (b : Builder) (raw : Bytes) (reference : Int) :
    b.Grows (b.addRaw raw reference).1 ∧ ∃ offset,
      (b.addRaw raw reference).1.offset? raw = some offset ∧
      (b.addRaw raw reference).2 = b.place offset reference := by
  rw [addRaw]
  split
  · next offset h => exact ⟨.refl b, offset, h, rfl⟩
  · next h =>
    refine ⟨grows_write h, b.buffer.size, ?_, rfl⟩
    simp [Builder.offset?, write, Ordered.get?_set]

/-- A placement is refused only for an offset that a reference cannot hold. -/
theorem place_eq_ok {b : Builder} {offset : Nat} {reference : Int} {p : Placement}
    (h : b.place offset reference = .ok p) :
    p = ⟨offset, reference⟩ ∧ (b.allowOverflow = false → offset ≤ Placement.maxOffset) := by
  rw [place] at h
  split at h
  · cases h
  · next hfits =>
    refine ⟨(Except.ok.inj h).symm, fun hoverflow => ?_⟩
    simpa [hoverflow] using hfits

/-- A byte string that is placed has the offset of its placement. -/
theorem addRaw_eq_ok {b b' : Builder} {raw : Bytes} {reference : Int} {p : Placement}
    (h : b.addRaw raw reference = (b', .ok p)) :
    b.Grows b' ∧ b'.offset? raw = some p.offset ∧
      (b.allowOverflow = false → p.offset ≤ Placement.maxOffset) := by
  obtain ⟨hgrows, offset, hoffset, hplace⟩ := b.addRaw_spec raw reference
  rw [h] at hgrows hoffset hplace
  obtain ⟨rfl, hfits⟩ := place_eq_ok hplace.symm
  exact ⟨hgrows, hoffset, hfits⟩

/-- A text has bytes in a builder as it has in the builder's encoding. -/
theorem encodeText_eq_ok_iff [Codecs] {b : Builder} {text : String} {reference : Int}
    {raw : Bytes} :
    b.encodeText text reference = .ok raw ↔ Encoding.bytesOf? b.encoding text = some raw := by
  rw [encodeText, andThen_eq_ok_iff, Encoding.bytesOf?]
  cases Encoding.ofName .encoding b.encoding with
  | error e => simp [Except.toOption]
  | ok codec =>
    simp only [Except.ok.injEq, exists_eq_left', Except.toOption, Option.bind_some]
    split
    · next raw' hraw => simp [hraw]
    · next hraw => simp [hraw]
    · next message hraw => simp [hraw]

/-- A text is added as its bytes. -/
theorem add_eq_ok_iff [Codecs] {b b' : Builder} {text : String} {reference : Int} {p : Placement} :
    b.add text reference = (b', .ok p) ↔
      ∃ raw, Encoding.bytesOf? b.encoding text = some raw ∧
        b.addRaw raw reference = (b', .ok p) := by
  simp only [← @encodeText_eq_ok_iff _ b text reference]
  rw [add]
  cases b.encodeText text reference <;> simp

end Builder

end Pool

end Scenario
