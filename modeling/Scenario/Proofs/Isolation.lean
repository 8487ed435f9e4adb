import Scenario.Proofs.Entries

/-!
# Scenario.Proofs.Isolation

What the reader asks of an archive, and what it reads of an entry.

`Sound` states on the bytes, without the reader, that data starts with a
plausible count and a table of lengths, that no entry ends behind the data, and
that no entry is shorter than its header unless it is empty.  `Tiled` says where
entries lie, and `Isolated` what comes of one of them and that nothing outside
its own bytes takes part in it.

1. The reader accepts exactly the sound data (`exists_readIndex_iff`).
2. An entry that it finds lies where its bytes are and has its header from there
   (`Laid.lies`), and the payload of such an entry is that of its bytes, in
   whatever data they lie (`Lies.payload`).
3. `readIndex_isolates` — both for every data.
-/

namespace Scenario.Archive

/-! ## sound data -/

/-- The length that the table gives entry `i`. -/
def lengthAt (data : Bytes) (i : Nat) : Nat := data.field (4 + 4 * i) 4

/-- Where entry `i` starts behind a table of `count` lengths. -/
def offsetAt (data : Bytes) (count i : Nat) : Nat :=
  4 + 4 * count + ((List.range i).map (lengthAt data)).sum

/-- Data that starts with the table of `count` entries, all of which lie
inside. -/
structure Sound (data : Bytes) (count : Nat) : Prop where
  count_eq : data.readUInt? 0 4 = some count
  pos : 0 < count
  lt_maxEntries : count < maxEntries
  table_le : 4 + 4 * count ≤ data.length
  end_le : ∀ i < count, offsetAt data count i + lengthAt data i ≤ data.length
  header_le : ∀ i < count, lengthAt data i ≠ 0 → entryHeaderSize ≤ lengthAt data i

theorem fieldsFrom_append {word : Bytes} (h : word.length = 4) (read : List Nat) (rest : Bytes) :
    fieldsFrom read (word ++ rest) = fieldsFrom (Bytes.toNat word :: read) rest := by
  rcases word with _ | ⟨a, _ | ⟨b, _ | ⟨c, _ | ⟨d, more⟩⟩⟩⟩ <;> simp at h
  subst h
  rfl

/-- The fields of a part of the data. -/
theorem fieldsFrom_eq_map {data : Bytes} {start count : Nat}
    (h : start + 4 * count ≤ data.length) (read : List Nat) :
    fieldsFrom read ((data.drop start).take (4 * count)) =
      read.reverse ++ (List.range count).map fun i => data.field (start + 4 * i) 4 := by
  induction count generalizing start read with
  | zero => simp [fieldsFrom]
  | succ count ih =>
      have hword : ((data.drop start).take 4).length = 4 := by
        rw [List.length_take, List.length_drop]
        omega
      have hsplit : (data.drop start).take (4 * (count + 1)) =
          (data.drop start).take 4 ++ (data.drop (start + 4)).take (4 * count) := by
        rw [Nat.mul_succ, Nat.add_comm, List.take_add, List.drop_drop]
      rw [hsplit, fieldsFrom_append hword, ih (by omega), List.range_succ_eq_map]
      simp [Bytes.field, Nat.mul_add, Nat.add_assoc, Nat.add_comm 4, Function.comp_def]

/-- A condition on the lengths of a table, first that of the first. -/
theorem forall_getElem?_cons_iff {first : Nat} {lengths : List Nat} {P : Nat → Nat → Prop} :
    (∀ i length, (first :: lengths)[i]? = some length → P i length) ↔
      P 0 first ∧ ∀ i length, lengths[i]? = some length → P (i + 1) length := by
  constructor
  · intro h
    exact ⟨h 0 first rfl, fun i length hi => h (i + 1) length (by simpa using hi)⟩
  · rintro ⟨hfirst, hrest⟩ i length hi
    cases i with
    | zero =>
        obtain rfl : first = length := by simpa using hi
        exact hfirst
    | succ i => exact hrest i length (by simpa using hi)

/-- Entries are found exactly if none of them ends behind the data or is too
short for its header. -/
theorem exists_entriesFrom_iff {size index offset : Nat} {read : List Entry} {body : Bytes}
    {lengths : List Nat} :
    (∃ entries, entriesFrom size read index offset body lengths = .ok entries) ↔
      ∀ i length, lengths[i]? = some length →
        offset + (lengths.take i).sum + length ≤ size ∧
          (length ≠ 0 → entryHeaderSize ≤ length) := by
  induction lengths generalizing read index offset body with
  | nil => simp [entriesFrom]
  | cons first lengths ih =>
      rw [entriesFrom, forall_getElem?_cons_iff]
      simp only [List.take_zero, List.sum_nil, List.take_succ_cons, List.sum_cons, Nat.add_zero,
        ← Nat.add_assoc]
      by_cases hlong : size < offset + first
      · simp [hlong, Nat.not_le.mpr hlong]
      by_cases hzero : first = 0
      · subst hzero
        rw [Nat.add_zero] at hlong
        simpa [hlong, Nat.not_lt.mp hlong] using ih
      by_cases hshort : first < entryHeaderSize
      · simp [hlong, hzero, hshort, Nat.not_le.mpr hshort]
      · simpa [hlong, hzero, hshort, Nat.not_lt.mp hlong, Nat.not_lt.mp hshort] using ih

/-- The table of `count` entries as a list. -/
theorem getElem?_table {data : Bytes} {count i length : Nat} :
    ((List.range count).map (lengthAt data))[i]? = some length ↔
      i < count ∧ lengthAt data i = length := by
  by_cases hi : i < count <;> simp [hi]

theorem take_table {data : Bytes} {count i : Nat} (h : i ≤ count) :
    ((List.range count).map (lengthAt data)).take i = (List.range i).map (lengthAt data) := by
  rw [← List.map_take, List.take_range, Nat.min_eq_left h]

/-- **Checks**: the reader accepts exactly the sound data. -/
theorem exists_readIndex_iff (data : Bytes) :
    (∃ entries, readIndex data = .ok entries) ↔ ∃ count, Sound data count := by
  rw [readIndex]
  cases hcount : data.readUInt? 0 4 with
  | none =>
      simp only [reduceCtorEq, exists_false, false_iff, not_exists]
      intro count h
      simp [h.count_eq] at hcount
  | some count =>
      have honly : (∃ n, Sound data n) ↔ Sound data count := by
        refine ⟨?_, fun h => ⟨count, h⟩⟩
        rintro ⟨n, h⟩
        obtain rfl : n = count := Option.some.inj (h.count_eq.symm.trans hcount)
        exact h
      rw [honly]
      dsimp only
      by_cases hbounds : count = 0 ∨ maxEntries ≤ count
      · simp only [hbounds, if_true, reduceCtorEq, exists_false, false_iff]
        intro h
        have := h.pos
        have := h.lt_maxEntries
        omega
      by_cases hlong : data.length < 4 + 4 * count
      · simp only [hbounds, hlong, if_true, if_false, reduceCtorEq, exists_false, false_iff]
        intro h
        have := h.table_le
        omega
      have htable : fieldsFrom [] ((data.drop 4).take (4 * count)) =
          (List.range count).map (lengthAt data) := fieldsFrom_eq_map (by omega) []
      rw [if_neg hbounds, if_neg hlong, htable, exists_entriesFrom_iff]
      simp only [getElem?_table]
      constructor
      · intro h
        refine ⟨hcount, by omega, by omega, by omega, fun i hi => ?_, fun i hi => ?_⟩
        · have hend := (h i _ ⟨hi, rfl⟩).1
          rw [take_table (Nat.le_of_lt hi)] at hend
          exact hend
        · exact (h i _ ⟨hi, rfl⟩).2
      · rintro h i _ ⟨hi, rfl⟩
        rw [take_table (Nat.le_of_lt hi)]
        exact ⟨h.end_le i hi, h.header_le i hi⟩

/-! ## entries in data -/

/-- The bytes of an entry. -/
def Entry.bytesIn (e : Entry) (data : Bytes) : Bytes := data.slice e.offset (e.offset + e.length)

/-- An entry that lies in data: it is that of its bytes there. -/
structure Lies (data : Bytes) (e : Entry) : Prop where
  shaped : Shaped (e.bytesIn data)
  exists_eq : ∃ index offset, e = entryAt index offset (e.bytesIn data)

theorem bytesIn_entryAt (index offset : Nat) (body data : Bytes) :
    (entryAt index offset body).bytesIn data = (data.drop offset).take body.length := by
  rw [Entry.bytesIn, entryAt]
  dsimp only
  rw [← Int.natCast_add, Bytes.slice_natCast, Nat.add_sub_cancel_left]

/-- The payload of an entry that lies in data is that of its bytes, also in
other data that has them there. -/
theorem Lies.payload {data : Bytes} {e : Entry} (h : Lies data e) {other : Bytes}
    (hsame : e.bytesIn other = e.bytesIn data) :
    payload other e = .ok (unpack (e.bytesIn data)) := by
  obtain ⟨hshaped, index, offset, he⟩ := h
  generalize e.bytesIn data = body at *
  subst he
  rw [bytesIn_entryAt] at hsame
  by_cases hempty : body = []
  · subst hempty
    rfl
  · have hoffset : (other.take offset).length = offset := by
      have hlength := congrArg List.length hsame
      have hpos := List.length_pos_iff.mpr hempty
      rw [List.length_take, List.length_drop] at hlength
      rw [List.length_take]
      omega
    have hsplit : other = other.take offset ++ (body ++ (other.drop offset).drop body.length) := by
      conv_lhs => rw [← List.take_append_drop offset other,
        ← List.take_append_drop body.length (other.drop offset), hsame]
    have hpayload := payload_entryAt hshaped (other.take offset)
      ((other.drop offset).drop body.length) index
    rw [← hsplit, hoffset] at hpayload
    exact hpayload

section Laid

variable {bodies : List Bytes} {data : Bytes}

/-- The table of an archive of bodies holds their lengths. -/
theorem Laid.map_length (h : Laid bodies data) :
    bodies.map List.length = (List.range bodies.length).map (lengthAt data) := by
  obtain ⟨rest, hdata⟩ := h.exists_eq
  have htable : (data.drop 4).take (4 * bodies.length) = tableOf bodies := by
    rw [hdata, List.append_assoc, List.append_assoc, List.drop_left' (Bytes.length_ofNat 4 _),
      List.take_left' (length_tableOf bodies)]
  have hlength : 4 + 4 * bodies.length ≤ data.length := by
    rw [hdata]
    simp only [List.length_append, Bytes.length_ofNat, length_tableOf]
    omega
  have hlengths := fieldsFrom_tableOf h.length_lt []
  rw [← htable, fieldsFrom_eq_map hlength] at hlengths
  exact hlengths.symm

theorem Laid.lengthAt_eq (h : Laid bodies data) {i : Nat} {body : Bytes}
    (hi : bodies[i]? = some body) : lengthAt data i = body.length := by
  have hlength := congrArg (·[i]?) h.map_length
  simp only [List.getElem?_map, hi, Option.map_some] at hlength
  exact (getElem?_table.mp (by simpa using hlength.symm)).2

theorem Laid.offsetAt_eq (h : Laid bodies data) {i : Nat} (hi : i ≤ bodies.length) :
    offsetAt data bodies.length i = 4 + 4 * bodies.length + (bodies.take i).flatten.length := by
  rw [offsetAt, ← take_table hi, ← h.map_length, List.length_flatten, List.map_take]

/-- A body of an archive lies behind those before it. -/
theorem Laid.exists_split (h : Laid bodies data) {i : Nat} {body : Bytes}
    (hi : bodies[i]? = some body) :
    ∃ before behind, data = before ++ (body ++ behind) ∧
      before.length = 4 + 4 * bodies.length + (bodies.take i).flatten.length := by
  obtain ⟨rest, hdata⟩ := h.exists_eq
  obtain ⟨hlt, hbody⟩ := List.getElem?_eq_some_iff.mp hi
  have hbodies : bodies.flatten =
      (bodies.take i).flatten ++ (body ++ (bodies.drop (i + 1)).flatten) := by
    conv_lhs => rw [← List.take_append_drop i bodies, List.drop_eq_getElem_cons hlt, hbody]
    simp
  refine ⟨Bytes.ofNat 4 bodies.length ++ tableOf bodies ++ (bodies.take i).flatten,
    (bodies.drop (i + 1)).flatten ++ rest, ?_, ?_⟩
  · rw [hdata, hbodies]
    simp only [List.append_assoc]
  · rw [List.length_append, List.length_append, Bytes.length_ofNat, length_tableOf]

/-- The entries of an archive lie in it. -/
theorem Laid.lies (h : Laid bodies data) {e : Entry}
    (he : e ∈ entriesAt 0 (4 + 4 * bodies.length) bodies) : Lies data e := by
  obtain ⟨i, hi⟩ := List.getElem?_of_mem he
  rw [getElem?_entriesAt, Option.map_eq_some_iff] at hi
  obtain ⟨body, hbody, rfl⟩ := hi
  obtain ⟨before, behind, hdata, hlength⟩ := h.exists_split hbody
  have hbytes : (entryAt (0 + i) before.length body).bytesIn data = body := by
    rw [bytesIn_entryAt, hdata, List.drop_left, List.take_left]
  rw [← hlength]
  exact ⟨by rw [hbytes]; exact h.shaped body (List.mem_of_getElem? hbody),
    0 + i, before.length, by rw [hbytes]⟩

end Laid

/-! ## isolation -/

/-- Entries that lie in data one behind the other, from the end of the table
on. -/
structure Tiled (data : Bytes) (entries : List Entry) : Prop where
  count_eq : data.readUInt? 0 4 = some entries.length
  entry_eq : ∀ {i : Nat} {e : Entry}, entries[i]? = some e →
    e.index = i ∧ e.offset = offsetAt data entries.length i ∧ e.length = lengthAt data i ∧
      e.offset + e.length ≤ data.length

/-- An entry of data that has the given payload, for the sake of its own bytes
alone. -/
structure Isolated (data : Bytes) (e : Entry) (p : Bytes) : Prop where
  payload_eq : payload data e = .ok p
  /-- The same entry in other data that has its bytes in the same place. -/
  agreeing : ∀ {other : Bytes}, e.bytesIn other = e.bytesIn data → payload other e = .ok p
  /-- Any entry of another archive that has the same bytes. -/
  elsewhere : ∀ {other : Bytes} {entries : List Entry} {e' : Entry},
    readIndex other = .ok entries → e' ∈ entries → e'.bytesIn other = e.bytesIn data →
      payload other e' = .ok p
  eq_nil : e.length = 0 → p = []
  length_le : e.isCompressed = true → (p.length : Int) ≤ e.unpackedLength
  length_eq : e.length ≠ 0 → e.isCompressed = false → (p.length : Int) = e.length - entryHeaderSize

/-- An entry that lies in data is as long as its bytes, and has their header. -/
theorem Lies.header {data : Bytes} {e : Entry} (h : Lies data e) :
    e.length = (e.bytesIn data).length ∧
      (e.isCompressed = true ↔ (e.bytesIn data).field 0 2 % 2 = 1) ∧
      e.unpackedLength = (e.bytesIn data).field 2 4 := by
  obtain ⟨-, index, offset, he⟩ := h
  generalize e.bytesIn data = body at he
  subst he
  exact ⟨rfl, isCompressed_entryAt index offset body, rfl⟩

/-- An entry that lies in data is isolated. -/
theorem Lies.isolated {data : Bytes} {e : Entry} (h : Lies data e) :
    Isolated data e (unpack (e.bytesIn data)) := by
  obtain ⟨hlength, hcompressed, hunpacked⟩ := h.header
  refine ⟨h.payload rfl, h.payload, ?_, fun hzero => ?_, fun hflag => ?_, fun hne hflag => ?_⟩
  · intro other entries e' hread he' hsame
    obtain ⟨bodies, hlaid, rfl⟩ := readIndex_eq_ok_iff.mp hread
    rw [(hlaid.lies he').payload rfl, hsame]
  · have hempty : e.bytesIn data = [] := List.length_eq_zero_iff.mp (by omega)
    rw [hempty]
    rfl
  · rw [hunpacked]
    exact Int.ofNat_le.mpr (length_unpack_le (hcompressed.mp hflag))
  · have hstored : ¬ (e.bytesIn data).field 0 2 % 2 = 1 := by simp [← hcompressed, hflag]
    have hlong : entryHeaderSize ≤ (e.bytesIn data).length := by
      rcases h.shaped with hempty | hlong
      · simp [hlength, hempty] at hne
      · exact hlong
    rw [length_unpack_of_stored hstored, hlength, Int.ofNat_sub hlong]

/-- The entries of an archive of bodies tile it. -/
theorem Laid.tiled {bodies : List Bytes} {data : Bytes} (h : Laid bodies data) :
    Tiled data (entriesAt 0 (4 + 4 * bodies.length) bodies) where
  count_eq := by
    obtain ⟨rest, hdata⟩ := h.exists_eq
    have hmax : maxEntries < 0x100000000 := by decide
    rw [length_entriesAt, hdata, List.append_assoc, List.append_assoc]
    exact readUInt?_count (Nat.lt_trans h.lt_maxEntries hmax) _
  entry_eq := by
    intro i e hi
    rw [getElem?_entriesAt, Option.map_eq_some_iff] at hi
    obtain ⟨body, hbody, rfl⟩ := hi
    obtain ⟨before, behind, hdata, hlength⟩ := h.exists_split hbody
    have hlt : i < bodies.length := (List.getElem?_eq_some_iff.mp hbody).1
    have hsize := congrArg List.length hdata
    rw [List.length_append, List.length_append] at hsize
    rw [length_entriesAt, h.offsetAt_eq (Nat.le_of_lt hlt), h.lengthAt_eq hbody]
    dsimp only [entryAt]
    omega

/-- **Archives and their entries**: the reader accepts exactly the sound data,
finds its entries one behind the other, and has for each of them a payload that
depends on its own bytes alone. -/
theorem readIndex_isolates (data : Bytes) :
    ((∃ entries, readIndex data = .ok entries) ↔ ∃ count, Sound data count) ∧
    ∀ entries, readIndex data = .ok entries →
      Tiled data entries ∧ ∀ e ∈ entries, ∃ p, Isolated data e p := by
  refine ⟨exists_readIndex_iff data, fun entries hread => ?_⟩
  obtain ⟨bodies, hlaid, rfl⟩ := readIndex_eq_ok_iff.mp hread
  exact ⟨hlaid.tiled, fun e he => ⟨_, (hlaid.lies he).isolated⟩⟩

/-- An empty entry and a compressed one of one letter, with a byte behind
them. -/
def looseArchive : Bytes :=
  [2, 0, 0, 0, 0, 0, 0, 0, 8, 0, 0, 0, 1, 0, 1, 0, 0, 0, 0, 0x58, 0xFF]

theorem readIndex_isolates_loose :
    (∃ count, Sound looseArchive count) ∧
      ∃ first second, readIndex looseArchive = .ok [first, second] ∧
        Tiled looseArchive [first, second] ∧
        Isolated looseArchive first [] ∧ Isolated looseArchive second [0x58] := by
  have hread : readIndex looseArchive = .ok [⟨0, 12, 0, 0, 0⟩, ⟨1, 12, 8, 1, 1⟩] := rfl
  have hfirst : payload looseArchive ⟨0, 12, 0, 0, 0⟩ = .ok [] := rfl
  have hsecond : payload looseArchive ⟨1, 12, 8, 1, 1⟩ = .ok [0x58] := by
    have hpayload : (payload looseArchive ⟨1, 12, 8, 1, 1⟩).toOption.map id = some [0x58] := by
      decide +kernel
    obtain ⟨p, hp, rfl⟩ := exists_ok_of_map_toOption hpayload
    exact hp
  obtain ⟨hiff, hisolates⟩ := readIndex_isolates looseArchive
  obtain ⟨htiled, hpayloads⟩ := hisolates _ hread
  obtain ⟨p, hp⟩ := hpayloads _ List.mem_cons_self
  obtain ⟨q, hq⟩ := hpayloads _ (List.mem_cons_of_mem _ List.mem_cons_self)
  obtain rfl := Except.ok.inj (hfirst.symm.trans hp.payload_eq)
  obtain rfl := Except.ok.inj (hsecond.symm.trans hq.payload_eq)
  exact ⟨hiff.mp ⟨_, hread⟩, _, _, hread, htiled, hp, hq⟩

end Scenario.Archive
