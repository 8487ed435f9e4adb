import Mathlib.Algebra.Ring.Int.Defs
import Mathlib.Algebra.Ring.Nat
import Scenario.Archive
import Scenario.Proofs.Bytes
import Scenario.Proofs.Expanding
import Scenario.Proofs.Traverse

/-!
# Scenario.Proofs.Entries

The layout of archives.  An archive is a count, the lengths of the bodies, and
the bodies one behind the other; what lies behind the last one is not looked
at.  `Laid` says so without the reader, and `readIndex_eq_ok_iff` that the
reader accepts exactly this.

1. A table of lengths is read as these lengths, and every table of the right
   length is one (`fieldsFrom_tableOf`, `exists_fieldsFrom_eq`).
2. The entries of bodies are numbered in turn and lie one behind the other
   (`getElem?_entriesAt`).
3. Every entry has a payload, which depends on its body alone
   (`payload_entryAt`, `Laid.readAll`).
-/

namespace Scenario.Archive

/-! ## tables -/

/-- The table of the lengths of bodies. -/
def tableOf (bodies : List Bytes) : Bytes := bodies.flatMap fun body => Bytes.ofNat 4 body.length

@[simp] theorem length_tableOf (bodies : List Bytes) :
    (tableOf bodies).length = 4 * bodies.length := by
  induction bodies with
  | nil => rfl
  | cons body bodies ih =>
      rw [tableOf, List.flatMap_cons, List.length_append, Bytes.length_ofNat, List.length_cons]
      rw [tableOf] at ih
      omega

/-- A table of lengths is read as these lengths. -/
theorem fieldsFrom_tableOf {bodies : List Bytes} (h : ∀ body ∈ bodies, body.length < 0x100000000)
    (read : List Nat) :
    fieldsFrom read (tableOf bodies) = read.reverse ++ bodies.map List.length := by
  induction bodies generalizing read with
  | nil => simp [tableOf, fieldsFrom]
  | cons body bodies ih =>
      rw [List.forall_mem_cons] at h
      have hvalue : Bytes.toNat (Bytes.ofNat 4 body.length) = body.length := by
        rw [Bytes.toNat_ofNat]
        exact Nat.mod_eq_of_lt h.1
      have hone : fieldsFrom read (tableOf (body :: bodies)) =
          fieldsFrom (Bytes.toNat (Bytes.ofNat 4 body.length) :: read) (tableOf bodies) := rfl
      rw [hone, hvalue, ih h.2, List.reverse_cons, List.append_assoc, List.map_cons]
      rfl

/-- Every table of the right length is one of lengths. -/
theorem exists_fieldsFrom_eq {count : Nat} {table : Bytes} (h : table.length = 4 * count)
    (read : List Nat) :
    ∃ lengths, fieldsFrom read table = read.reverse ++ lengths ∧ lengths.length = count ∧
      table = lengths.flatMap (Bytes.ofNat 4) ∧ ∀ n ∈ lengths, n < 0x100000000 := by
  induction count generalizing table read with
  | zero =>
      obtain rfl := List.eq_nil_of_length_eq_zero h
      exact ⟨[], by simp [fieldsFrom], rfl, rfl, by simp⟩
  | succ count ih =>
      match table, h with
      | a :: b :: c :: d :: rest, h =>
          obtain ⟨lengths, hfields, hcount, htable, hlt⟩ :=
            @ih rest (by simp only [List.length_cons] at h; omega)
              (Bytes.toNat [a, b, c, d] :: read)
          refine ⟨Bytes.toNat [a, b, c, d] :: lengths, ?_, by rw [List.length_cons, hcount], ?_, ?_⟩
          · rw [fieldsFrom, hfields]
            simp
          · have hword : Bytes.ofNat 4 (Bytes.toNat [a, b, c, d]) = [a, b, c, d] :=
              Bytes.ofNat_toNat [a, b, c, d]
            rw [List.flatMap_cons, ← htable, hword]
            rfl
          · have hpow : Nat.pow 256 4 = 0x100000000 := by decide
            exact List.forall_mem_cons.mpr ⟨hpow ▸ Bytes.toNat_lt [a, b, c, d], hlt⟩

/-! ## entries -/

/-- A body that an entry can have: none, or a header and what follows it. -/
def Shaped (body : Bytes) : Prop := body = [] ∨ entryHeaderSize ≤ body.length

/-- The entry of a body. -/
def entryAt (index offset : Nat) (body : Bytes) : Entry :=
  ⟨index, offset, body.length, body.field 0 2, body.field 2 4⟩

/-- The flags of an entry are those in its body's header. -/
theorem isCompressed_entryAt (index offset : Nat) (body : Bytes) :
    (entryAt index offset body).isCompressed = true ↔ body.field 0 2 % 2 = 1 := by
  have hflags : (entryAt index offset body).flags = body.field 0 2 := rfl
  rw [Entry.isCompressed, decide_eq_true_iff, hflags]
  omega

/-- The entries of bodies that lie one behind the other, the first with its
index and offset. -/
def entriesAt (index offset : Nat) : List Bytes → List Entry
  | [] => []
  | body :: bodies =>
      entryAt index offset body :: entriesAt (index + 1) (offset + body.length) bodies

@[simp] theorem length_entriesAt (index offset : Nat) (bodies : List Bytes) :
    (entriesAt index offset bodies).length = bodies.length := by
  induction bodies generalizing index offset with
  | nil => rfl
  | cons body bodies ih => rw [entriesAt, List.length_cons, ih, List.length_cons]

/-- Entries are numbered in turn, and each lies behind the bodies before it. -/
theorem getElem?_entriesAt (index offset : Nat) (bodies : List Bytes) (i : Nat) :
    (entriesAt index offset bodies)[i]? =
      bodies[i]?.map (entryAt (index + i) (offset + (bodies.take i).flatten.length)) := by
  induction bodies generalizing index offset i with
  | nil => rfl
  | cons body bodies ih =>
      cases i with
      | zero => rfl
      | succ i =>
          rw [entriesAt, List.getElem?_cons_succ, ih, List.getElem?_cons_succ, List.take_succ_cons,
            List.flatten_cons, List.length_append]
          congr 2 <;> omega

/-- Entries are as long as their bodies. -/
theorem sum_length_entriesAt (index offset : Nat) (bodies : List Bytes) (i : Nat) :
    (((entriesAt index offset bodies).take i).map Entry.length).sum =
      (bodies.take i).flatten.length := by
  induction bodies generalizing index offset i with
  | nil => simp [entriesAt]
  | cons body bodies ih =>
      cases i with
      | zero => rfl
      | succ i =>
          rw [entriesAt, List.take_succ_cons, List.map_cons, List.sum_cons, ih, List.take_succ_cons,
            List.flatten_cons, List.length_append, Int.natCast_add]
          rfl

/-- Bodies that lie one behind the other are found. -/
theorem entriesFrom_flatten {bodies : List Bytes} (h : ∀ body ∈ bodies, Shaped body) (rest : Bytes)
    (read : List Entry) (index offset : Nat) :
    entriesFrom (offset + (bodies.flatten ++ rest).length) read index offset
        (bodies.flatten ++ rest) (bodies.map List.length) =
      .ok (read.reverse ++ entriesAt index offset bodies) := by
  induction bodies generalizing read index offset with
  | nil => simp [entriesFrom, entriesAt]
  | cons body bodies ih =>
      rw [List.forall_mem_cons] at h
      have hrest := ih h.2 (entryAt index offset body :: read) (index + 1) (offset + body.length)
      rw [List.reverse_cons, List.append_assoc] at hrest
      rw [List.map_cons, entriesFrom, List.flatten_cons, List.append_assoc, List.length_append,
        if_neg (by omega), entriesAt]
      rw [Nat.add_assoc] at hrest
      rcases h.1 with rfl | hlong
      · exact hrest
      · have hpos : 0 < entryHeaderSize := by decide
        have hfields : ∀ {at_ width : Nat}, at_ + width ≤ entryHeaderSize →
            (body ++ (bodies.flatten ++ rest)).field at_ width = body.field at_ width := by
          intro at_ width hle
          have htake := Bytes.field_take (body ++ (bodies.flatten ++ rest))
            (show at_ + width ≤ body.length by omega)
          rw [List.take_left] at htake
          exact htake.symm
        rw [if_neg (by omega), if_neg (by omega), List.drop_left, hfields (by decide),
          hfields (by decide)]
        exact hrest

/-- Whatever is found are bodies that lie one behind the other. -/
theorem exists_bodies_of_entriesFrom {read entries : List Entry} {index offset : Nat} {body : Bytes}
    {lengths : List Nat}
    (h : entriesFrom (offset + body.length) read index offset body lengths = .ok entries) :
    ∃ (bodies : List Bytes) (rest : Bytes),
      body = bodies.flatten ++ rest ∧ bodies.map List.length = lengths ∧
      (∀ b ∈ bodies, Shaped b) := by
  induction lengths generalizing read index offset body with
  | nil => exact ⟨[], body, rfl, rfl, by simp⟩
  | cons length lengths ih =>
      rw [entriesFrom] at h
      split at h
      · cases h
      · next hfits =>
        split at h
        · next hzero =>
          obtain ⟨bodies, rest, hbody, hlengths, hshaped⟩ := ih h
          exact ⟨[] :: bodies, rest, hbody, by rw [List.map_cons, hlengths, hzero]; rfl,
            List.forall_mem_cons.mpr ⟨.inl rfl, hshaped⟩⟩
        · split at h
          · cases h
          · next hlong =>
            have hsize : offset + body.length = offset + length + (body.drop length).length := by
              rw [List.length_drop]
              omega
            rw [hsize] at h
            obtain ⟨bodies, rest, hbody, hlengths, hshaped⟩ := ih h
            have htake : (body.take length).length = length := by
              rw [List.length_take]
              omega
            refine ⟨body.take length :: bodies, rest, ?_, by rw [List.map_cons, hlengths, htake],
              List.forall_mem_cons.mpr ⟨.inr (by omega), hshaped⟩⟩
            rw [List.flatten_cons, List.append_assoc, ← hbody, List.take_append_drop]

/-! ## archives -/

/-- Data that is an archive of bodies. -/
structure Laid (bodies : List Bytes) (data : Bytes) : Prop where
  ne_nil : bodies ≠ []
  lt_maxEntries : bodies.length < maxEntries
  shaped : ∀ body ∈ bodies, Shaped body
  length_lt : ∀ body ∈ bodies, body.length < 0x100000000
  exists_eq : ∃ rest, data = Bytes.ofNat 4 bodies.length ++ tableOf bodies ++ bodies.flatten ++ rest

/-- The count that an archive starts with is read. -/
theorem readUInt?_count {count : Nat} (h : count < 0x100000000) (rest : Bytes) :
    Bytes.readUInt? (Bytes.ofNat 4 count ++ rest) 0 4 = some count := by
  have hinside : 0 + 4 ≤ (Bytes.ofNat 4 count ++ rest).length := by
    rw [List.length_append, Bytes.length_ofNat]
    omega
  have hread := Bytes.readUInt?_eq_field _ hinside
  have hfield : Bytes.field (Bytes.ofNat 4 count ++ rest) 0 4 = count := by
    rw [Bytes.field, List.drop_zero, List.take_left' (Bytes.length_ofNat 4 count),
      Bytes.toNat_ofNat]
    exact Nat.mod_eq_of_lt h
  rw [hfield] at hread
  exact hread

/-- A count that is read stands in the first bytes. -/
theorem eq_ofNat_of_readUInt? {data : Bytes} {count : Nat} (h : data.readUInt? 0 4 = some count) :
    data.take 4 = Bytes.ofNat 4 count := by
  have hinside : 0 + 4 ≤ data.length := by
    have := Bytes.inside_of_readUInt? h
    omega
  have hfield : data.field 0 4 = count :=
    Option.some.inj ((Bytes.readUInt?_eq_field data hinside).symm.trans h)
  have hlength : (data.take 4).length = 4 := by
    rw [List.length_take]
    omega
  have hbytes := Bytes.ofNat_toNat (data.take 4)
  rw [hlength] at hbytes
  rw [← hfield, Bytes.field, List.drop_zero, hbytes]

/-- The entries of an archive of bodies are those of the bodies. -/
theorem Laid.readIndex {bodies : List Bytes} {data : Bytes} (h : Laid bodies data) :
    readIndex data = .ok (entriesAt 0 (4 + 4 * bodies.length) bodies) := by
  obtain ⟨rest, rfl⟩ := h.exists_eq
  have hmax : maxEntries < 0x100000000 := by decide
  have hpos := List.length_pos_iff.mpr h.ne_nil
  have hlt := h.lt_maxEntries
  have hcount :=
    @readUInt?_count bodies.length (by omega) (tableOf bodies ++ bodies.flatten ++ rest)
  have hfront : (Bytes.ofNat 4 bodies.length ++ tableOf bodies).length = 4 + 4 * bodies.length := by
    rw [List.length_append, Bytes.length_ofNat, length_tableOf]
  have htable :
      ((Bytes.ofNat 4 bodies.length ++ tableOf bodies ++ bodies.flatten ++ rest).drop 4).take
        (4 * bodies.length) = tableOf bodies := by
    rw [List.append_assoc, List.append_assoc, List.drop_left' (Bytes.length_ofNat 4 _),
      List.take_left' (length_tableOf bodies)]
  have hdata : (Bytes.ofNat 4 bodies.length ++ tableOf bodies ++ bodies.flatten ++ rest).length =
      4 + 4 * bodies.length + (bodies.flatten ++ rest).length := by
    rw [List.append_assoc, List.length_append, hfront]
  rw [Archive.readIndex]
  simp only [← List.append_assoc] at hcount
  rw [hcount]
  dsimp only
  rw [if_neg (by omega), if_neg (by omega), htable, hdata, List.append_assoc,
    List.drop_left' hfront, fieldsFrom_tableOf h.length_lt]
  exact entriesFrom_flatten h.shaped rest [] 0 (4 + 4 * bodies.length)

/-- **Archives**: the reader accepts exactly the archives of bodies, and finds
their entries. -/
theorem readIndex_eq_ok_iff {data : Bytes} {entries : List Entry} :
    readIndex data = .ok entries ↔
      ∃ bodies, Laid bodies data ∧ entries = entriesAt 0 (4 + 4 * bodies.length) bodies := by
  constructor
  · intro h
    have hread := h
    rw [readIndex] at h
    split at h
    · cases h
    next count hcount =>
    dsimp only at h
    split at h
    · cases h
    split at h
    · cases h
    next hplausible hlong =>
    obtain ⟨lengths, hfields, hcountEq, htable, hlt⟩ :=
      @exists_fieldsFrom_eq count ((data.drop 4).take (4 * count))
        (by rw [List.length_take, List.length_drop]; omega) []
    have hsize : data.length = 4 + 4 * count + (data.drop (4 + 4 * count)).length := by
      rw [List.length_drop]
      omega
    rw [hfields, hsize, List.reverse_nil, List.nil_append] at h
    obtain ⟨bodies, rest, hbody, hlengths, hshaped⟩ := exists_bodies_of_entriesFrom h
    have hbodies : bodies.length = count := by rw [← hcountEq, ← hlengths, List.length_map]
    have hfirst : data.take 4 = Bytes.ofNat 4 bodies.length := by
      rw [hbodies, eq_ofNat_of_readUInt? hcount]
    have htableEq : (data.drop 4).take (4 * count) = tableOf bodies := by
      rw [htable, ← hlengths, List.flatMap_map, tableOf]
    have hlaid : Laid bodies data := by
      refine ⟨fun hnil => ?_, by omega, hshaped, fun body hmem => ?_, rest, ?_⟩
      · rw [hnil, List.length_nil] at hbodies
        omega
      · exact hlt _ (hlengths ▸ List.mem_map_of_mem hmem)
      · rw [← hfirst, ← htableEq, List.append_assoc, ← hbody, List.append_assoc, ← List.drop_drop,
          List.take_append_drop, List.take_append_drop]
    exact ⟨bodies, hlaid, Except.ok.inj (hread.symm.trans hlaid.readIndex)⟩
  · rintro ⟨bodies, h, rfl⟩
    exact h.readIndex

/-! ## payloads -/

/-- The payload of a body. -/
def unpack (body : Bytes) : Bytes :=
  if body = [] then []
  else if body.field 0 2 % 2 = 1 then
    Compression.expand (some (body.field 2 4)) (body.drop entryHeaderSize)
  else body.drop entryHeaderSize

/-- A compressed payload is no longer than its header says. -/
theorem length_unpack_le {body : Bytes} (h : body.field 0 2 % 2 = 1) :
    (unpack body).length ≤ body.field 2 4 := by
  rw [unpack, if_pos h]
  split
  · exact Nat.zero_le _
  · rw [Compression.expand_some, List.length_take]
    exact Nat.min_le_left _ _

/-- A stored payload is all that follows its header. -/
theorem length_unpack_of_stored {body : Bytes} (h : ¬ body.field 0 2 % 2 = 1) :
    (unpack body).length = body.length - entryHeaderSize := by
  rw [unpack, if_neg h]
  split
  · next hempty => simp [hempty]
  · exact List.length_drop

/-- The payload of an entry depends on its body alone. -/
theorem payload_entryAt {body : Bytes} (h : Shaped body) (before behind : Bytes) (index : Nat) :
    payload (before ++ (body ++ behind)) (entryAt index before.length body) =
      .ok (unpack body) := by
  rcases h with rfl | hlong
  · rfl
  have hne : body ≠ [] := by
    rintro rfl
    exact absurd hlong (by decide)
  have hpos := List.length_pos_iff.mpr hne
  -- the header goes to what lies before the body
  let header := before ++ body.take entryHeaderSize
  let e := entryAt index before.length body
  have hdata : before ++ (body ++ behind) = header ++ body.drop entryHeaderSize ++ behind := by
    rw [List.append_assoc before, List.take_append_drop, List.append_assoc]
  have hstart : e.offset + entryHeaderSize = header.length := by
    rw [List.length_append, List.length_take, Nat.min_eq_left hlong]
    rfl
  have hsize : e.length - entryHeaderSize = (body.drop entryHeaderSize).length := by
    rw [List.length_drop, Int.ofNat_sub hlong]
    rfl
  have hnonempty : e.length ≠ 0 := Int.natCast_ne_zero.mpr (Nat.ne_of_gt hpos)
  have hflag := isCompressed_entryAt index before.length body
  rw [payload, if_neg hnonempty, unpack, if_neg hne]
  dsimp only
  rw [hstart, hsize, hdata]
  by_cases hcompressed : body.field 0 2 % 2 = 1
  · rw [if_pos (hflag.mpr hcompressed), if_pos hcompressed]
    exact Compression.expandRange_append _ _ _ _
  · rw [if_neg (mt hflag.mp hcompressed), if_neg hcompressed, ← Int.natCast_add,
      Bytes.slice_natCast, Nat.add_sub_cancel_left, List.append_assoc, List.drop_left,
      List.take_left]

/-- The entries of bodies that lie in data have their payloads. -/
theorem payloads_entriesAt {bodies : List Bytes} (h : ∀ body ∈ bodies, Shaped body)
    (before rest : Bytes) (index : Nat) :
    List.Forall₂ (fun e p => payload (before ++ (bodies.flatten ++ rest)) e = .ok p)
      (entriesAt index before.length bodies) (bodies.map unpack) := by
  induction bodies generalizing before index with
  | nil => exact .nil
  | cons body bodies ih =>
      rw [List.forall_mem_cons] at h
      have hone := payload_entryAt h.1 before (bodies.flatten ++ rest) index
      have hrest := ih h.2 (before ++ body) (index + 1)
      rw [List.length_append, List.append_assoc] at hrest
      rw [List.flatten_cons, List.append_assoc, entriesAt, List.map_cons]
      exact .cons hone hrest

/-- Every entry of an archive has its payload. -/
theorem Laid.payloads {bodies : List Bytes} {data : Bytes} (h : Laid bodies data) :
    List.Forall₂ (fun e p => payload data e = .ok p)
      (entriesAt 0 (4 + 4 * bodies.length) bodies) (bodies.map unpack) := by
  obtain ⟨rest, hdata⟩ := h.exists_eq
  have hfront : (Bytes.ofNat 4 bodies.length ++ tableOf bodies).length = 4 + 4 * bodies.length := by
    rw [List.length_append, Bytes.length_ofNat, length_tableOf]
  have hpayloads := payloads_entriesAt h.shaped (Bytes.ofNat 4 bodies.length ++ tableOf bodies)
    rest 0
  rw [hfront, ← List.append_assoc, ← hdata] at hpayloads
  exact hpayloads

theorem Laid.readAll {bodies : List Bytes} {data : Bytes} (h : Laid bodies data) :
    readAll data =
      .ok ((entriesAt 0 (4 + 4 * bodies.length) bodies).zip (bodies.map unpack)) := by
  rw [Archive.readAll, h.readIndex]
  exact mapM_pair_eq_ok h.payloads

end Scenario.Archive
