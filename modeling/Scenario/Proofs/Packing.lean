import Scenario.Proofs.Entries
import Scenario.Proofs.Groups

/-!
# Scenario.Proofs.Packing

Packing payloads into an archive, and reading them back.

1. A payload has one body, and the body has that payload (`bodyOf`,
   `unpack_bodyOf`), be it empty, stored or compressed.
2. An archive is built exactly if there is something to pack and all fields
   can hold what goes into them (`build_eq_ok_iff`).
3. What was built of few enough payloads is an archive of their bodies
   (`laid_of_build`).  Reading asks for fewer entries than fields can count, so
   an archive that was built can be refused, and for no other reason.
-/

namespace Scenario

namespace Archive

/-! ## bodies of payloads -/

/-- The body of a payload. -/
def bodyOf (data : Bytes) : Bytes :=
  if data = [] then []
  else if worthCompressing data then
    Bytes.ofNat 2 1 ++ Bytes.ofNat 4 data.length ++ Compression.compress data
  else Bytes.ofNat 2 0 ++ Bytes.ofNat 4 data.length ++ data

/-- A payload can be packed exactly if a field can hold its length. -/
theorem packEntry_eq_ok_iff {data body : Bytes} :
    packEntry data none = .ok body ↔ data.length < 0x100000000 ∧ body = bodyOf data := by
  by_cases hempty : data = []
  · subst hempty
    exact ⟨fun h => ⟨by decide, (Except.ok.inj h).symm⟩, fun h => h.2 ▸ rfl⟩
  · rw [packEntry, if_neg (by simpa using hempty), andThen_eq_ok_iff, bodyOf, if_neg hempty]
    simp only [Bytes.pack_eq_ok_iff]
    constructor
    · rintro ⟨size, ⟨hlt, rfl⟩, h⟩
      refine ⟨hlt, ?_⟩
      cases hworth : worthCompressing data <;> rw [hworth] at h <;> exact (Except.ok.inj h).symm
    · rintro ⟨hlt, rfl⟩
      refine ⟨_, ⟨hlt, rfl⟩, ?_⟩
      cases worthCompressing data <;> rfl

/-- A body has a header, unless the payload is empty. -/
theorem shaped_bodyOf (data : Bytes) : Shaped (bodyOf data) := by
  rw [bodyOf]
  split
  · exact .inl rfl
  · right
    split <;> simp [entryHeaderSize] <;> omega

/-- The header of a body is read back, whatever follows it. -/
theorem unpack_header {flags size : Nat} (hflags : flags < 2) (hsize : size < 0x100000000)
    (rest : Bytes) :
    unpack (Bytes.ofNat 2 flags ++ Bytes.ofNat 4 size ++ rest) =
      if flags = 1 then Compression.expand (some size) rest else rest := by
  have hflag : Bytes.field (Bytes.ofNat 2 flags ++ Bytes.ofNat 4 size ++ rest) 0 2 = flags := by
    rw [Bytes.field, List.drop_zero, List.append_assoc,
      List.take_left' (Bytes.length_ofNat 2 flags), Bytes.toNat_ofNat]
    exact Nat.mod_eq_of_lt (Nat.lt_trans hflags (by decide))
  have hfield : Bytes.field (Bytes.ofNat 2 flags ++ Bytes.ofNat 4 size ++ rest) 2 4 = size := by
    rw [Bytes.field, List.append_assoc, List.drop_left' (Bytes.length_ofNat 2 flags),
      List.take_left' (Bytes.length_ofNat 4 size), Bytes.toNat_ofNat]
    exact Nat.mod_eq_of_lt hsize
  have hrest : List.drop entryHeaderSize (Bytes.ofNat 2 flags ++ Bytes.ofNat 4 size ++ rest) =
      rest := by
    apply List.drop_left'
    rw [List.length_append, Bytes.length_ofNat, Bytes.length_ofNat]
    rfl
  rw [unpack, hflag, hfield, hrest, Nat.mod_eq_of_lt hflags]
  rfl

/-- **Bodies**: a body has the payload it was made of. -/
theorem unpack_bodyOf {data : Bytes} (h : data.length < 0x100000000) :
    unpack (bodyOf data) = data := by
  rw [bodyOf]
  split
  · next hempty => rw [hempty]; rfl
  · split
    · have hexpand : Compression.expand none (Compression.compress data) = data :=
        Compression.output_run_compress Compression.blankWindow data
      rw [unpack_header (by decide) h, if_pos rfl, Compression.expand_some, hexpand,
        List.take_length]
    · rw [unpack_header (by decide) h, if_neg (by decide)]

theorem map_unpack_bodyOf {payloads : List Bytes} (h : ∀ p ∈ payloads, p.length < 0x100000000) :
    (payloads.map bodyOf).map unpack = payloads := by
  rw [List.map_map]
  exact (List.map_congr_left fun p hp => unpack_bodyOf (h p hp)).trans (List.map_id payloads)

/-! ## building -/

/-- Payloads whose number and lengths, plain and packed, 32-bit fields can
hold. -/
structure Fit (payloads : List Bytes) : Prop where
  count_lt : payloads.length < 0x100000000
  length_lt : ∀ data ∈ payloads, data.length < 0x100000000
  body_lt : ∀ data ∈ payloads, ∀ body, packEntry data none = .ok body → body.length < 0x100000000

/-- The bodies of payloads that fit. -/
theorem Fit.length_bodyOf_lt {payloads : List Bytes} (h : Fit payloads) {data : Bytes}
    (hdata : data ∈ payloads) : (bodyOf data).length < 0x100000000 :=
  h.body_lt data hdata _ (packEntry_eq_ok_iff.mpr ⟨h.length_lt data hdata, rfl⟩)

/-- A body is longer than its payload by the header, and by no more than one
byte to each eight. -/
theorem length_bodyOf_le (data : Bytes) :
    (bodyOf data).length ≤ entryHeaderSize + data.length + (data.length + 7) / 8 := by
  have hcompress := Compression.length_compress_le data
  have hheader : entryHeaderSize = 6 := rfl
  rw [bodyOf]
  split
  · exact Nat.zero_le _
  · split <;> simp only [List.length_append, Bytes.length_ofNat] <;> omega

/-- Payloads that are not too long fit. -/
theorem Fit.of_length_lt {payloads : List Bytes} (hcount : payloads.length < 0x100000000)
    (h : ∀ data ∈ payloads, data.length < 0xE0000000) : Fit payloads where
  count_lt := hcount
  length_lt data hdata := Nat.lt_trans (h data hdata) (by decide)
  body_lt data hdata body hbody := by
    have hlength := length_bodyOf_le data
    have hheader : entryHeaderSize = 6 := rfl
    have hlt := h data hdata
    rw [(packEntry_eq_ok_iff.mp hbody).2]
    omega

/-- **Building** succeeds exactly if there is something to pack and all of it
fits, and gives the bodies behind their lengths. -/
theorem build_eq_ok_iff {payloads : List Bytes} {data : Bytes} :
    build payloads = .ok data ↔
      payloads ≠ [] ∧ Fit payloads ∧
        data = Bytes.ofNat 4 payloads.length ++ tableOf (payloads.map bodyOf) ++
          (payloads.map bodyOf).flatten := by
  rw [build]
  by_cases hempty : payloads = []
  · subst hempty
    exact ⟨nofun, fun h => absurd rfl h.1⟩
  · rw [if_neg (by simpa using hempty)]
    simp only [andThen_eq_ok_iff, Bytes.pack_eq_ok_iff,
      mapM_eq_ok_iff_map fun _ _ => packEntry_eq_ok_iff,
      mapM_eq_ok_iff_map fun _ _ => Bytes.pack_eq_ok_iff]
    constructor
    · rintro ⟨_, ⟨hlengths, rfl⟩, _, ⟨hcount, rfl⟩, _, ⟨hbodies, rfl⟩, hdata⟩
      rw [List.length_map] at hcount hdata
      refine ⟨hempty, ⟨hcount, hlengths, fun p hp body hbody => ?_⟩, ?_⟩
      · rw [(packEntry_eq_ok_iff.mp hbody).2]
        exact hbodies _ (List.mem_map_of_mem hp)
      · rw [← Except.ok.inj hdata, tableOf, List.flatMap]
    · rintro ⟨-, hfit, rfl⟩
      refine ⟨_, ⟨hfit.length_lt, rfl⟩, _, ⟨by rw [List.length_map]; exact hfit.count_lt, rfl⟩, _,
        ⟨fun body hbody => ?_, rfl⟩, ?_⟩
      · obtain ⟨p, hp, rfl⟩ := List.mem_map.mp hbody
        exact hfit.length_bodyOf_lt hp
      · rw [List.length_map, tableOf, List.flatMap]
        rfl

/-- What is built of few enough payloads is an archive of their bodies. -/
theorem laid_of_build {payloads : List Bytes} {data : Bytes} (h : build payloads = .ok data)
    (hlt : payloads.length < maxEntries) : Laid (payloads.map bodyOf) data := by
  obtain ⟨hne, hfit, rfl⟩ := build_eq_ok_iff.mp h
  refine ⟨by simpa using hne, by simpa using hlt, ?_, ?_, [], by simp⟩
  · exact List.forall_mem_map.mpr fun p _ => shaped_bodyOf p
  · exact List.forall_mem_map.mpr fun p hp => hfit.length_bodyOf_lt hp

/-- **The round trip of archives**: payloads that fit are packed.  Fewer than
the reader allows are found again, numbered in turn and one behind the other
from the end of the table on, each with the payload it was made of; more are
refused. -/
theorem readAll_of_build (payloads : List Bytes) (hne : payloads ≠ []) (hfit : Fit payloads) :
    ∃ data, build payloads = .ok data ∧
      (payloads.length < maxEntries → ∃ entries, readIndex data = .ok entries ∧
        (∀ (i : Nat) (e : Entry), entries[i]? = some e → e.index = i ∧
          e.offset = 4 + 4 * payloads.length + ((entries.take i).map Entry.length).sum) ∧
        entries.length = payloads.length ∧ readAll data = .ok (entries.zip payloads)) ∧
      (maxEntries ≤ payloads.length →
        readIndex data = .error (.archive (.implausibleCount (some payloads.length)))) := by
  obtain ⟨data, hdata⟩ : ∃ data, build payloads = .ok data :=
    ⟨_, build_eq_ok_iff.mpr ⟨hne, hfit, rfl⟩⟩
  refine ⟨data, hdata, fun hlt => ?_, fun hle => ?_⟩
  · have hlaid := laid_of_build hdata hlt
    refine ⟨_, hlaid.readIndex, fun i e he => ?_, by simp, ?_⟩
    · rw [getElem?_entriesAt, Option.map_eq_some_iff] at he
      obtain ⟨body, -, rfl⟩ := he
      rw [sum_length_entriesAt, List.length_map]
      dsimp only [entryAt]
      omega
    · rw [hlaid.readAll, map_unpack_bodyOf hfit.length_lt]
  · obtain ⟨-, -, rfl⟩ := build_eq_ok_iff.mp hdata
    have hcount := readUInt?_count hfit.count_lt
      (tableOf (payloads.map bodyOf) ++ (payloads.map bodyOf).flatten)
    rw [readIndex, List.append_assoc, hcount]
    dsimp only
    rw [if_pos (.inr hle)]

/-- Nothing, the start of a picture, and bytes that repeat. -/
def mixedPayloads : List Bytes :=
  [[], [0x89, 0x50, 0x4E, 0x47, 0x0D], [0x41, 0x42, 0x41, 0x42, 0x41, 0x42, 0x41, 0x42]]

theorem readAll_of_build_mixed :
    (∃ data entries, build mixedPayloads = .ok data ∧ readIndex data = .ok entries ∧
      entries.length = 3 ∧ readAll data = .ok (entries.zip mixedPayloads)) ∧
    ∃ data, build (List.replicate maxEntries []) = .ok data ∧
      readIndex data = .error (.archive (.implausibleCount (some 400000))) := by
  have hmixed : Fit mixedPayloads :=
    .of_length_lt (by decide) (by simp [mixedPayloads])
  have hcount : (List.replicate maxEntries ([] : Bytes)).length = 400000 := List.length_replicate
  have hmany : Fit (List.replicate maxEntries []) := by
    refine .of_length_lt (by omega) fun data hdata => ?_
    rw [List.eq_of_mem_replicate hdata]
    decide
  obtain ⟨data, hdata, hfew, -⟩ := readAll_of_build mixedPayloads (by decide) hmixed
  obtain ⟨entries, hentries, -, hlength, hall⟩ := hfew (by decide)
  obtain ⟨data', hdata', -, hrefused⟩ := readAll_of_build (List.replicate maxEntries [])
    (List.ne_nil_of_length_pos (by omega)) hmany
  refine ⟨⟨data, entries, hdata, hentries, hlength, hall⟩, data', hdata', ?_⟩
  rw [hcount] at hrefused
  exact hrefused (Nat.le_refl _)

end Archive

end Scenario
