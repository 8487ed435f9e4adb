import Mathlib.Data.List.Nodup
import Scenario.Proofs.Atomicity
import Scenario.Proofs.Calls
import Scenario.Proofs.History
import Scenario.Proofs.Lines
import Scenario.Proofs.References
import Scenario.Proofs.Untouched

/-!
# Scenario.Proofs.Unedited

Sheets that nobody edited.  A sheet is written from the texts of a script and
read again, and what comes back is to change nothing.

1. A script that was loaded has a sheet: its references lead to texts, and lie
   at addresses that have eight digits (`Session.exists_storedTexts_of_load`,
   `Session.addressable_of_load`).
2. No reference comes twice, so the sheet is read as the entries it was
   written from (`Session.parse_format_entries`).
3. Therefore the texts that were read leave every reference alone
   (`Session.leaves_of_entries`).
4. A revision that leaves every reference alone is the one without texts
   (`Revision.run_eq_of_leaves`), and that changes nothing in a pool that is
   kept (`Revision.run_of_append_of_leaves`).
-/

namespace Scenario

/-! ## dictionaries -/

namespace Ordered

variable {κ ν : Type}

/-- Pairs of which no two have the same key are set one behind the other. -/
theorem foldl_assign_of_nodup [DecidableEq κ] {before pairs : List (κ × ν)}
    (h : ((before ++ pairs).map (·.1)).Nodup) :
    pairs.foldl (fun list pair => assign list pair.1 pair.2) before = before ++ pairs := by
  induction pairs generalizing before with
  | nil => rw [List.foldl_nil, List.append_nil]
  | cons pair pairs ih =>
      rw [List.append_cons] at h
      have hnew : ∀ p ∈ before, p.1 ≠ pair.1 := by
        intro p hp heq
        rw [List.append_assoc, List.map_append, List.nodup_append] at h
        exact h.2.2 p.1 (List.mem_map_of_mem hp) pair.1 (by simp) heq
      rw [List.foldl_cons, assign_of_forall_ne pair.2 hnew, ih h, ← List.append_cons]

/-- A dictionary of pairs of which no two have the same key holds these. -/
theorem toList_ofList_of_nodup [Ord κ] [Std.TransOrd κ] [Std.LawfulEqOrd κ] [DecidableEq κ]
    {pairs : List (κ × ν)} (h : (pairs.map (·.1)).Nodup) : (ofList pairs).toList = pairs := by
  rw [toList_ofList, foldl_assign_of_nodup (by simpa using h), List.nil_append]

end Ordered

/-! ## revisions that leave all alone -/

namespace Revision

variable [Codecs] {r r' : Revision} {image : Image}

/-- What is added to the pool depends on the new texts alone. -/
theorem addAll_congr (hmode : r.mode = r'.mode) {index : Pool.Index} {stored : List Resolved}
    (h : ∀ s ∈ stored, r.newText? s = r'.newText? s) (draft : Draft) :
    r.addAll image index draft stored = r'.addAll image index draft stored := by
  induction stored generalizing draft with
  | nil => rfl
  | cons s stored ih =>
      rw [List.forall_mem_cons] at h
      have hone : ∀ b, r.contribute image index b s = r'.contribute image index b s := by
        intro b
        rw [contribute, contribute, h.1, hmode]
      rw [addAll, addAll, hone]
      split
      · rfl
      · exact ih h.2 _
      · exact ih h.2 _

/-- Nothing is added for references that get no string. -/
theorem addAll_of_not_touches {index : Pool.Index} {stored : List Resolved}
    (h : ∀ s ∈ stored, ¬ r.touches s = true) (draft : Draft) :
    r.addAll image index draft stored = (draft, .ok ()) := by
  induction stored generalizing draft with
  | nil => rfl
  | cons s stored ih =>
      rw [List.forall_mem_cons] at h
      obtain ⟨hmode, hnew⟩ := of_not_touches h.1
      have hnothing : r.contribute image index draft.builder s = (draft.builder, .ok none) := by
        simp only [contribute, hnew, hmode]
      rw [addAll, hnothing]
      exact ih h.2 _

/-- A stored text that is left alone has no new text. -/
theorem newText?_of_leaves (h : ∀ reference ∈ r.refs, r.Leaves image reference)
    {stored : List Resolved} (hstored : image.storedTexts r.refs r.inputEncoding = .ok stored)
    {s : Resolved} (hs : s ∈ stored) : r.newText? s = none := by
  have hreference : s.reference ∈ r.refs :=
    Image.map_reference_of_storedTexts hstored ▸ List.mem_map_of_mem hs
  exact (h _ hreference).newText?_eq_none (Image.resolveAt_of_mem_storedTexts hstored hs)

/-- A revision that leaves every reference alone does what the one without
texts does. -/
theorem run_eq_of_leaves (h : ∀ reference ∈ r.refs, r.Leaves image reference) :
    r.run image = ({ r with texts := .empty } : Revision).run image := by
  rw [run, run]
  dsimp only
  cases hstored : image.storedTexts r.refs r.inputEncoding with
  | error e => rfl
  | ok stored =>
      have hsame : r.addAll image (.ofPool image.pool) (r.start image) stored =
          ({ r with texts := .empty } : Revision).addAll image (.ofPool image.pool)
            (r.start image) stored := by
        refine addAll_congr (by rfl) (fun s hs => ?_) _
        rw [newText?_of_leaves h hstored hs, newText?, Ordered.get?_empty]
      dsimp only
      rw [hsame]
      rfl

/-- A revision that leaves every reference alone changes nothing in a pool that
is kept. -/
theorem run_of_append_of_leaves (hmode : r.mode = .append)
    (h : ∀ reference ∈ r.refs, r.Leaves image reference) {stored : List Resolved}
    (hstored : image.storedTexts r.refs r.inputEncoding = .ok stored) :
    (r.run image).image = image ∧
      ∃ report, (r.run image).result = .ok report ∧ report.patched = 0 := by
  have huntouched : ∀ s ∈ stored, ¬ r.touches s = true := by
    intro s hs
    simp [touches, hmode, newText?_of_leaves h hstored hs]
  have hstart : r.start image =
      ⟨.start r.outputEncoding image.pool r.allowOverflow, [], .empty⟩ := by
    rw [start, hmode]
  rw [run, hstored]
  dsimp only
  rw [addAll_of_not_touches huntouched, hstart]
  exact ⟨rfl, _, rfl, rfl⟩

end Revision

/-! ## sheets of sessions -/

namespace Session

section Loaded

variable [Codecs] {data : Bytes} {options : Options} {s : Session}

/-- Every reference of a script that was loaded leads to a text. -/
theorem exists_storedTexts_of_load (h : load data options = .ok s) :
    ∃ stored, s.image.storedTexts s.refs s.options.encoding = .ok stored := by
  obtain ⟨-, hoptions, hd⟩ := load_eq_ok h
  rw [Image.storedTexts_eq_mapM, hoptions]
  apply exists_mapM_eq_ok
  intro reference hreference
  obtain ⟨offset, text, hread, htext⟩ := Image.exists_text_of_decode hd hreference
  have hoffset : s.image.offsetAt reference = .ok offset := by rw [Image.offsetAt, hread]
  exact ⟨⟨reference, offset, text⟩,
    andThen_eq_ok_iff.mpr ⟨offset, hoffset, andThen_eq_ok_iff.mpr ⟨text, htext, rfl⟩⟩⟩

/-- The references of a script that was loaded have addresses of eight digits:
the length of the code is a 16-bit field. -/
theorem addressable_of_load (h : load data options = .ok s) {reference : Int}
    (hreference : reference ∈ s.refs) : Sheet.Addressable reference := by
  obtain ⟨⟨bs, hfile⟩, -, hd⟩ := load_eq_ok h
  obtain ⟨offset, hread, -⟩ := Image.exists_offset_of_decode hd hreference
  obtain ⟨hlow, hhigh⟩ := Bytes.inside_of_readUInt? hread
  have hlength : s.image.code.length < Nat.pow 256 2 := by
    rw [hfile.codeLength]
    exact Bytes.field_lt _
  have hpow : Nat.pow 256 2 = 65536 := rfl
  constructor <;> omega

/-- No reference of a script comes twice. -/
theorem nodup_refs_of_load (h : load data options = .ok s) : s.refs.Nodup := by
  obtain ⟨-, -, hd⟩ := load_eq_ok h
  exact (Image.fieldsIn_of_decode hd).nodup

/-- The entries of a script are the stored texts that are not blank. -/
theorem entries_of_storedTexts {stored : List Resolved}
    (hstored : s.image.storedTexts s.refs s.options.encoding = .ok stored) :
    s.entries = .ok ((stored.filter fun r => !Text.isBlankText r.text).map
      fun r => (r.reference, r.text)) := by
  rw [entries, Image.entries, hstored]
  rfl

section Entries

variable {list : List (Int × String)}

/-- An entry of a script that was loaded is a reference with the text it leads
to. -/
theorem resolveAt_of_mem_entries (h : load data options = .ok s) (hentries : s.entries = .ok list)
    {e : Int × String} (he : e ∈ list) :
    e.1 ∈ s.refs ∧ ∃ r, s.image.resolveAt s.options.encoding e.1 = .ok r ∧ e.2 = r.text := by
  obtain ⟨stored, hstored⟩ := exists_storedTexts_of_load h
  obtain rfl := Except.ok.inj (hentries.symm.trans (entries_of_storedTexts hstored))
  obtain ⟨r, hr, rfl⟩ := List.mem_map.mp he
  have hmem := List.mem_of_mem_filter hr
  exact ⟨Image.map_reference_of_storedTexts hstored ▸ List.mem_map_of_mem hmem, r,
    Image.resolveAt_of_mem_storedTexts hstored hmem, rfl⟩

/-- No two entries of a script that was loaded have the same address. -/
theorem nodup_entries (h : load data options = .ok s) (hentries : s.entries = .ok list) :
    (list.map (·.1)).Nodup := by
  obtain ⟨stored, hstored⟩ := exists_storedTexts_of_load h
  obtain rfl := Except.ok.inj (hentries.symm.trans (entries_of_storedTexts hstored))
  have hrefs : (stored.map Resolved.reference).Nodup := by
    rw [Image.map_reference_of_storedTexts hstored]
    exact nodup_refs_of_load h
  rw [List.map_map]
  exact hrefs.sublist (List.filter_sublist.map Resolved.reference)

/-- The sheet of a script that was loaded is read as the entries it was written
from. -/
theorem parse_format_entries (h : load data options = .ok s) (hentries : s.entries = .ok list) :
    ∃ texts, Sheet.parse (Sheet.format list) = .ok texts ∧
      texts.map (fun e => ((e.1 : Int), e.2)) = list := by
  have haddress : ∀ e ∈ list, Sheet.Addressable e.1 := fun e he =>
    addressable_of_load h (resolveAt_of_mem_entries h hentries he).1
  have hback : (list.map fun e => (e.1.toNat, e.2)).map (fun e => ((e.1 : Int), e.2)) = list := by
    rw [List.map_map]
    refine (List.map_congr_left fun e he => ?_).trans (List.map_id list)
    exact Prod.ext (Int.toNat_of_nonneg (haddress e he).1) rfl
  have hnodup : ((list.map fun e => (e.1.toNat, e.2)).map (·.1)).Nodup := by
    have hkeys := nodup_entries h hentries
    rw [← hback] at hkeys
    apply List.Nodup.of_map (fun n : Nat => (n : Int))
    simp only [List.map_map, Function.comp_def] at hkeys ⊢
    exact hkeys
  refine ⟨_, Sheet.parse_format haddress, ?_⟩
  rw [Ordered.toList_ofList_of_nodup hnodup, hback]

/-- Putting the entries of a script into it leaves every reference alone. -/
theorem leaves_of_entries (h : load data options = .ok s) (hentries : s.entries = .ok list)
    (mode : Mode) (reference : Int) :
    (s.revision mode (.ofList list)).Leaves s.image reference := by
  cases hget : (Ordered.ofList list).get? reference with
  | none => exact .inl hget
  | some text =>
      have hmem : (reference, text) ∈ list := by
        rw [← Ordered.mem_toList_iff, Ordered.toList_ofList_of_nodup (nodup_entries h hentries)]
          at hget
        exact hget
      obtain ⟨-, r, hresolve, rfl⟩ := resolveAt_of_mem_entries h hentries hmem
      exact .inr ⟨r, hresolve, hget⟩

end Entries

/-- **Sheets that nobody edited**: the sheet of a script that was loaded is read
as the entries it was written from.  Putting them back behind the pool
succeeds, patches nothing and leaves the file as it was; putting them back
into a new pool comes out, with whatever result, as it does without texts. -/
theorem apply_unedited (h : load data options = .ok s) :
    ∃ list texts, s.entries = .ok list ∧ Sheet.parse (Sheet.format list) = .ok texts ∧
      texts.map (fun e => ((e.1 : Int), e.2)) = list ∧
      (∃ report, (s.apply .append (Sheet.toTexts texts)).result = .ok report ∧
        report.patched = 0 ∧ (s.apply .append (Sheet.toTexts texts)).session.toBytes = .ok data) ∧
      s.apply .rebuild (Sheet.toTexts texts) = s.apply .rebuild .empty := by
  obtain ⟨stored, hstored⟩ := exists_storedTexts_of_load h
  have hentries := entries_of_storedTexts hstored
  obtain ⟨texts, hparse, htexts⟩ := parse_format_entries h hentries
  have hleaves := leaves_of_entries h hentries
  have hread : Sheet.toTexts texts = .ofList _ := congrArg Ordered.ofList htexts
  rw [← hread] at hleaves
  refine ⟨_, texts, hentries, hparse, htexts, ?_, ?_⟩
  · obtain ⟨himage, report, hreport, hpatched⟩ := Revision.run_of_append_of_leaves rfl
      (fun reference _ => hleaves .append reference) hstored
    refine ⟨report, by rw [result_apply]; exact hreport, hpatched, ?_⟩
    obtain ⟨⟨bs, hfile⟩, -, -⟩ := load_eq_ok h
    rw [toBytes, image_session_apply, himage]
    exact hfile.write
  · rw [apply, apply, Revision.run_eq_of_leaves fun reference _ => hleaves .rebuild reference]
    rfl

end Loaded

/-- A file with three calls: of a text that needs escapes, of a blank one, and
of half a character. -/
def escapesFile : Bytes := [
  0x00, 0x00, 0x00, 0x00, 0x00, 0x00, 0x0D, 0x00, 0x00, 0x00, 0x00, 0x00,
  0x00, 0x00, 0x00, 0x00, 0x00, 0x00, 0x05, 0x00, 0x00, 0x00, 0x07, 0x00, 0x0D,
  0x41, 0x09, 0x5C, 0x6E, 0x00, 0x20, 0x00, 0x81]

/-- The image of that file. -/
def escapesImage : Image :=
  ⟨escapesFile.take 12, [], Code.ofCalls [(0, 0), (5, 0), (7, 0)], 12,
    [0x41, 0x09, 0x5C, 0x6E, 0x00, 0x20, 0x00, 0x81]⟩

/-- New texts are stored in an encoding that has no bytes for the last of these
texts. -/
def escapesOptions : Options := ⟨.v0, "cp932", some "ascii", false⟩

theorem apply_unedited_escapes :
    ∃ s texts report, load escapesFile escapesOptions = .ok s ∧
      s.entries = .ok [(2, "A\t\\n"), (10, "\uFFFD")] ∧
      Sheet.parse (Sheet.format [(2, "A\t\\n"), (10, "\uFFFD")]) = .ok texts ∧
      (s.apply .append (Sheet.toTexts texts)).result = .ok report ∧ report.patched = 0 ∧
      (s.apply .append (Sheet.toTexts texts)).session.toBytes = .ok escapesFile ∧
      s.apply .rebuild (Sheet.toTexts texts) = s.apply .rebuild .empty := by
  obtain ⟨d, hload, hrefs⟩ := @exists_load_of_calls _ escapesFile escapesImage escapesOptions rfl
    (Encoding.decodes_of_lenient rfl) [(0, 0), (5, 0), (7, 0)] rfl
    (by simp [Bytes.word, escapesImage])
  have hshown : (escapesImage.entries [2, 6, 10] "cp932").toOption.map id =
      some [(2, "A\t\\n"), (10, "\uFFFD")] := by
    decide +kernel
  obtain ⟨shown, hshown, rfl⟩ := exists_ok_of_map_toOption hshown
  obtain ⟨list, texts, hentries, hparse, -, ⟨report, hreport, hpatched, hbytes⟩, hrebuild⟩ :=
    apply_unedited hload
  have hsame : escapesImage.entries [2, 6, 10] "cp932" = .ok list := by
    rw [entries, refs, hrefs] at hentries
    exact hentries
  obtain rfl := Except.ok.inj (hshown.symm.trans hsame)
  exact ⟨_, texts, report, hload, hentries, hparse, hreport, hpatched, hbytes, hrebuild⟩

end Session

end Scenario
