import Scenario.Dialect
import Scenario.Proofs.Traverse

/-!
# Scenario.Proofs.Tables

The function tables of the versions.  The tables are made of signatures by a
step that can fail, and would be empty if it did.  It does not: every
signature of every version has an entry, and every entry comes from one.

What the rest of the theory needs of the tables is one fact, that function
zero takes a string and nothing else (`Version.lookup_zero`).
-/

namespace Scenario

/-! ## building a table -/

namespace FunctionTable

variable {signatures names : List (Int × String)} {table : FunctionTable}

/-- A code that fits a byte and a signature of known letters make an entry. -/
theorem exists_entry {code : Int} {signature : String} (h0 : 0 ≤ code) (hcode : code ≤ 0xFF)
    {kinds : List ArgumentKind} (h : Signature.parse ArgumentKind.ofLetter? signature = .ok kinds) :
    ∃ e, entry names code signature = .ok e := by
  rw [entry, if_neg (by omega), h]
  exact ⟨_, rfl⟩

/-- An entry has the code and the operands of its signature. -/
theorem entry_eq_ok {code : Int} {signature : String} {b : UInt8} {spec : Spec ArgumentKind}
    (h : entry names code signature = .ok (b, spec)) :
    code = b.toNat ∧ Signature.parse ArgumentKind.ofLetter? signature = .ok spec.operands := by
  rw [entry] at h
  split at h
  · cases h
  · next hrange =>
    obtain ⟨kinds, hparse, hentry⟩ := andThen_eq_ok_iff.mp h
    obtain ⟨rfl, rfl⟩ := Prod.mk.inj (Except.ok.inj hentry)
    refine ⟨?_, hparse⟩
    rw [UInt8.toNat_ofNat']
    omega

/-- A table can be built if every code fits a byte and every letter is known. -/
theorem exists_build
    (h : ∀ pair ∈ signatures, 0 ≤ pair.1 ∧ pair.1 ≤ 0xFF ∧
      ∃ kinds, Signature.parse ArgumentKind.ofLetter? pair.2 = .ok kinds) :
    ∃ table, build signatures names = .ok table := by
  refine exists_mapM_eq_ok fun pair hpair => ?_
  obtain ⟨h0, hcode, kinds, hkinds⟩ := h pair (List.mem_mergeSort.mp hpair)
  exact exists_entry h0 hcode hkinds

/-- What is found in a table has the code and the operands of a signature. -/
theorem exists_of_lookup_build (h : build signatures names = .ok table) {b : UInt8}
    {spec : Spec ArgumentKind} (hlookup : table.lookup b = some spec) :
    ∃ pair ∈ signatures, pair.1 = b.toNat ∧
      Signature.parse ArgumentKind.ofLetter? pair.2 = .ok spec.operands := by
  obtain ⟨before, behind, hsplit, -⟩ := List.lookup_eq_some_iff.mp hlookup
  have hmem : (b, spec) ∈ table := by rw [hsplit]; simp
  obtain ⟨pair, hpair, hentry⟩ := exists_of_mem_mapM h hmem
  exact ⟨pair, List.mem_mergeSort.mp hpair, entry_eq_ok hentry⟩

/-- Every code with a signature is found in the table. -/
theorem exists_lookup_build (h : build signatures names = .ok table) {pair : Int × String}
    (hpair : pair ∈ signatures) {b : UInt8} (hb : pair.1 = b.toNat) :
    ∃ spec, table.lookup b = some spec := by
  obtain ⟨⟨c, spec⟩, hmem, hentry⟩ := exists_mem_of_mapM h (List.mem_mergeSort.mpr hpair)
  have hc : c = b := by
    have := (entry_eq_ok hentry).1
    exact UInt8.toNat_inj.mp (by omega)
  subst hc
  refine Option.ne_none_iff_exists'.mp fun hnone => ?_
  exact bne_iff_ne.mp (List.lookup_eq_none_iff.mp hnone _ hmem) rfl

/-- What a run of consecutive codes expands to. -/
theorem exists_of_mem_expandRuns {runs : List (Int × List String)} {pair : Int × String}
    (h : pair ∈ expandRuns runs) :
    ∃ run ∈ runs, pair.2 ∈ run.2 ∧ run.1 ≤ pair.1 ∧ pair.1 < run.1 + run.2.length := by
  obtain ⟨run, hrun, hpair⟩ := List.mem_flatMap.mp h
  obtain ⟨⟨signature, i⟩, hmem, rfl⟩ := List.mem_map.mp hpair
  obtain ⟨-, hi, hsignature⟩ := List.mem_zipIdx hmem
  refine ⟨run, hrun, ?_, ?_, ?_⟩ <;> dsimp only
  · rw [hsignature]
    exact List.getElem_mem _
  · omega
  · omega

end FunctionTable

/-! ## the versions -/

namespace Version

/-- The signatures of a version. -/
def signatureRuns : Version → List (Int × List String)
  | v0 => Dialect.V0.signatureRuns
  | v1 => Dialect.V1.signatureRuns
  | v2 => Dialect.V2.signatureRuns

/-- The mnemonics of a version. -/
def functionNames : Version → List (Int × String)
  | v0 => Dialect.V0.names
  | v1 => Dialect.V1.names
  | v2 => Dialect.V2.names

theorem functions_dialect (v : Version) :
    v.dialect.functions = soundTable v.signatureRuns v.functionNames := by
  cases v <;> rfl

/-- The signatures of every version are sound. -/
theorem build_eq_ok (v : Version) :
    FunctionTable.build (FunctionTable.expandRuns v.signatureRuns) v.functionNames =
      .ok v.dialect.functions := by
  -- evaluated run by run, which is much less than entry by entry
  have hall : ∀ run ∈ v.signatureRuns, 0 ≤ run.1 ∧ run.1 + run.2.length ≤ 0x100 ∧
      ∀ signature ∈ run.2, (Signature.parse ArgumentKind.ofLetter? signature).isOk = true := by
    cases v <;> decide +kernel
  obtain ⟨table, htable⟩ := @FunctionTable.exists_build _ v.functionNames fun pair hpair => by
    obtain ⟨run, hrun, hmem, hle, hlt⟩ := FunctionTable.exists_of_mem_expandRuns hpair
    obtain ⟨h0, hcode, hparses⟩ := hall run hrun
    have hok := hparses pair.2 hmem
    refine ⟨by omega, by omega, ?_⟩
    cases hparse : Signature.parse ArgumentKind.ofLetter? pair.2 with
    | error e => simp [hparse, Except.isOk, Except.toBool] at hok
    | ok kinds => exact ⟨kinds, rfl⟩
  rw [functions_dialect, soundTable, htable]

/-- Function zero takes a string in every version. -/
theorem operands_of_lookup_zero (v : Version) {spec : Spec ArgumentKind}
    (h : v.dialect.functions.lookup 0 = some spec) : spec.operands = [.string] := by
  have hall : ∀ pair ∈ FunctionTable.expandRuns v.signatureRuns, pair.1 = 0 → pair.2 = "S" := by
    cases v <;> decide +kernel
  have hparse : Signature.parse ArgumentKind.ofLetter? "S" = .ok [.string] := rfl
  obtain ⟨pair, hpair, hcode, hspec⟩ := FunctionTable.exists_of_lookup_build v.build_eq_ok h
  rw [hall pair hpair hcode, hparse, Except.ok.injEq] at hspec
  exact hspec.symm

/-- Every version has a function zero, which takes a string. -/
theorem lookup_zero (v : Version) :
    ∃ spec, v.dialect.functions.lookup 0 = some spec ∧ spec.operands = [.string] := by
  have hmem : (0, "S") ∈ FunctionTable.expandRuns v.signatureRuns := by
    cases v <;> decide +kernel
  obtain ⟨spec, hspec⟩ := FunctionTable.exists_lookup_build v.build_eq_ok hmem (b := 0) rfl
  exact ⟨spec, hspec, v.operands_of_lookup_zero hspec⟩

end Version

end Scenario
