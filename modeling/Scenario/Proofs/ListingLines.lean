import Mathlib.Data.List.DropRight
import Scenario.Proofs.Calls
import Scenario.Proofs.Listable
import Scenario.Proofs.Numerals

/-!
# Scenario.Proofs.ListingLines

No text of a pool breaks a listing.

1. `escapeInTurn_eq` — escaping the four special characters one after the
   other, the backslash first, is escaping each character on its own.
2. `injective_escape`, `odd_backslashes` — the escaped text tells the text,
   and no quote in it can be taken for the one that closes it.
3. `Listing.Shows` — what lines show: they hold no line feed, and the texts
   between quotes are those of some references.  It is proved of the lines of
   each kind of operand, and from these of all decoded code.
4. `Image.listing_lines` — hence the lines of a listing are those of its
   instructions, and the texts between quotes are those of its references.
-/

namespace Scenario

namespace Listing

/-! ## escapes -/

/-- Characters with another text in the place of each `c`. -/
def replaceEach (c : Char) (new cs : List Char) : List Char :=
  cs.flatMap fun d => if d = c then new else [d]

/-- Characters with the four special ones replaced in turn. -/
def escapeInTurn (cs : List Char) : List Char :=
  replaceEach '\"' ['\\', '\"'] <| replaceEach '\n' ['\\', 'n'] <|
    replaceEach '\r' ['\\', 'r'] <| replaceEach '\\' ['\\', '\\'] cs

/-- A replacement never meets what an earlier one has put in, since the
backslash comes first. -/
theorem escapeInTurn_eq (cs : List Char) : escapeInTurn cs = cs.flatMap escapeChar := by
  simp only [escapeInTurn, replaceEach, List.flatMap_assoc]
  congr 1
  funext c
  rw [escapeChar]
  split_ifs <;> simp_all

theorem toList_escape (s : String) : (escape s).toList = s.toList.flatMap escapeChar :=
  String.toList_ofList

/-- The text that stands between quotes. -/
def unescapeChars : List Char → List Char
  | [] => []
  | [c] => [c]
  | c :: d :: rest =>
    if c = '\\' then
      (if d = 'r' then '\r' else if d = 'n' then '\n' else d) :: unescapeChars rest
    else c :: unescapeChars (d :: rest)

theorem unescapeChars_of_ne {c : Char} (h : c ≠ '\\') (cs : List Char) :
    unescapeChars (c :: cs) = c :: unescapeChars cs := by
  cases cs with
  | nil => rfl
  | cons d rest => rw [unescapeChars, if_neg h]

theorem unescapeChars_flatMap (cs : List Char) : unescapeChars (cs.flatMap escapeChar) = cs := by
  induction cs with
  | nil => rfl
  | cons c cs ih =>
      rw [List.flatMap_cons, escapeChar]
      split_ifs with hbackslash hreturn hfeed hquote
      · subst hbackslash
        simp [unescapeChars, ih]
      · subst hreturn
        simp [unescapeChars, ih]
      · subst hfeed
        simp [unescapeChars, ih]
      · subst hquote
        simp [unescapeChars, ih]
      · rw [List.singleton_append, unescapeChars_of_ne hbackslash, ih]

/-- **The escaped text** tells the text. -/
theorem injective_escape : Function.Injective escape := by
  intro s s' h
  have hchars : s.toList.flatMap escapeChar = s'.toList.flatMap escapeChar := by
    rw [← toList_escape, ← toList_escape, h]
  rw [← String.toList_inj, ← unescapeChars_flatMap s.toList, hchars, unescapeChars_flatMap]

theorem ne_of_mem_escape {s : String} {c : Char} (h : c ∈ (escape s).toList) :
    c ≠ '\r' ∧ c ≠ '\n' := by
  rw [toList_escape] at h
  obtain ⟨d, -, hc⟩ := List.mem_flatMap.mp h
  rw [escapeChar] at hc
  split_ifs at hc <;> simp only [List.mem_cons, List.not_mem_nil, or_false] at hc
  · rcases hc with rfl | rfl <;> simp
  · rcases hc with rfl | rfl <;> simp
  · rcases hc with rfl | rfl <;> simp
  · rcases hc with rfl | rfl <;> simp
  · next hreturn hfeed _ => exact hc ▸ ⟨hreturn, hfeed⟩

/-- How many backslashes stand at the end. -/
def backslashes (cs : List Char) : Nat := (cs.reverse.takeWhile (· == '\\')).length

theorem backslashes_concat (cs : List Char) (c : Char) :
    backslashes (cs ++ [c]) = if c = '\\' then backslashes cs + 1 else 0 := by
  rw [backslashes, List.reverse_append, List.reverse_singleton, List.singleton_append,
    List.takeWhile_cons]
  by_cases hc : c = '\\'
  · simp [hc, backslashes]
  · simp [hc]

/-- Backslashes come in pairs unless something follows that they escape. -/
theorem even_backslashes (cs : List Char) : backslashes (cs.flatMap escapeChar) % 2 = 0 := by
  induction cs using List.reverseRecOn with
  | nil => rfl
  | append_singleton cs c ih =>
      rw [List.flatMap_append, List.flatMap_singleton, escapeChar]
      split_ifs with hbackslash hreturn hfeed hquote
      · rw [List.append_cons _ '\\' ['\\'], backslashes_concat, backslashes_concat]
        simp only [↓reduceIte]
        omega
      · rw [List.append_cons _ '\\' ['r'], backslashes_concat]
        rfl
      · rw [List.append_cons _ '\\' ['n'], backslashes_concat]
        rfl
      · rw [List.append_cons _ '\\' ['\"'], backslashes_concat]
        rfl
      · rw [backslashes_concat, if_neg hbackslash]

theorem eq_of_escapeChar_eq {c : Char} {before after : List Char}
    (h : escapeChar c = before ++ '\"' :: after) : before = ['\\'] := by
  have hmem : '\"' ∈ escapeChar c := by
    rw [h]
    simp
  have hc : c = '\"' := by
    by_contra hc
    have hquote : '\"' ≠ c := Ne.symm hc
    rw [escapeChar] at hmem
    split_ifs at hmem <;> simp_all
  subst hc
  cases before with
  | nil => cases h
  | cons d before =>
      cases before with
      | nil =>
          cases h
          rfl
      | cons e before => cases before <;> cases h

/-- **Quotes**: each is escaped, by a backslash that is not itself escaped. -/
theorem odd_backslashes {cs before after : List Char}
    (h : cs.flatMap escapeChar = before ++ '\"' :: after) : backslashes before % 2 = 1 := by
  induction cs using List.reverseRecOn generalizing after with
  | nil => simp at h
  | append_singleton cs c ih =>
      rw [List.flatMap_append, List.flatMap_singleton] at h
      rcases List.append_eq_append_iff.mp h with ⟨between, rfl, hlast⟩ | ⟨between, hfirst, hrest⟩
      · -- the quote is the last character
        rw [eq_of_escapeChar_eq hlast, backslashes_concat, if_pos rfl, Nat.add_mod,
          even_backslashes]
      · cases between with
        | nil =>
            have hstart : escapeChar c = [] ++ '\"' :: after := hrest.symm
            cases eq_of_escapeChar_eq hstart
        | cons d between =>
            cases hrest
            exact ih hfirst

/-! ## texts between quotes -/

/-- What stands between the first and the last quote of a line. -/
def quoted? (line : String) : Option (List Char) :=
  match line.toList.dropWhile (· != '\"') with
  | [] => none
  | _ :: rest => some (List.rdropWhile (· != '\"') rest).dropLast

/-- A text without line feeds and quotes. -/
def Plain (s : String) : Prop := ∀ c ∈ s.toList, c ≠ '\n' ∧ c ≠ '\"'

@[simp] theorem plain_append {s s' : String} : Plain (s ++ s') ↔ Plain s ∧ Plain s' := by
  simp only [Plain, String.toList_append, List.forall_mem_append]

theorem plain_intercalate {separator : String} (hseparator : Plain separator) {ss : List String}
    (h : ∀ s ∈ ss, Plain s) : Plain (separator.intercalate ss) := by
  induction ss with
  | nil => simp [Plain]
  | cons s ss ih =>
      rw [List.forall_mem_cons] at h
      cases ss with
      | nil => simpa using h.1
      | cons s' ss => simpa [String.intercalate_cons_cons, hseparator, h.1] using ih h.2

theorem Plain.feed_notMem {s : String} (h : Plain s) : '\n' ∉ s.toList :=
  fun hmem => (h _ hmem).1 rfl

theorem Plain.dropWhile {s : String} (h : Plain s) (cs : List Char) :
    (s.toList ++ cs).dropWhile (· != '\"') = cs.dropWhile (· != '\"') := by
  rw [List.dropWhile_append_of_pos]
  intro c hc
  simpa using (h c hc).2

theorem quoted?_of_plain {line : String} (h : Plain line) : quoted? line = none := by
  have hnone := h.dropWhile []
  rw [List.append_nil] at hnone
  rw [quoted?, hnone]
  rfl

theorem quoted?_of_quotes {before : String} (h : Plain before) (inner : String) :
    quoted? (before ++ "\"" ++ inner ++ "\"") = some inner.toList := by
  have hfirst : (before ++ "\"" ++ inner ++ "\"").toList.dropWhile (· != '\"') =
      '\"' :: (inner.toList ++ ['\"']) := by
    rw [String.toList_append, String.toList_append, String.toList_append, List.append_assoc,
      List.append_assoc, h.dropWhile]
    simp
  rw [quoted?, hfirst]
  simp [List.rdropWhile_concat_neg]

/-! ## numerals -/

theorem plain_of_digits {digits : Nat → List Char}
    (h : ∀ n, ∀ c ∈ digits n, c ≠ '\n' ∧ c ≠ '\"') (width : Nat) (value : Int) :
    Plain (String.ofList (Numeral.padded digits width value)) := by
  intro c hc
  rw [String.toList_ofList] at hc
  rcases Numeral.mem_padded hc with rfl | rfl | ⟨n, hc⟩
  · decide
  · decide
  · exact h n c hc

theorem exists_of_mem_hexDigits {n : Nat} {c : Char} (h : c ∈ Numeral.hexDigits n) :
    ∃ d < 16, c = Numeral.hexDigit d := by
  induction n using Numeral.hexDigits.induct with
  | case1 n hn =>
      rw [Numeral.hexDigits, if_pos hn, List.mem_singleton] at h
      exact ⟨n, hn, h⟩
  | case2 n hn ih =>
      rw [Numeral.hexDigits, if_neg hn, List.mem_append, List.mem_singleton] at h
      rcases h with h | h
      · exact ih h
      · exact ⟨n % 16, Nat.mod_lt _ (by decide), h⟩

@[simp] theorem plain_hex (width : Nat) (value : Int) : Plain (Numeral.hex width value) := by
  refine plain_of_digits (fun n c hc => ?_) width value
  obtain ⟨d, hd, rfl⟩ := exists_of_mem_hexDigits hc
  have hvalue := Numeral.hexValue?_hexDigit hd
  constructor <;> intro heq <;> rw [heq] at hvalue <;> cases hvalue

@[simp] theorem plain_decimal (value : Int) : Plain (Numeral.decimal value) := by
  refine plain_of_digits (fun n c hc => ?_) 0 value
  have hdigit := Numeral.isDigit_of_mem_decimalDigits hc
  constructor <;> rintro rfl <;> simp at hdigit

/-! ## lines and what they show -/

/-- Lines without line feeds, in which the texts between quotes are those of
the references, escaped. -/
structure Shows (lines : List String) (refs : List StringRef) : Prop where
  feeds : ∀ line ∈ lines, '\n' ∉ line.toList
  quotes : lines.filterMap quoted? = refs.map fun r => (escape r.text).toList

namespace Shows

theorem append {lines lines' : List String} {refs refs' : List StringRef} (h : Shows lines refs)
    (h' : Shows lines' refs') : Shows (lines ++ lines') (refs ++ refs') where
  feeds := List.forall_mem_append.mpr ⟨h.feeds, h'.feeds⟩
  quotes := by rw [List.filterMap_append, List.map_append, h.quotes, h'.quotes]

/-- Lines without quotes show no text. -/
theorem of_plain {lines : List String} (h : ∀ line ∈ lines, Plain line) : Shows lines [] where
  feeds line hline := (h line hline).feed_notMem
  quotes := by
    rw [List.map_nil, List.filterMap_eq_nil_iff]
    exact fun line hline => quoted?_of_plain (h line hline)

theorem cons {line : String} {lines : List String} {refs : List StringRef} (hline : Plain line)
    (h : Shows lines refs) : Shows (line :: lines) refs :=
  append (@of_plain [line] (by simpa using hline)) h

end Shows

theorem plain_commentLine {comment : String} (h : Plain comment) (address : Int) :
    Plain (commentLine address comment) := by
  have hbar : Plain " | ; " := by simp [Plain]
  simp [commentLine, hbar, h]

theorem plain_mnemonicLine {mnemonic : String} (h : Plain mnemonic) (address : Int) :
    Plain (mnemonicLine address mnemonic) := by
  have hbar : Plain " | " := by simp [Plain]
  simp [mnemonicLine, hbar, h]

/-- The line of a string reference. -/
def refLine (address : Int) (r : StringRef) : String :=
  commentLine address ("ref 0x" ++ Numeral.hex 4 r.offset ++ " \"" ++ escape r.text ++ "\"")

theorem shows_refLine (address : Int) (r : StringRef) : Shows [refLine address r] [r] := by
  obtain ⟨before, hbefore, hline⟩ : ∃ before, Plain before ∧
      refLine address r = before ++ "\"" ++ escape r.text ++ "\"" := by
    refine ⟨Numeral.hex 8 address ++ " | ; ref 0x" ++ Numeral.hex 4 r.offset ++ " ", ?_, ?_⟩
    · have hbar : Plain " | ; ref 0x" := by simp [Plain]
      have hblank : Plain " " := by simp [Plain]
      simp [hbar, hblank]
    · rw [← String.toList_inj]
      simp [refLine, commentLine]
  rw [hline]
  constructor
  · have hescape : '\n' ∉ (escape r.text).toList := fun hmem => (ne_of_mem_escape hmem).2 rfl
    simp [hbefore.feed_notMem, hescape]
  · simp [quoted?_of_quotes hbefore]

/-- The lines of an operand show its references. -/
def ShownBy (address : Int) (o : Operand) : Prop :=
  ∃ lines, operandLines address o = .ok lines ∧ Shows lines o.references

end Listing

/-! ## decoded code -/

section Laid

open Listing

variable {ctx : Context} {base position : Int}

/-- What is found in a list of pairs is one of them. -/
theorem mem_of_lookup_eq_some {κ ν : Type} [BEq κ] [LawfulBEq κ] {pairs : List (κ × ν)} {key : κ}
    {value : ν} (h : pairs.lookup key = some value) : (key, value) ∈ pairs := by
  obtain ⟨before, behind, rfl, -⟩ := List.lookup_eq_some_iff.mp h
  simp

theorem TokensLaid.plain {address : Int} {tokens : List Token} {bs : Bytes}
    (h : TokensLaid address tokens bs) : ∀ t ∈ tokens, Plain (Expression.showToken t) := by
  have hall : ∀ p ∈ Expression.operators, Plain p.2 := by simp [Expression.operators, Plain]
  induction h with
  | done => simp
  | load register low high rest ih =>
      have hopen : Plain "load(0x" := by simp [Plain]
      have hcomma : Plain ",0x" := by simp [Plain]
      have hclose : Plain ")" := by simp [Plain]
      refine List.forall_mem_cons.mpr ⟨?_, ih⟩
      simp [Expression.showToken, hopen, hcomma, hclose]
  | operator flag code hload hend hname rest ih =>
      refine List.forall_mem_cons.mpr ⟨?_, ih⟩
      exact hall _ (mem_of_lookup_eq_some hname)

theorem TokensLaid.plain_display {address : Int} {tokens : List Token} {bs : Bytes} {size : Int}
    (h : TokensLaid address tokens bs) : Plain (Expression.display ⟨address, tokens, size⟩) := by
  rw [Expression.display]
  split
  · simp [Plain]
  · refine plain_intercalate (by simp [Plain]) fun s hs => ?_
    obtain ⟨t, ht, rfl⟩ := List.mem_map.mp hs
    exact h.plain t ht

theorem shownBy_raw {name : String} (hname : Plain name) {width value : Int}
    (hwidth : 0 ≤ width ∧ width ≤ 2) (address : Int) :
    ShownBy address (.raw name width value) := by
  obtain ⟨comment, hcomment⟩ := exists_rawComment hwidth name value
  have hplain : Plain comment := by
    have htarget : Plain "target L_" := by simp [Plain]
    have hdigits : Plain " 0x" := by simp [Plain]
    rw [rawComment] at hcomment
    split_ifs at hcomment
    all_goals
      cases hcomment
      simp [htarget, hdigits, hname]
  refine ⟨[commentLine address comment], by rw [operandLines, hcomment]; rfl, .of_plain ?_⟩
  simpa using plain_commentLine hplain address

theorem ArgumentLaid.shownBy [Codecs] {name : String} {kind : ArgumentKind} {o : Operand}
    {bs : Bytes}
    (h : ArgumentLaid ctx base position name kind o bs) (hname : Plain name) (address : Int) :
    ShownBy address o := by
  cases h with
  | word low high => exact shownBy_raw hname (by decide) address
  | expression htokens =>
      have hexpr : Plain "expr " := by simp [Plain]
      refine ⟨_, by rw [operandLines], .of_plain ?_⟩
      simpa using plain_commentLine (by simp [hexpr, htokens.plain_display]) address
  | string low high htext =>
      exact ⟨[refLine address _], by rw [operandLines]; rfl, shows_refLine _ _⟩

theorem OperandsLaid.shown {κ : Type} {one : Int → String → κ → Operand → Bytes → Prop}
    (hone : ∀ {p name kind o bs}, one p name kind o bs → Plain name → ∀ address, ShownBy address o)
    {spec : Spec κ} (hnames : ∀ index, Plain (spec.operandName index)) {index : Nat}
    {kinds : List κ} {os : List Operand} {bs : Bytes}
    (h : OperandsLaid one spec position index kinds os bs) (address : Int) :
    ∃ lines, operandsLines address os = .ok lines ∧ Shows lines (Operand.allReferences os) := by
  induction h with
  | nil => exact ⟨[], by rw [operandsLines], .of_plain (by simp)⟩
  | cons first rest ih =>
      obtain ⟨lines, hlines, hshows⟩ := hone first (hnames _) address
      obtain ⟨lines', hlines', hshows'⟩ := ih
      exact ⟨lines ++ lines', by rw [operandsLines, hlines, hlines']; rfl, hshows.append hshows'⟩

/-- The names in a schema. -/
def Spec.PlainNames {κ : Type} (spec : Spec κ) : Prop :=
  Plain spec.mnemonic ∧ ∀ name ∈ spec.names, Plain name

theorem Spec.PlainNames.operandName {κ : Type} {spec : Spec κ} (h : spec.PlainNames)
    (index : Nat) : Plain (spec.operandName index) := by
  have harg : Plain "arg" := by simp [Plain]
  rw [Spec.operandName]
  cases hname : spec.names[index]? with
  | none => simp [harg]
  | some name => exact h.2 name (List.mem_of_getElem? hname)

/-- The functions of a context have plain names. -/
def Context.PlainNames (ctx : Context) : Prop :=
  ∀ code spec, ctx.dialect.functions.lookup code = some spec → spec.PlainNames

theorem OperandLaid.shownBy [Codecs] (hctx : ctx.PlainNames)
    {name : String} {kind : OperandKind} {o : Operand} {bs : Bytes}
    (h : OperandLaid ctx base position name kind o bs) (hname : Plain name) (address : Int) :
    ShownBy address o := by
  cases h with
  | byte b => exact shownBy_raw hname (by decide) address
  | argument h => exact h.shownBy hname address
  | function code hspec hos =>
      have hplain := hctx _ _ hspec
      obtain ⟨lines, hlines, hshows⟩ :=
        hos.shown ArgumentLaid.shownBy hplain.operandName (base + position)
      exact ⟨_, by rw [operandLines, hlines]; rfl, .cons (plain_mnemonicLine hplain.1 _) hshows⟩
  | switch low high count hcount hcases =>
      have hdefault : Plain "default L_" := by simp [Plain]
      have hcount : Plain "count " := by simp [Plain]
      have hcase : Plain "case 0x" := by simp [Plain]
      have htarget : Plain " L_" := by simp [Plain]
      refine ⟨_, by rw [operandLines], .of_plain ?_⟩
      rintro line hline
      obtain ⟨comment, hcomment, rfl⟩ := List.mem_map.mp hline
      refine plain_commentLine ?_ address
      rw [switchComments, List.mem_cons, List.mem_cons, List.mem_map] at hcomment
      rcases hcomment with rfl | rfl | ⟨⟨number, target⟩, -, rfl⟩
      · simp [hdefault]
      · simp [hcount]
      · simp [hcase, htarget]

theorem InstructionLaid.shown [Codecs] (hctx : ctx.PlainNames) {i : Instruction} {bs : Bytes}
    (h : InstructionLaid ctx base position i bs) :
    ∃ line lines, instructionLines i = .ok (line :: lines) ∧
      Shows (line :: lines) i.references := by
  have hall : ∀ p ∈ opcodes, p.2.PlainNames := by simp [opcodes, Spec.PlainNames, Plain]
  cases h with
  | mk opcode hspec hos =>
      have hplain := hall _ (mem_of_lookup_eq_some hspec)
      obtain ⟨lines, hlines, hshows⟩ :=
        hos.shown (OperandLaid.shownBy hctx) hplain.operandName (base + position)
      exact ⟨_, lines, by rw [instructionLines, hlines]; rfl,
        .cons (plain_mnemonicLine hplain.1 _) hshows⟩

theorem CodeLaid.shown [Codecs] (hctx : ctx.PlainNames) {is : List Instruction} {bs tail : Bytes}
    (h : CodeLaid ctx base position is bs tail) :
    ∃ lines, is.mapM instructionLines = .ok lines ∧
      Shows lines.flatten (is.flatMap Instruction.references) ∧ (is ≠ [] → lines.flatten ≠ []) := by
  induction h with
  | done hpad => exact ⟨[], rfl, .of_plain (by simp), by simp⟩
  | step hpad first rest ih =>
      obtain ⟨line, lines, hlines, hshows⟩ := first.shown hctx
      obtain ⟨rest, hrest, hrestShows, -⟩ := ih
      refine ⟨(line :: lines) :: rest, ?_, hshows.append hrestShows, by simp⟩
      rw [List.mapM_cons, hlines, hrest]
      rfl

end Laid

/-- An entry has no names for its operands, and a mnemonic from the list or
one after its code. -/
theorem FunctionTable.names_of_entry {names : List (Int × String)} {code : Int}
    {signature : String} {b : UInt8} {spec : Spec ArgumentKind}
    (h : entry names code signature = .ok (b, spec)) :
    spec.names = [] ∧ spec.mnemonic = (names.lookup code).getD ("func_" ++ Numeral.hex 2 code) := by
  rw [entry] at h
  split at h
  · cases h
  · obtain ⟨kinds, -, hentry⟩ := andThen_eq_ok_iff.mp h
    cases hentry
    exact ⟨rfl, rfl⟩

/-- The functions of the versions have plain names. -/
theorem Version.plainNames_of_lookup (v : Version) {code : UInt8} {spec : Spec ArgumentKind}
    (h : v.dialect.functions.lookup code = some spec) : spec.PlainNames := by
  have hall : ∀ p ∈ v.functionNames, Listing.Plain p.2 := by
    cases v <;> simp [functionNames, Dialect.V0.names, Dialect.V1.names, Dialect.V2.names,
      Listing.Plain]
  have hfunc : Listing.Plain "func_" := by simp [Listing.Plain]
  obtain ⟨pair, -, hentry⟩ := exists_of_mem_mapM v.build_eq_ok (mem_of_lookup_eq_some h)
  obtain ⟨hnames, hmnemonic⟩ := FunctionTable.names_of_entry hentry
  refine ⟨?_, by simp [hnames]⟩
  rw [hmnemonic]
  cases hname : v.functionNames.lookup pair.1 with
  | none => simp [hfunc]
  | some name => exact hall _ (mem_of_lookup_eq_some hname)

/-! ## listings -/

/-- A line feed at the end is one before an empty line. -/
theorem intercalate_concat_nil {ls : List (List Char)} (h : ls ≠ []) :
    ['\n'].intercalate (ls ++ [[]]) = ['\n'].intercalate ls ++ ['\n'] := by
  induction ls with
  | nil => exact absurd rfl h
  | cons l ls ih =>
      rw [List.cons_append, List.intercalate_cons_of_ne_nil (by simp)]
      cases ls with
      | nil => simp
      | cons l' ls =>
          rw [ih (by simp), @List.intercalate_cons_of_ne_nil _ _ _ (l' :: ls) (by simp)]
          simp

/-- Lines that hold no line feed are what a text of them splits into, with
nothing behind the last. -/
theorem Listing.splitOn_text {lines : List String} (hne : lines ≠ [])
    (h : ∀ line ∈ lines, '\n' ∉ line.toList) :
    (text lines).toList.splitOn '\n' = lines.map String.toList ++ [[]] := by
  have htext : (text lines).toList = ['\n'].intercalate (lines.map String.toList ++ [[]]) := by
    rw [intercalate_concat_nil (by simpa using hne), text, String.toList_append,
      String.toList_intercalate]
    rfl
  rw [htext, List.splitOn_intercalate _ _ (by simp)]
  intro l hl
  rw [List.mem_append, List.mem_map, List.mem_singleton] at hl
  rcases hl with ⟨line, hline, rfl⟩ | rfl
  · exact h line hline
  · simp

/-- **Listings** are not broken by what they show.  The listing of decoded code
splits at its line feeds into the lines of the instructions, with nothing
behind the last.  The texts that stand between the quotes of a line are, in
order, the escaped texts of the string references.

To escape the special characters in turn is to escape each on its own.  The
result tells the text; it holds no line end, and before each quote in it
stands an odd number of backslashes. -/
theorem Image.listing_lines [Codecs] {image : Image} {v : Version} {encoding : String} {d : Decoded}
    (h : image.decode v.dialect encoding = .ok d) (hne : d.instructions ≠ []) :
    (∃ text lines, Listing.render d.instructions none "" = .ok text ∧
      d.instructions.mapM Listing.instructionLines = .ok lines ∧
      text.toList.splitOn '\n' = lines.flatten.map String.toList ++ [[]] ∧
      lines.flatten.filterMap Listing.quoted? =
        (d.instructions.flatMap Instruction.references).map fun r =>
          Listing.escapeInTurn r.text.toList) ∧
    (∀ s, (Listing.escape s).toList = Listing.escapeInTurn s.toList) ∧
    Function.Injective Listing.escape ∧
    ∀ s, '\r' ∉ (Listing.escape s).toList ∧ '\n' ∉ (Listing.escape s).toList ∧
      ∀ before after, (Listing.escape s).toList = before ++ '\"' :: after →
        Listing.backslashes before % 2 = 1 := by
  have hescape : ∀ s, (Listing.escape s).toList = Listing.escapeInTurn s.toList := fun s => by
    rw [Listing.toList_escape, Listing.escapeInTurn_eq]
  refine ⟨?_, hescape, Listing.injective_escape, fun s => ⟨?_, ?_, ?_⟩⟩
  · obtain ⟨is, bs, tail, hlaid, -, rfl⟩ := Code.decode_eq_ok_iff.mp h
    obtain ⟨lines, hlines, hshows, hsome⟩ := hlaid.shown fun _ _ => v.plainNames_of_lookup
    refine ⟨Listing.text lines.flatten, lines, ?_, hlines,
      Listing.splitOn_text (hsome hne) hshows.feeds, ?_⟩
    · rw [Listing.render, hlines]
      rfl
    · simp only [hshows.quotes, hescape]
  · exact fun hmem => (Listing.ne_of_mem_escape hmem).1 rfl
  · exact fun hmem => (Listing.ne_of_mem_escape hmem).2 rfl
  · intro before after hsplit
    rw [Listing.toList_escape] at hsplit
    exact Listing.odd_backslashes hsplit

/-- A call of function zero with a text of all the special characters. -/
theorem Image.listing_lines_special :
    ∃ d text, ∃ lines : List String,
      Image.decode ⟨[], [], [0, 0, 0, 0], 12, [0x22, 0x5C, 0x0A, 0x0D, 0]⟩
        Version.v1.dialect "ascii" = .ok d ∧
      Listing.render d.instructions none "" = .ok text ∧
      text.toList.splitOn '\n' = lines.map String.toList ++ [[]] ∧
      lines.filterMap Listing.quoted? = [['\\', '\"', '\\', '\\', '\\', 'n', '\\', 'r']] := by
  let ctx : Context := ⟨Version.v1.dialect, .ofPool [0x22, 0x5C, 0x0A, 0x0D, 0], "ascii"⟩
  obtain ⟨spec, hspec, hoperands⟩ := Version.v1.lookup_zero
  have htext : ctx.pool.resolve (Bytes.word 0 0) "ascii" (some 14) = .ok "\"\\\n\r" := rfl
  have hstring : OperandsLaid (ArgumentLaid ctx 12) spec 2 0 spec.operands
      [.string ⟨2, 0, "\"\\\n\r"⟩] ([0, 0] ++ []) := by
    rw [hoperands]
    exact .cons (.string 0 0 htext) .nil
  have hcall : InstructionLaid ctx 12 0
      ⟨12, 0, "exec_func", [.function 13 0 spec.mnemonic [.string ⟨2, 0, "\"\\\n\r"⟩]]⟩
      (0 :: ((0 :: ([0, 0] ++ [])) ++ [])) :=
    .mk 0 rfl (.cons (.function 0 hspec hstring) .nil)
  have hend : CodeLaid ctx 12 4 [] [] [] := .done rfl
  have hdecode : Image.decode ⟨[], [], [0, 0, 0, 0], 12, [0x22, 0x5C, 0x0A, 0x0D, 0]⟩
      Version.v1.dialect "ascii" = .ok _ :=
    Code.decode_eq_ok_iff.mpr ⟨_, _, _, CodeLaid.step rfl hcall hend, rfl, rfl⟩
  obtain ⟨⟨text, lines, hrender, -, hsplit, hquotes⟩, -⟩ := listing_lines hdecode (by simp)
  exact ⟨_, text, _, hdecode, hrender, hsplit, hquotes.trans rfl⟩

end Scenario
