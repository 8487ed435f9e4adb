import Mathlib.Tactic.IntervalCases
import Mathlib.Tactic.Ring
import Scenario.Text.Numeral

/-!
# Scenario.Proofs.Numerals

Numerals of a fixed width.  A number that fits its width is written with
exactly that many digits, whatever the base; `Numeral.lastDigits` gives these
digits one by one from the front, which is how they are read and compared.

1. `leftpad_eq_lastDigits` — filling up with zeros gives the last digits.
2. `place_step` — reading the digits one after the other builds the number
   up again.
3. `lastDigits_lt` — numerals of one width are ordered as their numbers.
-/

namespace Scenario.Numeral

/-- The last `width` digits of a number, most significant first. -/
def lastDigits (digit : Nat → Char) (base : Nat) : (width n : Nat) → List Char
  | 0, _ => []
  | width + 1, n => digit (n / base ^ width % base) :: lastDigits digit base width n

section LastDigits

variable {digit : Nat → Char} {base : Nat}

theorem exists_of_mem_lastDigits (hbase : 0 < base) {width n : Nat} {c : Char}
    (h : c ∈ lastDigits digit base width n) : ∃ d < base, c = digit d := by
  induction width with
  | zero => cases h
  | succ width ih =>
      rcases List.mem_cons.mp h with rfl | h
      · exact ⟨_, Nat.mod_lt _ hbase, rfl⟩
      · exact ih h

/-- The last digit comes behind those of what is left without it. -/
theorem lastDigits_concat (width n : Nat) :
    lastDigits digit base (width + 1) n =
      lastDigits digit base width (n / base) ++ [digit (n % base)] := by
  induction width with
  | zero => simp [lastDigits]
  | succ width ih =>
      have hfirst : n / base ^ (width + 1) = n / base / base ^ width := by
        rw [Nat.div_div_eq_div_mul, Nat.pow_succ']
      rw [lastDigits, ih, hfirst, lastDigits, List.cons_append]

theorem lastDigits_zero (width : Nat) :
    lastDigits digit base width 0 = List.replicate width (digit 0) := by
  induction width with
  | zero => rfl
  | succ width ih => rw [lastDigits, ih, Nat.zero_div, Nat.zero_mod, List.replicate_succ]

/-- What is filled up on the left keeps its end. -/
theorem leftpad_concat (width : Nat) (c : Char) (cs : List Char) :
    (cs ++ [c]).leftpad (width + 1) '0' = cs.leftpad width '0' ++ [c] := by
  simp [List.leftpad]

/-- The digits of a number that fits the width, filled up with zeros. -/
theorem leftpad_eq_lastDigits {digits : Nat → List Char}
    (hdigits : ∀ n, digits n =
      if n < base then [digit n] else digits (n / base) ++ [digit (n % base)])
    (hzero : digit 0 = '0') {width n : Nat} (h : n < base ^ (width + 1)) :
    (digits n).leftpad (width + 1) '0' = lastDigits digit base (width + 1) n := by
  induction width generalizing n with
  | zero =>
      rw [Nat.zero_add, Nat.pow_one] at h
      rw [hdigits, if_pos h, lastDigits_concat, Nat.mod_eq_of_lt h]
      rfl
  | succ width ih =>
      rw [hdigits, lastDigits_concat]
      split
      · next hlt =>
        have hdiv : n / base = 0 := Nat.div_eq_of_lt hlt
        rw [← List.nil_append [digit n], leftpad_concat, hdiv, lastDigits_zero, hzero,
          Nat.mod_eq_of_lt hlt]
        simp [List.leftpad]
      · next hge =>
        have hbase : 0 < base := Nat.pos_of_ne_zero fun h0 => by simp [h0] at h
        rw [leftpad_concat, ih]
        rwa [Nat.div_lt_iff_lt_mul hbase, ← Nat.pow_succ]

/-- One digit more behind the number that the digits before it spell. -/
theorem place_step (width n start : Nat) :
    base ^ width * (base * start + n / base ^ width % base) + n % base ^ width =
      base ^ (width + 1) * start + n % base ^ (width + 1) := by
  rw [Nat.mod_pow_succ, Nat.pow_succ]
  ring

/-- Numerals of one width are ordered as their numbers. -/
theorem lastDigits_lt (hbase : 0 < base) (hdigit : ∀ a b, a < b → b < base → digit a < digit b)
    {width i j : Nat} (h : i % base ^ width < j % base ^ width) :
    lastDigits digit base width i < lastDigits digit base width j := by
  induction width with
  | zero => simp [Nat.mod_one] at h
  | succ width ih =>
      rw [Nat.mod_pow_succ, Nat.mod_pow_succ] at h
      have hi := Nat.zero_le (i % base ^ width)
      have hj := Nat.mod_lt j (Nat.pow_pos (n := width) hbase)
      rw [lastDigits, lastDigits, List.cons_lt_cons_iff]
      rcases Nat.lt_trichotomy (i / base ^ width % base) (j / base ^ width % base) with
        hlt | heq | hgt
      · exact .inl (hdigit _ _ hlt (Nat.mod_lt _ hbase))
      · rw [heq] at h ⊢
        exact .inr ⟨rfl, ih (by omega)⟩
      · have hstep := Nat.mul_le_mul_left (base ^ width) hgt
        rw [Nat.mul_succ] at hstep
        omega

end LastDigits

/-- The characters of a padded numeral. -/
theorem mem_padded {digits : Nat → List Char} {width : Nat} {value : Int} {c : Char}
    (h : c ∈ padded digits width value) : c = '-' ∨ c = '0' ∨ ∃ n, c ∈ digits n := by
  have hleft : ∀ {width n}, c ∈ (digits n).leftpad width '0' → c = '0' ∨ ∃ n, c ∈ digits n := by
    intro width n hc
    rw [List.leftpad, List.mem_append] at hc
    exact hc.imp List.eq_of_mem_replicate fun hc => ⟨n, hc⟩
  cases value with
  | ofNat n => exact .inr (hleft h)
  | negSucc n => exact (List.mem_cons.mp h).imp_right hleft

/-! ## hexadecimal -/

theorem hexDigits_eq (n : Nat) :
    hexDigits n = if n < 16 then [hexDigit n] else hexDigits (n / 16) ++ [hexDigit (n % 16)] := by
  rw [hexDigits]

/-- A digit is read as its value. -/
theorem hexValue?_hexDigit {d : Nat} (h : d < 16) : hexValue? (hexDigit d) = some d := by
  interval_cases d <;> rfl

/-- A hexadecimal numeral of fixed width. -/
theorem toList_hex {width n : Nat} (h : n < 16 ^ (width + 1)) :
    (hex (width + 1) n).toList = lastDigits hexDigit 16 (width + 1) n := by
  rw [hex, String.toList_ofList]
  exact leftpad_eq_lastDigits hexDigits_eq rfl h

/-! ## decimal -/

theorem decimalDigits_eq (n : Nat) :
    decimalDigits n =
      if n < 10 then [n.digitChar] else decimalDigits (n / 10) ++ [(n % 10).digitChar] := by
  simp only [decimalDigits, Nat.toList_repr]
  exact Nat.toDigits_eq_if (by decide)

theorem isDigit_of_mem_decimalDigits {n : Nat} {c : Char} (h : c ∈ decimalDigits n) :
    c.isDigit = true := by
  rw [decimalDigits, Nat.toList_repr] at h
  exact Nat.isDigit_of_mem_toDigits (by decide) (by decide) h

/-- A decimal numeral of fixed width. -/
theorem toList_decimalPadded {width n : Nat} (h : n < 10 ^ (width + 1)) :
    (decimalPadded (width + 1) n).toList = lastDigits Nat.digitChar 10 (width + 1) n := by
  rw [decimalPadded, String.toList_ofList]
  exact leftpad_eq_lastDigits decimalDigits_eq rfl h

end Scenario.Numeral
