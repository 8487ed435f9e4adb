import Scenario.Code.Operand

/-!
# Scenario.Proofs.Bytes

Little-endian fields: a byte and a 16-bit word are written as they are read,
and a word of a buffer is the two bytes that lie there.

Everything here is proved once, so that the proofs about code, pools and
images never redo the arithmetic of fields.
-/

namespace Scenario

namespace Bytes

/-! ## bytes -/

/-- The value of a byte is written as that byte. -/
@[simp] theorem byte_toNat (b : UInt8) : byte (b.toNat : Int) = .ok b := by
  have hlt : (b.toNat : Int) < 256 := by have := b.toNat_lt; omega
  rw [byte, if_pos ⟨by omega, hlt⟩, Int.toNat_natCast, UInt8.ofNat_toNat]

/-- A value that fits a byte is the value of one. -/
theorem exists_byte_of_lt {value : Int} (h0 : 0 ≤ value) (h : value < 256) :
    ∃ b : UInt8, value = b.toNat := by
  refine ⟨UInt8.ofNat value.toNat, ?_⟩
  rw [UInt8.toNat_ofNat']
  omega

/-! ## words -/

/-- A word has 16 bits. -/
theorem word_lt (low high : UInt8) : word low high < 65536 := by
  have hlow := low.toNat_lt
  have hhigh := high.toNat_lt
  rw [word]
  omega

/-- The bytes of a word are the two it was read from. -/
@[simp] theorem ofNat_word (low high : UInt8) : ofNat 2 (word low high) = [low, high] := by
  have hlow := low.toNat_lt
  have hlo : UInt8.ofNat (word low high) = low := by
    apply UInt8.toNat_inj.mp
    rw [UInt8.toNat_ofNat', word]
    omega
  have hhi : UInt8.ofNat (word low high / 256) = high := by
    apply UInt8.toNat_inj.mp
    rw [UInt8.toNat_ofNat', word]
    have hhigh := high.toNat_lt
    omega
  rw [ofNat, ofNat, ofNat, hlo, hhi]

/-- A value that fits a word is the word of two bytes. -/
theorem exists_word_of_lt {value : Int} (h0 : 0 ≤ value) (h : value < 65536) :
    ∃ low high : UInt8, value = word low high := by
  refine ⟨UInt8.ofNat value.toNat, UInt8.ofNat (value.toNat / 256), ?_⟩
  rw [word, UInt8.toNat_ofNat', UInt8.toNat_ofNat']
  omega

/-- Packing a word gives the two bytes it was read from. -/
@[simp] theorem pack_word (low high : UInt8) : pack 2 (word low high : Int) = .ok [low, high] := by
  have hlt := word_lt low high
  rw [pack, if_pos ⟨by omega, by norm_cast⟩, Int.toNat_natCast, ofNat_word]

/-! ## fields -/

/-- Bytes are worth zero exactly if all of them are zero. -/
theorem toNat_eq_zero_iff {bs : Bytes} : toNat bs = 0 ↔ ∀ b ∈ bs, b = 0 := by
  induction bs with
  | nil => simp [toNat]
  | cons b bs ih =>
      have hzero : b.toNat = 0 ↔ b = 0 := by rw [← UInt8.toNat_inj]; rfl
      rw [toNat, List.forall_mem_cons, ← ih, ← hzero]
      omega

/-- Bytes are worth less than one more of them can count. -/
theorem toNat_lt (bs : Bytes) : toNat bs < Nat.pow 256 bs.length := by
  induction bs with
  | nil => decide
  | cons b bs ih =>
      have hb := b.toNat_lt
      have hpow : Nat.pow 256 (bs.length + 1) = Nat.pow 256 bs.length * 256 := rfl
      rw [toNat, List.length_cons, hpow]
      omega

@[simp] theorem length_ofNat (width n : Nat) : (ofNat width n).length = width := by
  induction width generalizing n with
  | zero => rfl
  | succ width ih => rw [ofNat, List.length_cons, ih]

/-- The lowest bytes of a number are worth its remainder. -/
theorem toNat_ofNat (width n : Nat) : toNat (ofNat width n) = n % Nat.pow 256 width := by
  induction width generalizing n with
  | zero => rw [ofNat, toNat, show Nat.pow 256 0 = 1 from rfl, Nat.mod_one]
  | succ width ih =>
      have hpow : Nat.pow 256 (width + 1) = 256 * Nat.pow 256 width := Nat.mul_comm _ _
      rw [ofNat, toNat, ih, UInt8.toNat_ofNat', hpow, Nat.mod_mul]

/-- Bytes are the lowest bytes of what they are worth. -/
theorem ofNat_toNat (bs : Bytes) : ofNat bs.length (toNat bs) = bs := by
  induction bs with
  | nil => rfl
  | cons b bs ih =>
      have hb := b.toNat_lt
      have hlow : UInt8.ofNat (b.toNat + 256 * toNat bs) = b := by
        apply UInt8.toNat_inj.mp
        rw [UInt8.toNat_ofNat']
        omega
      have hhigh : (b.toNat + 256 * toNat bs) / 256 = toNat bs := by omega
      rw [List.length_cons, toNat, ofNat, hlow, hhigh, ih]

/-- A field is worth less than its width can hold. -/
theorem field_lt (data : Bytes) {offset width : Nat} :
    data.field offset width < Nat.pow 256 width := by
  have hlt := toNat_lt ((data.drop offset).take width)
  have hlength : ((data.drop offset).take width).length ≤ width := List.length_take_le ..
  exact Nat.lt_of_lt_of_le hlt (Nat.pow_le_pow_right (by decide) hlength)

/-- A number is packed exactly if the field can hold it. -/
theorem pack_eq_ok_iff {width n : Nat} {bs : Bytes} :
    pack width (n : Int) = .ok bs ↔ n < Nat.pow 256 width ∧ bs = ofNat width n := by
  rw [pack]
  split
  · next h => exact ⟨fun hok => ⟨by omega, (Except.ok.inj hok).symm⟩, fun hok => hok.2 ▸ rfl⟩
  · next h =>
    constructor
    · intro hok
      cases hok
    · intro hok
      omega

/-- A field that lies in the first bytes is read from these. -/
theorem field_take (data : Bytes) {offset width count : Nat} (h : offset + width ≤ count) :
    field (data.take count) offset width = data.field offset width := by
  rw [field, field, List.drop_take, List.take_take, Nat.min_eq_left (by omega)]

/-- A bound that is no less than zero is the position it names. -/
theorem bound_natCast (data : Bytes) (n : Nat) : data.bound n = n := by
  rw [bound, if_neg (by omega), Int.toNat_natCast]

/-- The bytes between two positions. -/
theorem slice_natCast (data : Bytes) (start stop : Nat) :
    data.slice start stop = (data.drop start).take (stop - start) := by
  rw [slice, bound_natCast, bound_natCast]

/-- A field is read where all of its bytes are. -/
theorem readUInt?_eq_field (data : Bytes) {offset width : Nat} (h : offset + width ≤ data.length) :
    data.readUInt? offset width = some (data.field offset width) := by
  rw [readUInt?, if_neg (by omega), ← Int.natCast_add, slice_natCast, Nat.add_sub_cancel_left,
    field]

/-! ## words of a buffer -/

/-- A field that can be read lies inside the data. -/
theorem inside_of_readUInt? {data : Bytes} {r width : Int} {v : Nat}
    (h : data.readUInt? r width = some v) : 0 ≤ r ∧ r + width ≤ data.length := by
  rw [readUInt?] at h
  split at h
  · contradiction
  · omega

/-- A word is read where two bytes lie, and is made of them. -/
theorem readUInt?_word_iff (data : Bytes) (n v : Nat) :
    data.readUInt? n 2 = some v ↔
      ∃ low high, data[n]? = some low ∧ data[n + 1]? = some high ∧ word low high = v := by
  rw [← Buffer.readWord?_toArray, Buffer.readWord?, if_neg (by omega), Int.toNat_natCast]
  simp only [List.getElem?_toArray]
  cases hlow : data[n]? with
  | none => simp
  | some low =>
      cases hhigh : data[n + 1]? with
      | none => simp
      | some high => simp

end Bytes

/-! ## written fields -/

/-- The value of a byte is written as a code byte. -/
@[simp] theorem Operand.codeByte_toNat (b : UInt8) :
    Operand.codeByte (b.toNat : Int) = .ok b := by
  have hlt : (b.toNat : Int) < 256 := by have := b.toNat_lt; omega
  rw [Operand.codeByte, if_pos ⟨by omega, hlt⟩, Int.toNat_natCast, UInt8.ofNat_toNat]

end Scenario
