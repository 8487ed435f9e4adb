import Scenario.Bytes

/-!
# Scenario.Encoding.Utf8

UTF-8 text.  Decoding never fails: each maximal part of a sequence that
cannot be completed becomes one replacement character, and a byte that can
start no sequence becomes one of its own.

A sequence in progress is described by the bits collected so far, the number
of bytes that are missing, and the range in which the next one must lie.
The range is narrower than `80`-`BF` only behind the lead bytes `E0`, `ED`,
`F0` and `F4`; that excludes overlong forms, surrogates and values above
U+10FFFF.
-/

namespace Scenario.Encoding

/-- The character that stands for bytes without a meaning. -/
def replacement : Char := Char.ofNat 0xFFFD

namespace Utf8

/-- A sequence that has started and is not complete. -/
structure Partial where
  /-- The bits read so far. -/
  value : Nat
  /-- How many bytes must follow. -/
  missing : Nat
  /-- Range of the byte that comes next. -/
  low : UInt8
  high : UInt8

/-- What a byte means where no sequence is in progress. -/
inductive Lead where
  | char (c : Char)
  | sequence (s : Partial)
  | invalid

/-- Reads the first byte of a sequence. -/
def lead (b : UInt8) : Lead :=
  if b < 0x80 then .char (Char.ofNat b.toNat)
  else if b < 0xC2 then .invalid
  else if b < 0xE0 then .sequence ⟨b.toNat % 32, 1, 0x80, 0xBF⟩
  else if b < 0xF0 then
    .sequence ⟨b.toNat % 16, 2, if b = 0xE0 then 0xA0 else 0x80, if b = 0xED then 0x9F else 0xBF⟩
  else if b < 0xF5 then
    .sequence ⟨b.toNat % 8, 3, if b = 0xF0 then 0x90 else 0x80, if b = 0xF4 then 0x8F else 0xBF⟩
  else .invalid

/-- Decoding in progress: the characters read, newest first, and the sequence
that is open. -/
structure State where
  read : List Char
  pending : Option Partial

/-- Takes a byte that starts a sequence. -/
def State.start (read : List Char) (b : UInt8) : State :=
  match lead b with
  | .char c => ⟨c :: read, none⟩
  | .sequence s => ⟨read, some s⟩
  | .invalid => ⟨replacement :: read, none⟩

/-- Takes one byte. -/
def State.step (state : State) (b : UInt8) : State :=
  match state.pending with
  | none => .start state.read b
  | some s =>
    if s.low ≤ b ∧ b ≤ s.high then
      let value := 64 * s.value + b.toNat % 64
      if s.missing ≤ 1 then ⟨Char.ofNat value :: state.read, none⟩
      else ⟨state.read, some ⟨value, s.missing - 1, 0x80, 0xBF⟩⟩
    else .start (replacement :: state.read) b

/-- The characters at the end of the input; an open sequence is replaced. -/
def State.finish (state : State) : List Char :=
  match state.pending with
  | none => state.read.reverse
  | some _ => (replacement :: state.read).reverse

/-- Text of a byte string. -/
def decode (data : Bytes) : List Char := (data.foldl State.step ⟨[], none⟩).finish

/-- Text of a byte string that is UTF-8 throughout. -/
def decodeStrict? (data : Bytes) : Option String := String.fromUTF8? ⟨data.toArray⟩

/-- Bytes of a text. -/
def encode (s : String) : Bytes := s.toUTF8.data.toList

end Utf8

end Scenario.Encoding
