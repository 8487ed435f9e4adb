import Scenario.Code.Expression

/-!
# Scenario.Code.Cursor

Reading code from front to back.  A cursor knows the bytes that lie ahead,
their position in the code and the file offset of the code, so that errors
can point into the file.

A reader that fails leaves the cursor where reading stopped: a field that is
cut off by the end of the code is not consumed, and what was read before it
is.  No reader moves backwards (`Read.Forward`), which is what makes loops
over readers end.  A cursor may also stand before the code; no byte can be
read from there.
-/

namespace Scenario

/-- A place in the code and the bytes from there on. -/
structure Cursor where
  /-- File offset of the first code byte. -/
  base : Int
  /-- Offset of the next byte in the code. -/
  position : Int
  /-- Length of the code. -/
  length : Nat
  rest : Bytes
  /-- Positions of the string fields read so far, newest first. -/
  fields : List Int

/-- A reader: consumes bytes, and gives a value or an error. -/
abbrev Read := EStateM Error Cursor

namespace Cursor

/-- A cursor at `position` of the code. -/
def start (code : Bytes) (base position : Int) : Cursor :=
  { base
    position
    length := code.length
    rest := if position < 0 then [] else code.drop position.toNat
    fields := [] }

/-- File offset of the next byte. -/
def address (c : Cursor) : Int := c.base + c.position

/-- How far the end of the code is away, negative behind it. -/
def remaining (c : Cursor) : Int := c.length - c.position

/-- Whether the code is read to its end. -/
def atEnd (c : Cursor) : Bool := c.length ≤ c.position

/-- The bytes of `code` from the cursor on, up to `count` behind it; a place
before the code counts from its end. -/
def peek (c : Cursor) (code : Bytes) (count : Int) : Bytes :=
  code.slice c.position (c.position + count)

/-- The cursor behind `count` bytes, of which `rest` remains. -/
def advance (c : Cursor) (count : Nat) (rest : Bytes) : Cursor :=
  { c with position := c.position + count, rest }

/-- The cursor with a string field at `position` noted. -/
def note (c : Cursor) (position : Int) : Cursor := { c with fields := position :: c.fields }

end Cursor

namespace Read

/-! ## Primitive readers -/

/-- Stops because `wanted` bytes are missing. -/
def fallShort {α : Type} (wanted : Int) : Read α := fun c =>
  .error (.decode (.unexpectedEnd c.address wanted)) c

/-- File offset of the next byte. -/
def address : Read Int := fun c => .ok c.address c

/-- Position of the next byte in the code. -/
def position : Read Int := fun c => .ok c.position c

/-- Notes that a string field lies at `position`. -/
def noteField (position : Int) : Read Unit := fun c => .ok () (c.note position)

/-- Stops decoding for a cause in the code. -/
def stop {α : Type} (cause : DecodeError) : Read α := fun c => .error (.decode cause) c

/-- Reads one byte. -/
def u8 : Read UInt8 := fun c =>
  match c.rest with
  | b :: rest => .ok b (c.advance 1 rest)
  | [] => fallShort 1 c

/-- Reads two bytes, the low one first. -/
def u16 : Read Nat := fun c =>
  match c.rest with
  | low :: high :: rest => .ok (Bytes.word low high) (c.advance 2 rest)
  | _ => fallShort (2 - max c.remaining 0) c

/-! ## Readers move forward -/

/-- A reader never leaves more bytes ahead than it found. -/
def Forward {α : Type} (r : Read α) : Prop :=
  ∀ ⦃c v c'⦄, r c = .ok v c' → c'.rest.length ≤ c.rest.length

/-- A reader that succeeds consumes at least one byte. -/
def Progress {α : Type} (r : Read α) : Prop :=
  ∀ ⦃c v c'⦄, r c = .ok v c' → c'.rest.length < c.rest.length

variable {α β : Type}

theorem Progress.forward {r : Read α} (h : Progress r) : Forward r :=
  fun _ _ _ e => Nat.le_of_lt (h e)

theorem forward_pure (a : α) : Forward (pure a : Read α) := by
  intro c v c' h
  cases h
  exact Nat.le_refl _

theorem forward_address : Forward address := by
  intro c v c' h
  cases h
  exact Nat.le_refl _

theorem forward_position : Forward position := by
  intro c v c' h
  cases h
  exact Nat.le_refl _

theorem forward_noteField (p : Int) : Forward (noteField p) := by
  intro c v c' h
  cases h
  exact Nat.le_refl _

theorem forward_stop (cause : DecodeError) : Forward (stop cause : Read α) := by
  intro c v c' h
  cases h

/-- A sequence succeeds only through a success of its first reader. -/
theorem bind_eq_ok {r : Read α} {f : α → Read β} {c c' : Cursor} {b : β}
    (h : (r >>= f) c = .ok b c') : ∃ a c₁, r c = .ok a c₁ ∧ f a c₁ = .ok b c' := by
  change EStateM.bind r f c = _ at h
  unfold EStateM.bind at h
  split at h
  · next a c₁ e => exact ⟨a, c₁, e, h⟩
  · cases h

theorem Forward.bind {r : Read α} {f : α → Read β} (hr : Forward r) (hf : ∀ a, Forward (f a)) :
    Forward (r >>= f) := by
  intro c v c' h
  obtain ⟨a, c₁, h₁, h₂⟩ := bind_eq_ok h
  exact Nat.le_trans (hf a h₂) (hr h₁)

theorem Progress.bind {r : Read α} {f : α → Read β} (hr : Progress r) (hf : ∀ a, Forward (f a)) :
    Progress (r >>= f) := by
  intro c v c' h
  obtain ⟨a, c₁, h₁, h₂⟩ := bind_eq_ok h
  exact Nat.lt_of_le_of_lt (hf a h₂) (hr h₁)

theorem progress_u8 : Progress u8 := by
  intro c v c' h
  unfold u8 at h
  split at h
  · next b rest e =>
    cases h
    simp [Cursor.advance, e]
  · cases h

theorem progress_u16 : Progress u16 := by
  intro c v c' h
  unfold u16 at h
  split at h
  · next low high rest e =>
    cases h
    simp only [Cursor.advance, e, List.length_cons]
    omega
  · cases h

/-! ## Expressions -/

/-- Reads one token, or nothing at the end selector. -/
def token : Read (Option Token) := do
  let flag ← u8
  match Expression.Phase.ofSelector flag.toNat with
  | .terminated => return none
  | .accumulatingLoads =>
    let address ← address
    let register ← u8
    let mask ← u16
    return some (.load register.toNat mask address)
  | .postOperator =>
    let address ← address
    let code ← u8
    match Expression.operator? code.toNat with
    | none => stop (.unknownOperator code address)
    | some name => return some (.operator code.toNat name flag.toNat address)

theorem progress_token : Progress token := by
  refine progress_u8.bind fun flag => ?_
  split
  · exact forward_pure _
  · refine forward_address.bind fun _ => progress_u8.forward.bind fun _ => ?_
    exact progress_u16.forward.bind fun _ => forward_pure _
  · refine forward_address.bind fun _ => progress_u8.forward.bind fun _ => ?_
    split
    · exact forward_stop _
    · exact forward_pure _

/-- Reads tokens up to and with the end selector; `read` holds those read
before, newest first. -/
def tokens (read : List Token) (c : Cursor) : EStateM.Result Error Cursor (List Token) :=
  match _h : token c with
  | .error e c' => .error e c'
  | .ok none c' => .ok read.reverse c'
  | .ok (some t) c' => tokens (t :: read) c'
termination_by c.rest.length
decreasing_by exact progress_token _h

theorem forward_tokens (read : List Token) : Forward (tokens read) := by
  intro c v c' h
  fun_induction tokens read c with
  | case1 => cases h
  | case2 =>
    next e =>
      cases h
      exact Nat.le_of_lt (progress_token e)
  | case3 =>
    next e ih => exact Nat.le_trans (ih h) (Nat.le_of_lt (progress_token e))

/-- Reads one expression. -/
def expression : Read Expression := do
  let start ← address
  let tokens ← tokens []
  let stop ← address
  return { address := start, tokens, size := stop - start }

theorem forward_expression : Forward expression := by
  refine forward_address.bind fun _ => (forward_tokens []).bind fun _ => ?_
  exact forward_address.bind fun _ => forward_pure _

end Read

end Scenario
