import Placeholders.Text.Basic

/-! UTF-8 between bytes and text. Reading goes byte by byte and splits the input into characters
and broken pieces; a strict reader refuses broken pieces and a lenient one puts U+FFFD for each.
A broken piece is the longest start of a character that is there, or one stray byte. -/

namespace Placeholders

abbrev Bytes := List UInt8

namespace Text.Utf8

/-- A character begun but not finished: the value so far, how many bytes are missing, and the
range the next byte must lie in. -/
structure Partial where
  value : Nat
  missing : Nat
  least : UInt8
  greatest : UInt8

/-- What a byte at the start of a character begins: a finished character, a longer one, or
nothing if no character starts with it. -/
def lead (byte : UInt8) : Option (Char ⊕ Partial) :=
  let b := byte.toNat
  if b < 0x80 then some (.inl (Char.ofNat b))
  else if 0xC2 ≤ b ∧ b ≤ 0xDF then some (.inr ⟨b - 0xC0, 1, 0x80, 0xBF⟩)
  else if 0xE0 ≤ b ∧ b ≤ 0xEF then
    some (.inr ⟨b - 0xE0, 2, if b = 0xE0 then 0xA0 else 0x80, if b = 0xED then 0x9F else 0xBF⟩)
  else if 0xF0 ≤ b ∧ b ≤ 0xF4 then
    some (.inr ⟨b - 0xF0, 3, if b = 0xF0 then 0x90 else 0x80, if b = 0xF4 then 0x8F else 0xBF⟩)
  else none

/-- Characters of the input in order, with `none` for each broken piece. -/
def read : Option Partial → Bytes → List (Option Char)
  | none, [] => []
  | some _, [] => [none]
  | none, byte :: bytes =>
    match lead byte with
    | some (.inl c) => some c :: read none bytes
    | some (.inr begun) => read (some begun) bytes
    | none => none :: read none bytes
  | some p, byte :: bytes =>
    if p.least ≤ byte ∧ byte ≤ p.greatest then
      let value := p.value * 0x40 + (byte.toNat - 0x80)
      if p.missing = 1 then some (Char.ofNat value) :: read none bytes
      else read (some ⟨value, p.missing - 1, 0x80, 0xBF⟩) bytes
    else match lead byte with
      | some (.inl c) => none :: some c :: read none bytes
      | some (.inr begun) => none :: read (some begun) bytes
      | none => none :: none :: read none bytes

def decode? (bytes : Bytes) : Option Text := (read none bytes).mapM id

/-- The text written in the bytes, with U+FFFD for each broken piece. -/
def decodeLossy (bytes : Bytes) : Text :=
  (read none bytes).map fun c => c.getD (Char.ofNat 0xFFFD)

def encode (text : Text) : Bytes := text.flatMap String.utf8EncodeChar

end Text.Utf8
end Placeholders
