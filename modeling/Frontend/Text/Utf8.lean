import Frontend.Text.Offset

/-!
# Reading UTF-8

Bytes are read one at a time. `Pending` holds what is known of a character of several bytes while
it is being read, and the range of the next byte rules out overlong forms, surrogates and values
past the last code point. The first byte that cannot be accepted ends the reading; what it says
of the place is the number of bytes that are good, and how many bytes the bad character has.
-/

namespace Frontend

/-- Bytes as they come from a file. -/
abbrev Bytes := List UInt8

namespace Utf8

/-- Why bytes are not UTF-8. -/
structure Invalid where
  /-- Number of bytes that form whole characters. -/
  validUpTo : Nat
  /-- Number of bytes after them that can start no character; none if the bytes end inside one. -/
  errorLength : Option Nat
  deriving DecidableEq, Repr

/-- The text of an error. -/
def Invalid.message (e : Invalid) : String :=
  match e.errorLength with
  | some length => s!"invalid utf-8 sequence of {length} bytes from index {e.validUpTo}"
  | none => s!"incomplete utf-8 byte sequence from index {e.validUpTo}"

/-- A character of several bytes that is being read. -/
structure Pending where
  /-- Offset of its first byte. -/
  start : Nat
  /-- Number of bytes read. -/
  seen : Nat
  /-- Number of bytes that follow the next one. -/
  after : Nat
  /-- Smallest next byte. -/
  low : UInt8
  /-- Greatest next byte. -/
  high : UInt8
  /-- Value of the bits read. -/
  value : Nat

/-- What the first byte of a character of several bytes promises; nothing if no such character
starts with the byte. -/
def pendingOf? (start : Nat) (b : UInt8) : Option Pending :=
  let bits (mask : Nat) : Nat := b.toNat % mask
  if 0xC2 ≤ b ∧ b ≤ 0xDF then some ⟨start, 1, 0, 0x80, 0xBF, bits 32⟩
  else if b = 0xE0 then some ⟨start, 1, 1, 0xA0, 0xBF, bits 16⟩
  else if b = 0xED then some ⟨start, 1, 1, 0x80, 0x9F, bits 16⟩
  else if 0xE1 ≤ b ∧ b ≤ 0xEF then some ⟨start, 1, 1, 0x80, 0xBF, bits 16⟩
  else if b = 0xF0 then some ⟨start, 1, 2, 0x90, 0xBF, bits 8⟩
  else if 0xF1 ≤ b ∧ b ≤ 0xF3 then some ⟨start, 1, 2, 0x80, 0xBF, bits 8⟩
  else if b = 0xF4 then some ⟨start, 1, 2, 0x80, 0x8F, bits 8⟩
  else none

/-- Reads bytes from an offset on, inside a character or between two. -/
def decodeFrom (offset : Nat) : Option Pending → Bytes → Except Invalid Text
  | none, [] => .ok []
  | some p, [] => .error ⟨p.start, none⟩
  | none, b :: rest =>
    if b < 0x80 then (decodeFrom (offset + 1) none rest).map (Char.ofNat b.toNat :: ·)
    else
      match pendingOf? offset b with
      | some p => decodeFrom (offset + 1) (some p) rest
      | none => .error ⟨offset, some 1⟩
  | some p, b :: rest =>
    if p.low ≤ b ∧ b ≤ p.high then
      let value := p.value * 64 + b.toNat % 64
      match p.after with
      | 0 => (decodeFrom (offset + 1) none rest).map (Char.ofNat value :: ·)
      | after + 1 =>
        decodeFrom (offset + 1) (some ⟨p.start, p.seen + 1, after, 0x80, 0xBF, value⟩) rest
    else .error ⟨p.start, some p.seen⟩

/-- The text whose UTF-8 form the bytes are. -/
def decode (bytes : Bytes) : Except Invalid Text :=
  decodeFrom 0 none bytes

end Utf8

end Frontend
