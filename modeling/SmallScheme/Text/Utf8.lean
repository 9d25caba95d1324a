/-!
# UTF-8

Decoding of bytes into characters. Bytes that are no UTF-8 are reported with the place and length
of the longest piece that could still have begun a character, and with the reason it did not.
-/

namespace SmallScheme.Text.Utf8

/-- Why a piece of bytes is no character. -/
inductive Reason where
  /-- No character begins with this byte. -/
  | invalidStart
  /-- A byte that should continue the character does not. -/
  | invalidContinuation
  /-- The bytes end inside the character. -/
  | unexpectedEnd
  deriving DecidableEq, Repr

/-- The wording of a reason. -/
def Reason.text : Reason → String
  | .invalidStart => "invalid start byte"
  | .invalidContinuation => "invalid continuation byte"
  | .unexpectedEnd => "unexpected end of data"

/-- A piece of bytes that is no character: offsets of its first byte and of the byte behind it. -/
structure Malformed where
  first : Nat
  past : Nat
  /-- The byte the piece begins with. -/
  byte : UInt8
  reason : Reason
  deriving DecidableEq, Repr

/-- A character of which some bytes are read. -/
structure Partial where
  /-- Offset of the first byte. -/
  first : Nat
  /-- The first byte. -/
  byte : UInt8
  /-- How many bytes are missing behind the next one. -/
  owed : Nat
  /-- The bits read so far. -/
  payload : Nat
  /-- The least value the next byte may have. -/
  low : Nat
  /-- The greatest value the next byte may have. -/
  high : Nat

/-- What a character's first byte, which is not ASCII, announces. The second byte is limited so
that no character has two encodings, no surrogate has one, and none lies above U+10FFFF. -/
def announce? (offset : Nat) (byte : UInt8) : Option Partial :=
  let n := byte.toNat
  if n < 0xc2 then none
  else if n < 0xe0 then some ⟨offset, byte, 0, n - 0xc0, 0x80, 0xbf⟩
  else if n < 0xf0 then
    some ⟨offset, byte, 1, n - 0xe0, if n = 0xe0 then 0xa0 else 0x80, if n = 0xed then 0x9f else 0xbf⟩
  else if n < 0xf5 then
    some ⟨offset, byte, 2, n - 0xf0, if n = 0xf0 then 0x90 else 0x80, if n = 0xf4 then 0x8f else 0xbf⟩
  else none

/-- Decodes the bytes from an offset on, behind the characters `done` (latest first) and inside the
character `inside`, if there is one. -/
def decodeFrom (offset : Nat) (done : List Char) (inside : Option Partial) :
    List UInt8 → Except Malformed (List Char)
  | [] =>
    match inside with
    | none => .ok done.reverse
    | some p => .error ⟨p.first, offset, p.byte, .unexpectedEnd⟩
  | byte :: bytes =>
    match inside with
    | none =>
      if byte < 0x80 then decodeFrom (offset + 1) (Char.ofNat byte.toNat :: done) none bytes
      else
        match announce? offset byte with
        | some p => decodeFrom (offset + 1) done (some p) bytes
        | none => .error ⟨offset, offset + 1, byte, .invalidStart⟩
    | some p =>
      if p.low ≤ byte.toNat ∧ byte.toNat ≤ p.high then
        let payload := p.payload * 64 + byte.toNat % 64
        match p.owed with
        | 0 => decodeFrom (offset + 1) (Char.ofNat payload :: done) none bytes
        | owed + 1 =>
          decodeFrom (offset + 1) done (some ⟨p.first, p.byte, owed, payload, 0x80, 0xbf⟩) bytes
      else .error ⟨p.first, offset, p.byte, .invalidContinuation⟩

/-- The text that bytes encode. -/
def decode (bytes : List UInt8) : Except Malformed (List Char) :=
  decodeFrom 0 [] none bytes

end SmallScheme.Text.Utf8
