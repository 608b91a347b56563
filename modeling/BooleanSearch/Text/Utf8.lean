import BooleanSearch.Text.Basic

/-!
# UTF-8

A text is kept in a file as bytes. Bytes are read one at a time: a first byte tells how many bytes
of its character follow and in which range the next one lies, so overlong forms, surrogates and
numbers beyond the last character are refused where they become apparent.
-/

namespace BooleanSearch

/-- A sequence of bytes. -/
abbrev Bytes := List UInt8

namespace Utf8

/-- The bytes of a text. -/
def encode (t : Text) : Bytes := t.flatMap String.utf8EncodeChar

/-- Why bytes are no text. -/
inductive Fault where
  /-- The bytes of this number from this place on start no character. -/
  | invalid (place count : Nat)
  /-- The bytes end within the character that starts at this place. -/
  | incomplete (place : Nat)
  deriving DecidableEq, Repr

/-- The message of a fault. -/
def Fault.message : Fault → Text
  | .invalid place count =>
    "invalid utf-8 sequence of ".toList ++ Text.decimal count ++ " bytes from index ".toList ++
      Text.decimal place
  | .incomplete place => "incomplete utf-8 byte sequence from index ".toList ++ Text.decimal place

/-- A character of which bytes are still to come. -/
structure Partial where
  /-- Where its first byte stands. -/
  place : Nat
  /-- How many of its bytes were read. -/
  count : Nat
  /-- How many of its bytes follow after the next one. -/
  further : Nat
  /-- The number that the bytes read so far make up. -/
  value : Nat
  /-- The least that the next byte may be. -/
  low : Nat
  /-- The most that the next byte may be. -/
  high : Nat
  deriving DecidableEq, Repr

/-- The character that a first byte starts, if it has further bytes. -/
def Partial.ofFirst? (place b : Nat) : Option Partial :=
  if b < 0xC2 then none
  else if b ≤ 0xDF then some ⟨place, 1, 0, b - 0xC0, 0x80, 0xBF⟩
  else if b = 0xE0 then some ⟨place, 1, 1, 0, 0xA0, 0xBF⟩
  else if b = 0xED then some ⟨place, 1, 1, 0xD, 0x80, 0x9F⟩
  else if b ≤ 0xEF then some ⟨place, 1, 1, b - 0xE0, 0x80, 0xBF⟩
  else if b = 0xF0 then some ⟨place, 1, 2, 0, 0x90, 0xBF⟩
  else if b ≤ 0xF3 then some ⟨place, 1, 2, b - 0xF0, 0x80, 0xBF⟩
  else if b = 0xF4 then some ⟨place, 1, 2, 4, 0x80, 0x8F⟩
  else none

/-- The text of the bytes from a place on, where a character may already be begun. -/
def decodeFrom : Nat → Option Partial → Bytes → Except Fault Text
  | _, none, [] => .ok []
  | _, some begun, [] => .error (.incomplete begun.place)
  | place, none, byte :: bytes =>
    let b := byte.toNat
    if b < 0x80 then (decodeFrom (place + 1) none bytes).map (Char.ofNat b :: ·)
    else match Partial.ofFirst? place b with
      | none => .error (.invalid place 1)
      | some begun => decodeFrom (place + 1) (some begun) bytes
  | place, some begun, byte :: bytes =>
    let b := byte.toNat
    if begun.low ≤ b ∧ b ≤ begun.high then
      let value := begun.value * 0x40 + (b - 0x80)
      match begun.further with
      | 0 => (decodeFrom (place + 1) none bytes).map (Char.ofNat value :: ·)
      | further + 1 =>
        decodeFrom (place + 1) (some ⟨begun.place, begun.count + 1, further, value, 0x80, 0xBF⟩)
          bytes
    else .error (.invalid begun.place begun.count)

/-- The text that bytes stand for. -/
def decode (bytes : Bytes) : Except Fault Text := decodeFrom 0 none bytes

end Utf8

end BooleanSearch
