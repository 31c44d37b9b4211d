/-!
# Reading UTF-8

`Utf8.decode` reads every list of octets.  It goes through them once and keeps
the character that is under way, if any.  A sequence that breaks off is replaced
by one U+FFFD for the longest part of it that begins a well-formed character,
and the octet at which it broke off is read afresh; an octet that begins no
character is replaced by a U+FFFD of its own.
-/

namespace Kiln
namespace Utf8

/-- What stands in a text for octets that are not UTF-8. -/
def replacement : Char := '\uFFFD'

/-- A character under way: the bits read so far, how many octets it still owes,
and the bounds of the next one. -/
structure Pending where
  bits : Nat
  owed : Nat
  low : Nat
  high : Nat

/-- What an octet gives between characters.  The narrower bounds on the second
octet keep out overlong forms, surrogates and values past U+10FFFF. -/
def first (octet : Nat) : List Char × Option Pending :=
  if octet < 0x80 then ([Char.ofNat octet], none)
  else if octet < 0xC2 then ([replacement], none)
  else if octet < 0xE0 then ([], some ⟨octet - 0xC0, 1, 0x80, 0xBF⟩)
  else if octet = 0xE0 then ([], some ⟨0, 2, 0xA0, 0xBF⟩)
  else if octet = 0xED then ([], some ⟨0xD, 2, 0x80, 0x9F⟩)
  else if octet < 0xF0 then ([], some ⟨octet - 0xE0, 2, 0x80, 0xBF⟩)
  else if octet = 0xF0 then ([], some ⟨0, 3, 0x90, 0xBF⟩)
  else if octet < 0xF4 then ([], some ⟨octet - 0xF0, 3, 0x80, 0xBF⟩)
  else if octet = 0xF4 then ([], some ⟨4, 3, 0x80, 0x8F⟩)
  else ([replacement], none)

/-- What an octet gives while `pending` is under way. -/
def extend (pending : Pending) (octet : Nat) : List Char × Option Pending :=
  if pending.low ≤ octet ∧ octet ≤ pending.high then
    let bits := pending.bits * 64 + octet % 64
    if pending.owed ≤ 1 then ([Char.ofNat bits], none)
    else ([], some ⟨bits, pending.owed - 1, 0x80, 0xBF⟩)
  else
    let (chars, next) := first octet
    (replacement :: chars, next)

/-- The characters of the octets to come after `pending`. -/
def decodeAfter : Option Pending → List UInt8 → List Char
  | none, [] => []
  | some _, [] => [replacement]
  | none, octet :: octets =>
    let (chars, next) := first octet.toNat
    chars ++ decodeAfter next octets
  | some pending, octet :: octets =>
    let (chars, next) := extend pending octet.toNat
    chars ++ decodeAfter next octets

/-- The text of a list of octets. -/
def decode (octets : List UInt8) : List Char :=
  decodeAfter none octets

end Utf8
end Kiln
