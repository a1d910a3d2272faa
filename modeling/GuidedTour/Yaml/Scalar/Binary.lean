import GuidedTour.Text.Utf8
import GuidedTour.Yaml.Error

/-!
# Binary scalars

Bytes are written four characters to three bytes. Characters that are no digits are passed over, and
reading ends where filling characters complete a group of four.
-/

set_option autoImplicit false

namespace GuidedTour.Yaml

/-- The value of a digit of six bits. -/
def sextet? (c : Char) : Option Nat :=
  if 'A' ≤ c ∧ c ≤ 'Z' then some (c.toNat - 'A'.toNat)
  else if 'a' ≤ c ∧ c ≤ 'z' then some (c.toNat - 'a'.toNat + 26)
  else if '0' ≤ c ∧ c ≤ '9' then some (c.toNat - '0'.toNat + 52)
  else if c = '+' then some 62
  else if c = '/' then some 63
  else none

/-- The bytes of some characters, given how many digits of the current group have been read, the bits of
the last of them that are not used yet, and how many filling characters have been passed. A group that is
not complete at the end is refused. -/
def groupedBytes : Text → Nat → Nat → Nat → Option Text.Bytes
  | [], place, _, _ => if place = 0 then some [] else none
  | c :: rest, place, left, fillers =>
    if c = '=' then
      if 2 ≤ place then
        if 4 ≤ place + (fillers + 1) then some [] else groupedBytes rest place left (fillers + 1)
      else groupedBytes rest place left fillers
    else
      match sextet? c with
      | none => groupedBytes rest place left fillers
      | some n =>
        match place with
        | 0 => groupedBytes rest 1 n 0
        | 1 => (groupedBytes rest 2 (n % 16) 0).map ((left * 4 + n / 16).toUInt8 :: ·)
        | 2 => (groupedBytes rest 3 (n % 4) 0).map ((left * 16 + n / 4).toUInt8 :: ·)
        | _ => (groupedBytes rest 0 0 0).map ((left * 64 + n).toUInt8 :: ·)

/-- The bytes that a scalar with the tag of binary data stands for. -/
def bytesOf (t : Text) : Except Error Text.Bytes :=
  if t.all fun c => c.toNat < 0x80 then
    match groupedBytes t 0 0 0 with
    | some bytes => .ok bytes
    | none => .error .invalid
  else .error .invalid

end GuidedTour.Yaml
