import GuidedTour.Text.Basic

/-!
# Digits

The decimal digits of every script, ten to a script in ascending order, and the digits of higher
bases in ASCII letters.
-/

set_option autoImplicit false

namespace GuidedTour.Text

/-- The code points of the digits zero, one for each script. -/
def zeroDigits : List Nat :=
  [0x30, 0x660, 0x6f0, 0x7c0, 0x966, 0x9e6, 0xa66, 0xae6, 0xb66,
   0xbe6, 0xc66, 0xce6, 0xd66, 0xde6, 0xe50, 0xed0, 0xf20, 0x1040,
   0x1090, 0x17e0, 0x1810, 0x1946, 0x19d0, 0x1a80, 0x1a90, 0x1b50, 0x1bb0,
   0x1c40, 0x1c50, 0xa620, 0xa8d0, 0xa900, 0xa9d0, 0xa9f0, 0xaa50, 0xabf0,
   0xff10, 0x104a0, 0x10d30, 0x11066, 0x110f0, 0x11136, 0x111d0, 0x112f0, 0x11450,
   0x114d0, 0x11650, 0x116c0, 0x11730, 0x118e0, 0x11950, 0x11c50, 0x11d50, 0x11da0,
   0x16a60, 0x16ac0, 0x16b50, 0x1d7ce, 0x1d7d8, 0x1d7e2, 0x1d7ec, 0x1d7f6, 0x1e140,
   0x1e2f0, 0x1e950, 0x1fbf0]

/-- The value of a decimal digit of any script. -/
def decimalDigit? (c : Char) : Option Nat :=
  (zeroDigits.find? fun first => first ≤ c.toNat && c.toNat < first + 10).map (c.toNat - ·)

/-- The value of a digit in a base of at most thirty-six. -/
def digitIn? (base : Nat) (c : Char) : Option Nat :=
  let value? :=
    if 'a' ≤ c ∧ c ≤ 'z' then some (c.toNat - 'a'.toNat + 10)
    else if 'A' ≤ c ∧ c ≤ 'Z' then some (c.toNat - 'A'.toNat + 10)
    else decimalDigit? c
  value?.filter (· < base)

/-- The most decimal digits that a whole number may be read from or written with. -/
def digitLimit : Nat := 4300

/-- The number that some ASCII digits spell in base ten. Other characters count as their distance
from zero, so the callers pass digits only. -/
def natOfDigits (digits : Text) : Nat :=
  digits.foldl (fun n c => n * 10 + (c.toNat - '0'.toNat)) 0

/-- The number that a text spells in a base, if it is one or more digits of that base. -/
def natIn? (base : Nat) : Text → Option Nat
  | [] => none
  | digits => digits.foldlM (fun n c => (digitIn? base c).map (n * base + ·)) 0

end GuidedTour.Text
