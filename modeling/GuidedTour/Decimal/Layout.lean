import GuidedTour.Decimal.Shortest
import GuidedTour.Text.Basic

/-!
# Layouts of decimals

How the shortest digits of a double are set out as text. A layout fixes which magnitudes are written
positionally, whether a whole number keeps a point and a zero, and the words for what is not finite.
-/

set_option autoImplicit false

namespace GuidedTour

/-- A way of writing doubles. -/
structure Layout where
  /-- The powers of ten of the leading digit that are written positionally: from the first up to, but
  without, the second. With none, all of them are. -/
  positional : Option (Int × Int)
  /-- Whether a whole number ends in a point and a zero when it is written positionally. -/
  wholeWithPoint : Bool
  /-- The word for what is no number. -/
  nan : Text

namespace Layout

/-- A numeral in positional digits: no exponent, no point without a digit behind it. -/
def plain (x : Numeral) : Text :=
  let digits := Text.ofNat x.digits
  if 0 ≤ x.exponent then
    if x.digits = 0 then ['0'] else digits ++ List.replicate x.exponent.toNat '0'
  else
    let behind := (-x.exponent).toNat
    if behind < digits.length then
      digits.take (digits.length - behind) ++ '.' :: digits.drop (digits.length - behind)
    else
      '0' :: '.' :: List.replicate (behind - digits.length) '0' ++ digits

/-- The power of ten of the leading digit. -/
def leading (x : Numeral) : Int := (Text.ofNat x.digits).length - 1 + x.exponent

/-- A numeral as its leading digit, the others behind a point, and a power of ten of at least two
digits with its sign. -/
def scientific (x : Numeral) : Text :=
  let power := leading x
  let powerDigits := Text.ofNat power.natAbs
  let sign := if power < 0 then '-' else '+'
  let mantissa :=
    match Text.ofNat x.digits with
    | [] => []
    | [d] => [d]
    | d :: more => d :: '.' :: more
  mantissa ++ 'e' :: sign :: List.replicate (2 - powerDigits.length) '0' ++ powerDigits

/-- A finite number without its sign. -/
def unsigned (layout : Layout) (x : Numeral) : Text :=
  let positional :=
    match layout.positional with
    | none => true
    | some (low, high) => x.digits = 0 || (low ≤ leading x && leading x < high)
  if positional then
    if layout.wholeWithPoint && decide (0 ≤ x.exponent) then plain x ++ ['.', '0'] else plain x
  else scientific x

/-- A double in a layout. -/
def write (layout : Layout) : Double → Text
  | .nan => layout.nan
  | .infinite negative => (if negative then ['-'] else []) ++ ['i', 'n', 'f']
  | .finite negative mantissa exponent =>
    let numeral : Numeral := if mantissa = 0 then ⟨0, 0⟩ else Double.shortest mantissa exponent
    (if negative then ['-'] else []) ++ layout.unsigned numeral

end Layout

end GuidedTour
