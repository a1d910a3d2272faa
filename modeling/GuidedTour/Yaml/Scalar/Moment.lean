import GuidedTour.Data.Value
import GuidedTour.Text.Digit
import GuidedTour.Yaml.Error

/-!
# Dates and moments in YAML

A moment is written as year, month and day with hyphens, then a `t` or blanks, then the time with colons,
perhaps a fraction of a second and a distance from universal time. A plain scalar must write month and day
with two digits if it is a date alone.
-/

set_option autoImplicit false

namespace GuidedTour.Yaml

/-- The digits at the start of a text, from `least` up to `most` of them, and the rest. -/
def someDigits (least most : Nat) (t : Text) : Option (Text × Text) :=
  let ds := (t.takeWhile Char.isDigit).take most
  if ds.length < least then none else some (ds, t.drop ds.length)

/-- What follows a given character. -/
def behind (c : Char) : Text → Option Text
  | d :: rest => if d = c then some rest else none
  | [] => none

/-- A time of day: hour, minute, second, the digits of the fraction, and the offset in minutes. -/
structure TimeForm where
  hour : Nat
  minute : Nat
  second : Nat
  fraction : Text
  offset : Option Int
deriving Repr

/-- A date, whether month and day have two digits, and perhaps a time. -/
structure MomentForm where
  date : Data.Date
  isLong : Bool
  time : Option TimeForm
deriving Repr

/-- The distance from universal time that ends a moment: nothing, the letter `Z`, or a sign with hours and
perhaps minutes. -/
def offsetForm (t : Text) : Option (Option Int) :=
  match t.dropWhile fun c => c == ' ' || c == '\t' with
  | [] => if t.isEmpty then some none else none
  | ['Z'] => some (some 0)
  | sign :: rest =>
    if sign == '+' || sign == '-' then do
      let (hours, rest) ← someDigits 1 2 rest
      let minutes ←
        match rest with
        | [] => some []
        | _ => do
          let (minutes, rest) ← someDigits 2 2 (← behind ':' rest)
          if rest.isEmpty then some minutes else none
      let offset : Int := Text.natOfDigits hours * 60 + Text.natOfDigits minutes
      return some (if sign == '-' then -offset else offset)
    else none

/-- A time of day to the end of the text. -/
def timeForm (t : Text) : Option TimeForm := do
  let (hour, t) ← someDigits 1 2 t
  let (minute, t) ← someDigits 2 2 (← behind ':' t)
  let (second, t) ← someDigits 2 2 (← behind ':' t)
  let (fraction, t) :=
    match t with
    | '.' :: rest => (rest.takeWhile Char.isDigit, rest.dropWhile Char.isDigit)
    | _ => ([], t)
  let offset ← offsetForm t
  return ⟨Text.natOfDigits hour, Text.natOfDigits minute, Text.natOfDigits second, fraction, offset⟩

/-- What stands between a date and a time: the letter `t`, or blanks. -/
def timeBehind (t : Text) : Option Text :=
  match t with
  | 'T' :: rest => some rest
  | 't' :: rest => some rest
  | c :: _ => if c == ' ' || c == '\t' then some (t.dropWhile fun c => c == ' ' || c == '\t') else none
  | [] => none

/-- A date with or without a time, to the end of the text. -/
def momentForm (t : Text) : Option MomentForm := do
  let (year, t) ← someDigits 4 4 t
  let (month, t) ← someDigits 1 2 (← behind '-' t)
  let (day, t) ← someDigits 1 2 (← behind '-' t)
  let date : Data.Date := ⟨Text.natOfDigits year, Text.natOfDigits month, Text.natOfDigits day⟩
  let isLong := month.length = 2 && day.length = 2
  if t.isEmpty then return ⟨date, isLong, none⟩
  else
    let time ← timeForm (← timeBehind t)
    return ⟨date, isLong, some time⟩

/-- Whether a text has the form of a moment that needs no tag. -/
def isMomentForm (t : Text) : Bool := (momentForm t).any fun form => form.isLong || form.time.isSome

/-- The number of microseconds in the digits behind the seconds. Digits past the sixth are dropped. -/
def microseconds (digits : Text) : Nat :=
  let six := digits.take 6
  Text.natOfDigits (six ++ List.replicate (6 - six.length) '0')

/-- The date or moment that a scalar with the tag of moments stands for. -/
def momentOf (t : Text) : Except Error Data.Scalar :=
  let t := if t.getLast? = some '\n' then t.dropLast else t
  match momentForm t with
  | none => .error (.fault .noMoment)
  | some ⟨date, _, none⟩ => if date.valid then .ok (.date date) else .error (.fault .illFormed)
  | some ⟨date, _, some time⟩ =>
    let moment : Data.Moment :=
      ⟨date, time.hour, time.minute, time.second, microseconds time.fraction, time.offset⟩
    if moment.valid then .ok (.moment moment) else .error (.fault .illFormed)

end GuidedTour.Yaml
