import GuidedTour.Decimal.Arithmetic
import GuidedTour.Text.Blank
import GuidedTour.Text.Digit
import GuidedTour.Yaml.Error

/-!
# Numbers in YAML

Which plain scalars have the form of a number, and which number a scalar with the tag of one stands for.
Underscores among the digits are dropped, a leading zero means base eight unless a letter says otherwise,
and parts between colons are read in base sixty. Reading is laxer than the form: blanks around the digits
and digits of any script are taken.
-/

set_option autoImplicit false

namespace GuidedTour.Yaml

/-! ## Forms -/

/-- A text without a sign at its start. -/
def withoutSign : Text → Text
  | '+' :: rest => rest
  | '-' :: rest => rest
  | t => t

/-- Whether all characters are digits or underscores. -/
def isDigits (t : Text) : Bool := t.all fun c => c.isDigit || c == '_'

/-- Whether a part between colons is one digit, or two of which the first is below six. -/
def isSixtieth : Text → Bool
  | [a] => a.isDigit
  | [a, b] => a.isDigit && a ≤ '5' && b.isDigit
  | _ => false

/-- Whether a text is digits with further parts behind colons. -/
def isSexagesimal (t : Text) : Bool :=
  match Text.split ':' t with
  | first :: second :: more =>
    (first.head?.any Char.isDigit) && isDigits first && (second :: more).all isSixtieth
  | _ => false

/-- Whether a text has the form of an integer. -/
def isIntegerForm (t : Text) : Bool :=
  match withoutSign t with
  | '0' :: 'b' :: ds => !ds.isEmpty && ds.all fun c => c == '0' || c == '1' || c == '_'
  | '0' :: 'x' :: ds => !ds.isEmpty && ds.all fun c =>
      c.isDigit || ('a' ≤ c && c ≤ 'f') || ('A' ≤ c && c ≤ 'F') || c == '_'
  | '0' :: ds => ds.all fun c => ('0' ≤ c && c ≤ '7') || c == '_'
  | c :: ds => c.isDigit && (isDigits ds || isSexagesimal (c :: ds))
  | [] => false

/-- Whether a text is empty or the power of ten of a float: a letter, a sign, digits. -/
def isPower : Text → Bool
  | [] => true
  | e :: sign :: ds =>
    (e == 'e' || e == 'E') && (sign == '+' || sign == '-') && !ds.isEmpty && ds.all Char.isDigit
  | _ => false

/-- Whether a text is digits behind a point, perhaps with a power of ten. -/
def isFraction (t : Text) : Bool := isPower (t.dropWhile fun c => c.isDigit || c == '_')

/-- Whether a text has the form of a float. A float that begins with its point has no sign. -/
def isFloatForm (t : Text) : Bool :=
  let body := withoutSign t
  let whole := body.takeWhile (· != '.')
  let behind := (body.dropWhile (· != '.')).drop 1
  let hasPoint := body.contains '.'
  if ["inf", "Inf", "INF"].any fun w => body == '.' :: w.toList then true
  else if ["nan", "NaN", "NAN"].any fun w => t == '.' :: w.toList then true
  else if !hasPoint then false
  else if whole.isEmpty then
    body == t && (behind.head?.any Char.isDigit) && isFraction behind
  else if isSexagesimal whole then isDigits behind
  else (whole.head?.any Char.isDigit) && isDigits whole && isFraction behind

/-! ## Values -/

/-- An integer in a base, with blanks around it, a sign, and the letter of the base behind a zero. -/
def readInteger (base : Nat) (t : Text) : Except Error Int :=
  let t := Text.stripNumber t
  let negative := t.head? = some '-'
  let body := withoutSign t
  let letter := if base = 16 then 'x' else if base = 8 then 'o' else 'b'
  let ds :=
    match body with
    | '0' :: c :: rest => if base ≠ 10 && c.toLower == letter then rest else body
    | _ => body
  if base = 10 && Text.digitLimit < ds.length then .error (.fault .illFormed)
  else
    match Text.natIn? base ds with
    | some n => .ok (if negative then -(n : Int) else n)
    | none => .error (.fault .illFormed)

/-- The integer that a scalar with the tag of integers stands for. -/
def integerOf (t : Text) : Except Error Int := do
  let t := t.filter (· != '_')
  if t.isEmpty then .error (.fault .noFirstCharacter)
  else
    let sign : Int := if t.head? = some '-' then -1 else 1
    match withoutSign t with
    | ['0'] => return 0
    | '0' :: 'b' :: ds => return sign * (← readInteger 2 ds)
    | '0' :: 'x' :: ds => return sign * (← readInteger 16 ds)
    | [] => .error (.fault .noFirstCharacter)
    | '0' :: ds => return sign * (← readInteger 8 ('0' :: ds))
    | body =>
      let parts ← (Text.split ':' body).mapM (readInteger 10)
      return sign * parts.foldl (fun n part => n * 60 + part) 0

/-- A float with blanks around it and a sign, in lower case. -/
def readFloat (t : Text) : Except Error Double :=
  let t := Text.stripNumber t
  let negative := t.head? = some '-'
  let body := withoutSign t
  let word := String.ofList body
  if word = "inf" ∨ word = "infinity" then .ok (.infinite negative)
  else if word = "nan" then .ok .nan
  else
    let isDecimal (c : Char) : Bool := (Text.decimalDigit? c).isSome
    let number (ds : Text) : Nat := (Text.natIn? 10 ds).getD 0
    let whole := body.takeWhile isDecimal
    let rest := body.dropWhile isDecimal
    let (behind, rest) :=
      match rest with
      | '.' :: more => (more.takeWhile isDecimal, more.dropWhile isDecimal)
      | _ => ([], rest)
    let power : Option Int :=
      match rest with
      | [] => some 0
      | 'e' :: more =>
        let ds := withoutSign more
        if !ds.isEmpty && ds.all isDecimal then
          some (if more.head? = some '-' then -(number ds : Int) else number ds)
        else none
      | _ => none
    match power with
    | some power =>
      if whole.isEmpty && behind.isEmpty then .error (.fault .illFormed)
      else .ok (Double.ofDecimal negative (number (whole ++ behind)) (power - behind.length))
    | none => .error (.fault .illFormed)

/-- The sum of the parts of a float in base sixty, the last part being the ones. Each product and each sum
is rounded; a power of sixty past the largest double cannot be taken over. -/
def sexagesimal : List Double → Nat → Double → Except Error Double
  | [], _, sum => .ok sum
  | part :: more, base, sum =>
    match Double.ofNat base with
    | .infinite _ => .error (.fault .tooLarge)
    | weight => sexagesimal more (base * 60) (sum.add (part.mul weight))

/-- Whether a scalar spells the float that is no number by its word with a point. All scalars that do
stand for one and the same value, unlike those that come to it in another way. -/
def spellsNan (t : Text) : Bool :=
  withoutSign ((t.filter (· != '_')).map Char.toLower) == ".nan".toList

/-- The float that a scalar with the tag of floats stands for. -/
def floatOf (t : Text) : Except Error Double := do
  let t := (t.filter (· != '_')).map Char.toLower
  if t.isEmpty then .error (.fault .noFirstCharacter)
  else
    let signed (d : Double) : Double := if t.head? = some '-' then d.neg else d
    let body := withoutSign t
    if body = ".inf".toList then return signed (.infinite false)
    else if body = ".nan".toList then return .nan
    else if body.contains ':' then
      let parts ← (Text.split ':' body).mapM readFloat
      return signed (← sexagesimal parts.reverse 1 (.zero false))
    else return signed (← readFloat body)

end GuidedTour.Yaml
