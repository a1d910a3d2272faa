import GuidedTour.Data.Calendar
import GuidedTour.Decimal.Layout
import GuidedTour.Text.Digit
import GuidedTour.Text.Quoted

/-!
# Data values

The values that a document hands over: scalars, lists, and mappings in the order of the document. Each has a
literal form, in which texts are quoted, and a word for its kind; a scalar has a plain text besides, which for a
text is the text itself. What holds a whole number with too many digits cannot be written out.
-/

set_option autoImplicit false

namespace GuidedTour.Data

/-- A value without parts. -/
inductive Scalar where
  | null
  | truth (value : Bool)
  | integer (value : Int)
  | float (value : Double)
  | text (value : Text)
  | date (value : Date)
  | moment (value : Moment)
  | bytes (value : List UInt8)
deriving DecidableEq, Repr, Inhabited

/-- A value of a document. Of sets and tuples only the kind is kept, since nothing looks into them. -/
inductive Value where
  | scalar (scalar : Scalar)
  | list (items : List Value)
  | mapping (entries : List (Scalar × Value))
  | set
  | tuple
deriving Repr, Inhabited

/-- Floats are written with a point or an exponent, positionally from a ten-thousandth up to below
ten to the sixteenth. -/
def floatLayout : Layout := ⟨some (-4, 16), true, ['n', 'a', 'n']⟩

namespace Scalar

/-- The word for the kind of a scalar. -/
def kind : Scalar → String
  | null => "NoneType"
  | truth _ => "bool"
  | integer _ => "int"
  | float _ => "float"
  | text _ => "str"
  | date _ => "date"
  | moment _ => "datetime"
  | bytes _ => "bytes"

/-- A scalar in plain text. -/
def plain : Scalar → Text
  | null => "None".toList
  | truth true => "True".toList
  | truth false => "False".toList
  | integer i => Text.ofInt i
  | float d => floatLayout.write d
  | text t => t
  | date d => d.shown
  | moment m => m.shown
  | bytes b => Text.quotedBytes b

/-- A scalar in its literal form. -/
def literal : Scalar → Text
  | text t => Text.quoted t
  | date d => d.literal
  | moment m => m.literal
  | s => s.plain

/-- Whether a scalar can be written out. A whole number with too many digits cannot. -/
def isWritable : Scalar → Bool
  | integer i => i.natAbs < Nat.pow 10 Text.digitLimit
  | _ => true

/-- The exact value of a number as a fraction, if the scalar is a finite number. -/
def fraction? : Scalar → Option (Int × Nat)
  | truth b => some (if b then 1 else 0, 1)
  | integer i => some (i, 1)
  | float (.finite negative m q) =>
    let (n, d) := Double.fraction m q
    some (if negative then -(n : Int) else n, d)
  | _ => none

/-- Whether two scalars are the same key of a mapping. Numbers of all kinds are compared by their exact
value, and moments by their instant. Of floats that are no number this says nothing more than that both are
such. -/
def sameKey (a b : Scalar) : Bool :=
  match a.fraction?, b.fraction? with
  | some (n, d), some (m, e) => n * e == m * d
  | none, none =>
    match a, b with
    | moment x, moment y => x.same y
    | x, y => x == y
  | _, _ => false

end Scalar

namespace Value

/-- The word for the kind of a value. -/
def kind : Value → String
  | scalar s => s.kind
  | list _ => "list"
  | mapping _ => "dict"
  | set => "set"
  | tuple => "tuple"

mutual

/-- A value in its literal form. -/
def literal : Value → Text
  | .scalar s => s.literal
  | .list items => '[' :: Text.join [',', ' '] (literals items) ++ [']']
  | .mapping entries => '{' :: Text.join [',', ' '] (entryLiterals entries) ++ ['}']
  | .set => "set()".toList
  | .tuple => "()".toList

/-- Some values, each in its literal form. -/
def literals : List Value → List Text
  | [] => []
  | value :: more => value.literal :: literals more

/-- Some entries of a mapping, each as its key and its value in literal form. -/
def entryLiterals : List (Scalar × Value) → List Text
  | [] => []
  | (key, value) :: more => (key.literal ++ ':' :: ' ' :: value.literal) :: entryLiterals more

end

/-- The value of a text. -/
def ofText (text : Text) : Value := .scalar (.text text)

mutual

/-- Whether a value can be written out, which it can if all that it holds can be. -/
def isWritable : Value → Bool
  | .scalar s => s.isWritable
  | .list items => areWritable items
  | .mapping entries => entriesWritable entries
  | .set => true
  | .tuple => true

/-- Whether some values can all be written out. -/
def areWritable : List Value → Bool
  | [] => true
  | value :: more => value.isWritable && areWritable more

/-- Whether some entries of a mapping can all be written out, keys and values. -/
def entriesWritable : List (Scalar × Value) → Bool
  | [] => true
  | (key, value) :: more => key.isWritable && value.isWritable && entriesWritable more

end

end Value

/-- Adds an entry to the entries of a mapping, given which keys are the same. An entry with the same key
keeps its place and its key and takes the new value. -/
def put {κ α : Type} (same : κ → κ → Bool) (entries : List (κ × α)) (key : κ) (value : α) : List (κ × α) :=
  if entries.any fun entry => same entry.1 key then
    entries.map fun entry => if same entry.1 key then (entry.1, value) else entry
  else entries ++ [(key, value)]

end GuidedTour.Data
