import Metering.Number
import Metering.Numeral.Double
import Metering.Text.Quoted

/-!
# Scalars

What callers hand in where a measurement, a label, a boundary or a name is expected may be a value
of any plain kind.  `Scalar` holds these values and shows them in messages; two scalars are the
same key of a mapping when they are the same text, both absent, or equal as numbers, truth values
counting as one and zero.
-/

namespace Metering

/-- A plain value. -/
inductive Scalar where
  | number (n : Number)
  | boolean (b : Bool)
  | absent
  | text (s : String)
deriving DecidableEq, Repr

/-- Why a scalar is no double. -/
inductive ConversionError where
  | tooLarge
  | unreadable (s : String)
  | notNumeric
deriving DecidableEq, Repr

namespace ConversionError

/-- The text of a failed conversion. -/
def message : ConversionError → String
  | .tooLarge => "int too large to convert to float"
  | .unreadable s => "could not convert string to float: " ++ Text.quote s
  | .notNumeric => "float() argument must be a string or a real number, not 'NoneType'"

end ConversionError

namespace Scalar

/-- The scalar as messages show it. -/
def shown : Scalar → String
  | .number n => n.text
  | .boolean b => if b then "True" else "False"
  | .absent => "None"
  | .text s => Text.quote s

/-- The name of the type of a scalar. -/
def typeName : Scalar → String
  | .number (.integer _) => "int"
  | .number (.double _) => "float"
  | .boolean _ => "bool"
  | .absent => "NoneType"
  | .text _ => "str"

/-- The number a scalar counts as. -/
def number? : Scalar → Option Number
  | .number n => some n
  | .boolean b => some (.integer (if b then 1 else 0))
  | _ => none

/-- The two scalars are one key of a mapping. -/
def sameKey : Scalar → Scalar → Bool
  | .text s, .text t => s == t
  | .absent, .absent => true
  | a, b =>
    match a.number?, b.number? with
    | some m, some n => m.numericEq n
    | _, _ => false

/-- The double a scalar stands for: its number, or the double it spells. -/
def toDouble : Scalar → Except ConversionError Binary64
  | .absent => .error .notNumeric
  | .text s =>
    match Numeral.readDouble? s with
    | some x => .ok x
    | none => .error (.unreadable s)
  | .boolean b => .ok (Binary64.ofInt (if b then 1 else 0))
  | .number n =>
    match n.toBinary64? with
    | some x => .ok x
    | none => .error .tooLarge

/-- Several scalars in parentheses; a single one is followed by a comma. -/
def shownTogether (items : List String) : String :=
  match items with
  | [item] => "(" ++ item ++ ",)"
  | items => "(" ++ ", ".intercalate items ++ ")"

end Scalar

end Metering
