import Metering.Instrument.Kind
import Metering.Resource

/-!
# Instrument descriptors

A descriptor is the identity of one metric stream.  Its name starts with a letter, consists of
letters, digits, underscores, points and hyphens, and has at most 63 characters; letters and digits
are the ASCII ones.
-/

namespace Metering

/-- The identity of one metric stream. -/
structure Descriptor where
  name : String
  description : Option String
  unit : Option String
  kind : InstrumentKind
  valueType : ValueType
deriving DecidableEq, Repr

/-- Why a descriptor is refused. -/
inductive DescriptorError where
  | invalidName (name : Scalar)
  | invalidKind (kind : Scalar)
  | invalidValueType (valueType : ValueTypeArgument)
  | notNumberClass (valueType : ValueTypeArgument)
deriving DecidableEq, Repr

namespace DescriptorError

/-- The text of a refused descriptor. -/
def message : DescriptorError → String
  | .invalidName name =>
    "Invalid instrument name " ++ name.shown ++ ", names must start with a letter, contain only "
      ++ "letters, digits, '_', '.' or '-' and be at most 63 characters long"
  | .invalidKind kind => "Invalid instrument type " ++ kind.shown
  | .invalidValueType valueType => "Invalid value type " ++ valueType.shown
  | .notNumberClass valueType =>
    "Invalid value type " ++ valueType.shown ++ ", expected int or float"

end DescriptorError

namespace Descriptor

/-- A character that a name may contain after its first. -/
def isNameChar (c : Char) : Bool :=
  c.isAlphanum || c = '_' || c = '.' || c = '-'

/-- The greatest length of a name. -/
def maxNameLength : Nat := 63

/-- A text is a name of an instrument. -/
def isName (s : List Char) : Bool :=
  match s with
  | [] => false
  | c :: rest => c.isAlpha && rest.all isNameChar && decide (s.length ≤ maxNameLength)

/-- The text of a scalar that is an instrument name. -/
def name? : Scalar → Option String
  | .text s => if isName s.toList then some s else none
  | _ => none

/-- The descriptor with the given parts.  The name is checked first, then the kind, then the value
type, which must be a value type proper. -/
def create (name : Scalar) (description unit : Option String) (kind : KindArgument)
    (valueType : ValueTypeArgument) : Except DescriptorError Descriptor :=
  match name? name with
  | none => .error (.invalidName name)
  | some n =>
    match kind with
    | .other s => .error (.invalidKind s)
    | .kind k =>
      match valueType with
      | .valueType v => .ok ⟨n, description, unit, k, v⟩
      | other => .error (.invalidValueType other)

/-- The descriptor as messages show it. -/
def shown (d : Descriptor) : String :=
  "InstrumentDescriptor(name=" ++ Text.quote d.name
    ++ ", description=" ++ shownText? d.description
    ++ ", unit=" ++ shownText? d.unit
    ++ ", instrument_type=" ++ d.kind.shown
    ++ ", value_type=" ++ d.valueType.shown ++ ")"

/-- An instrument with this descriptor as messages show it. -/
def shownInstrument (d : Descriptor) : String :=
  d.kind.title ++ "(name=" ++ Text.quote d.name ++ ", value_type=" ++ d.valueType.constant ++ ")"

end Descriptor

/-- A description of a descriptor; description and unit may go without saying. -/
structure DescriptorSpec where
  name : Scalar
  kind : KindArgument
  valueType : ValueTypeArgument
  description : Option String := some ""
  unit : Option String := some "1"
deriving DecidableEq, Repr

/-- The descriptor of a description. -/
def DescriptorSpec.build (s : DescriptorSpec) : Except DescriptorError Descriptor :=
  Descriptor.create s.name s.description s.unit s.kind s.valueType

end Metering
