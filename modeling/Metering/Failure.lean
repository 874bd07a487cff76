import Metering.View

/-!
# Failures

A `Failure` is anything that ends an operation early: one of the refusals of this library, or what
a program's own callback raised.  Each has a text and belongs to a category, by which callers tell
failures apart.
-/

namespace Metering

/-- The categories of failures. -/
inductive Category where
  | invalidValue
  | invalidType
  | missingKey
  | overflow
  | failedOperation
  | invalidPattern
  | other (name : String)
deriving DecidableEq, Repr

/-- Why a batch of measurements is refused. -/
inductive BatchError where
  | notSynchronous (shown : String)
  | negative (name : String) (value : Number)
deriving DecidableEq, Repr

/-- Why a periodic reader is refused. -/
inductive ScheduleError where
  | interval (millis : Number)
  | attempts (n : Number)
deriving DecidableEq, Repr

/-- What ends an operation early.  An `ownInterval` is a reader that is asked to wait for the end of
the very interval that asks.  An operation that never ends is told apart from all others by
`endless`, which stands for the answer that nobody gets. -/
inductive Failure where
  | labels (e : LabelError)
  | missingKey (key : Scalar)
  | record (e : RecordError)
  | merge (e : MergeError)
  | descriptor (e : DescriptorError)
  | boundaries (e : BoundaryArgumentError)
  | selector (e : SelectorError)
  | batch (e : BatchError)
  | schedule (e : ScheduleError)
  | tooLarge
  | ownInterval
  | endless
  | unusable (name : String)
  | raised (category : Category) (text : String)
deriving DecidableEq, Repr

/-- The text of a refused batch. -/
def BatchError.message : BatchError → String
  | .notSynchronous shown => "Only synchronous instruments can be recorded, got " ++ shown
  | .negative name value => name ++ " is monotonic, got negative value " ++ value.text

/-- The text of a refused periodic reader. -/
def ScheduleError.message : ScheduleError → String
  | .interval millis => "export_interval_millis must be positive, got " ++ millis.text
  | .attempts n => "max_export_attempts must be at least 1, got " ++ n.text

/-- The text of refused boundaries. -/
def BoundaryArgumentError.message : BoundaryArgumentError → String
  | .conversion e => e.message
  | .boundary e => e.message

namespace Failure

/-- The text of the failure.  A missing key is shown as a key, whoever reports it. -/
def message : Failure → String
  | .labels e => e.message
  | .missingKey key => key.shown
  | .record e => e.message
  | .merge e => e.message
  | .descriptor e => e.message
  | .boundaries e => e.message
  | .selector (.invalidKind kind) => (DescriptorError.invalidKind kind).message
  | .selector (.spelling .tooManyRepetitions) => "the repetition number is too large"
  | .selector (.spelling .conflictingFlags) => "ASCII and UNICODE flags are incompatible"
  | .selector (.spelling _) => "invalid pattern"
  | .batch e => e.message
  | .schedule e => e.message
  | .tooLarge => ConversionError.tooLarge.message
  | .ownInterval => "cannot join current thread"
  | .endless => "never ends"
  | .unusable name => "cannot be used here: " ++ name
  | .raised .missingKey text => Text.quote text
  | .raised _ text => text

/-- The category of the failure. -/
def category : Failure → Category
  | .labels (.notText ..) => .invalidType
  | .labels _ => .invalidValue
  | .missingKey _ => .missingKey
  | .record (.negative _) => .invalidValue
  | .record .tooLarge => .overflow
  | .record _ => .invalidType
  | .merge (.unnamedValueType _) => .other "AttributeError"
  | .merge _ => .invalidType
  | .descriptor (.invalidName _) => .invalidValue
  | .descriptor _ => .invalidType
  | .boundaries (.conversion .tooLarge) => .overflow
  | .boundaries (.conversion .notNumeric) => .invalidType
  | .boundaries _ => .invalidValue
  | .selector (.invalidKind _) => .invalidType
  | .selector (.spelling .tooManyRepetitions) => .overflow
  | .selector (.spelling .conflictingFlags) => .invalidValue
  | .selector (.spelling _) => .invalidPattern
  | .batch (.notSynchronous _) => .invalidType
  | .batch (.negative ..) => .invalidValue
  | .schedule _ => .invalidValue
  | .tooLarge => .overflow
  | .ownInterval => .failedOperation
  | .endless => .failedOperation
  | .unusable _ => .failedOperation
  | .raised c _ => c

end Failure

end Metering
