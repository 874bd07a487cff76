import Metering.Aggregation
import Metering.Pattern.Match
import Metering.Pattern.Parser

/-!
# Views

A view gives the instruments of one kind whose whole name matches a pattern an aggregation and a
temporality of its own.  A `Chooser` keeps the views of each kind with the newest first, and the
first that matches decides; an instrument that no view matches is configured by its kind.
-/

namespace Metering

/-- What a view selects: the instruments of a kind whose whole name matches. -/
structure Selector where
  kind : InstrumentKind
  regex : String
  pattern : Pattern
deriving DecidableEq, Repr

/-- Why a selector is refused. -/
inductive SelectorError where
  | invalidKind (kind : Scalar)
  | spelling (e : Pattern.SpellingError)
deriving DecidableEq, Repr

namespace Selector

/-- The selector of a kind and a written pattern; the kind is checked first. -/
def create (kind : KindArgument) (regex : String) : Except SelectorError Selector :=
  match kind with
  | .other s => .error (.invalidKind s)
  | .kind k =>
    match Pattern.parse regex with
    | .error e => .error (.spelling e)
    | .ok p => .ok ⟨k, regex, p⟩

/-- The selector selects the instrument. -/
def selects (s : Selector) (d : Descriptor) : Bool :=
  decide (d.kind = s.kind) && s.pattern.matchesWhole d.name

end Selector

/-- How the measurements of an instrument are aggregated and over which windows. -/
structure Configuration where
  aggregation : Aggregation
  temporality : Temporality
deriving DecidableEq, Repr

/-- The configuration of an instrument that no view matches. -/
def InstrumentKind.configuration : InstrumentKind → Configuration
  | .counter | .upDownCounter => ⟨.sum, .cumulative⟩
  | .valueRecorder => ⟨.minMaxSumCount, .delta⟩
  | .valueObserver => ⟨.lastValue, .delta⟩
  | .sumObserver | .upDownSumObserver => ⟨.lastValue, .cumulative⟩

/-- A selector with the configuration it gives. -/
structure View where
  selector : Selector
  configuration : Configuration
deriving DecidableEq, Repr

/-- The views of each kind of instrument, newest first. -/
structure Chooser where
  views : InstrumentKind → List View

namespace Chooser

/-- The chooser without views. -/
def empty : Chooser := ⟨fun _ => []⟩

instance : Inhabited Chooser := ⟨empty⟩

/-- The chooser with one more view. -/
def add (c : Chooser) (v : View) : Chooser :=
  ⟨fun k => if k = v.selector.kind then v :: c.views k else c.views k⟩

/-- The newest view that selects an instrument. -/
def view? (c : Chooser) (d : Descriptor) : Option View :=
  (c.views d.kind).find? (·.selector.selects d)

/-- The configuration of an instrument. -/
def choose (c : Chooser) (d : Descriptor) : Configuration :=
  match c.view? d with
  | some v => v.configuration
  | none => d.kind.configuration

theorem view?_add (c : Chooser) (v : View) (d : Descriptor) :
    (c.add v).view? d = if v.selector.selects d then some v else c.view? d := by
  unfold view? add
  dsimp only
  by_cases hk : d.kind = v.selector.kind
  · rw [if_pos hk, List.find?_cons]
    cases v.selector.selects d <;> rfl
  · rw [if_neg hk]
    simp [Selector.selects, hk]

end Chooser

/-- A description of a view; a selector may go without a pattern and then selects every name. -/
structure ViewSpec where
  kind : KindArgument
  regex : String := ".*"
  aggregation : AggregationSpec
  temporality : Temporality
deriving DecidableEq, Repr

namespace ViewSpec

/-- The selector of a description. -/
def selector (s : ViewSpec) : Except SelectorError Selector :=
  Selector.create s.kind s.regex

/-- The view of a description that selects and aggregates as given. -/
def assemble (s : ViewSpec) (selector : Selector) (aggregation : Aggregation) : View :=
  ⟨selector, ⟨aggregation, s.temporality⟩⟩

end ViewSpec

/-- The text that reports a new view. -/
def View.announcement (v : View) : String :=
  "Registered view for " ++ v.selector.kind.label ++ " instruments matching "
    ++ Text.quote v.selector.regex ++ ": " ++ v.configuration.aggregation.title ++ " "
    ++ v.configuration.temporality.constant

end Metering
