/-
HotSwap.Metadata.Field — the fields of a component's metadata.

Metadata is written as an object literal. A property of it is a field if
it is a plain assignment to a name that is known without running the
program. Fields come in two kinds. A live field only declares how the
component looks, so a running program can take over a new value. All other
fields are fixed: they may hold expressions whose order of evaluation
matters.
-/
import HotSwap.Tree.Expr

namespace HotSwap

/-- The names of the live fields. -/
def liveFields : List String :=
  ["template", "templateUrl", "styles", "styleUrl", "stylesUrl"]

/-- Whether a field of the name is live. -/
def isLiveField (name : String) : Bool := liveFields.contains name

/-- An object literal with the text that its spans count. -/
structure Metadata where
  text : String
  properties : List Property
  deriving DecidableEq

/-- A field of a metadata literal. -/
structure Metadata.Field where
  name : String
  /-- The whole property. -/
  span : Span
  /-- What stands behind the colon. -/
  value : Span
  deriving DecidableEq, Repr

/-- Whether a running program can take over a new value of the field. -/
def Metadata.Field.isLive (f : Metadata.Field) : Bool := isLiveField f.name

/-- The property as a field, if it is one. -/
def Property.field? : Property → Option Metadata.Field
  | .assign span key value => key.text?.map (⟨·, span, value.span⟩)
  | .shorthand .. | .spread .. | .method .. => none

end HotSwap
