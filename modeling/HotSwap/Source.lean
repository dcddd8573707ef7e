/-
HotSwap.Source — one version of one file: its path, its text and the tree
of its statements.

A `Source` may hold any spans at all, because trees also arrive from
outside. `Source.validated` lets through exactly those whose spans all
describe a piece of the text, and otherwise reports the first span, in
reading order, that does not.
-/
import HotSwap.Excerpt
import HotSwap.Tree.Spans

namespace HotSwap

/-- One version of one file. -/
structure Source where
  path : String
  text : String
  statements : List Statement
  deriving DecidableEq

namespace Source

/-- A span of this file's tree, to be read against this file's text. -/
def excerpt (s : Source) (span : Span) : Excerpt := ⟨s.text, span⟩

/-- The string under a span of this file's tree. -/
def string? (s : Source) (span : Span) : Option String := (s.excerpt span).string?

/-! ## Classes -/

/-- The classes that the file declares, in statement order. -/
def classes (s : Source) : List Class := s.statements.filterMap (·.declared)

/-- The first class with the given id. -/
def class? (s : Source) (id : ClassId) : Option Class :=
  s.classes.find? (·.id = id)

/-! ## Validation -/

/-- Every span of the tree, in reading order. -/
def spans (s : Source) : List Span := s.statements.flatMap Statement.spans

/-- Why a tree does not describe its text. -/
inductive Defect where
  /-- The text has more bytes than offsets can count. -/
  | textTooLarge (size : Nat)
  | badSpan (fault : Excerpt.Fault)
  deriving DecidableEq, Repr

/-- The sentence that reports a defect. -/
def Defect.message : Defect → String
  | textTooLarge size => "source text of " ++ toString size ++ " bytes exceeds u32::MAX"
  | badSpan fault => fault.message

/-- The first defect, if there is one. -/
def defect? (s : Source) : Option Defect :=
  if s.text.utf8ByteSize > Span.maxOffset then some (.textTooLarge s.text.utf8ByteSize)
  else (s.spans.findSome? fun span => (s.excerpt span).fault?).map .badSpan

/-- The file itself, if it has no defect. -/
def validated (s : Source) : Except Defect Source :=
  match s.defect? with
  | some defect => .error defect
  | none => .ok s

end Source

end HotSwap
