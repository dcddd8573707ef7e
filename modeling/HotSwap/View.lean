/-
HotSwap.View — what a hot update may ask about the program after the
edit.

A view answers four questions: which classes render a template, which use
a style sheet, what a file now holds, and how a class is marked. Nothing
is assumed of the answers; `HotSwap.Program` gives a view that is backed
by tables.
-/
import HotSwap.Source

namespace HotSwap

/-- What the compiler has found out about a class from its decorators. -/
structure Marking where
  /-- The index of the decorator that holds the class's metadata. -/
  decorator : Nat
  /-- The class is a component, and not another decorated thing. -/
  isComponent : Bool
  deriving DecidableEq, Repr

/-- Read access to the program after the edit. -/
structure View where
  /-- The classes whose template is the file at a path. -/
  templateUsers : String → List ClassId
  /-- The classes that use the file at a path as a style sheet. -/
  styleUsers : String → List ClassId
  /-- The file at a path, if the program still has it. -/
  source? : String → Option Source
  marking? : Class → Option Marking

namespace View

/-- The index of the metadata decorator, if the class is a component. -/
def metadataIndex? (v : View) (c : Class) : Option Nat :=
  match v.marking? c with
  | some ⟨decorator, true⟩ => some decorator
  | _ => none

/-- Append an id to a list that does not hold it yet. -/
def pushNew (ids : List ClassId) (id : ClassId) : List ClassId :=
  if id ∈ ids then ids else ids ++ [id]

/-- The classes that a resource file belongs to: those that render it as
their template, then those that only use it as a style sheet. -/
def resourceUsers (v : View) (path : String) : List ClassId :=
  (v.styleUsers path).foldl pushNew (v.templateUsers path)

end View

end HotSwap
