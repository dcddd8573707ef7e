/-
HotSwap.Draft.Basic — descriptions of files by their pieces.

A draft says what a file contains and leaves its text and all offsets to
`HotSwap.Draft.Layout`. Where the drafted text is taken as it is, it may
be any text at all.
-/
import HotSwap.Tree.Class

namespace HotSwap.Draft

/-- The name of a drafted property. -/
inductive Key where
  | identifier (text : String)
  /-- A name to be written between quotes. -/
  | quoted (text : String)
  | number (text : String)
  /-- An expression to be written between brackets. -/
  | computed (text : String)
  deriving DecidableEq, Repr

mutual
/-- A drafted expression. -/
inductive Expr where
  | verbatim (text : String)
  | object (properties : List Property)
/-- A drafted property of an object literal. -/
inductive Property where
  | assign (key : Key) (value : Expr)
  | shorthand (name : String)
  | spread (text : String)
  | method (key : Key) (body : String)
end

/-- A drafted decorator. -/
inductive Decorator where
  | call (callee : String) (arguments : List Expr)
  | bare (text : String)

/-- A drafted class. Lists that are empty are left out of the header. -/
structure Class where
  name : Option String := none
  decorators : List Decorator := []
  modifiers : List Keyword := []
  typeParams : List String := []
  heritage : List (HeritageKind × String) := []
  members : List String := []

/-- A drafted statement. -/
inductive Statement where
  | verbatim (text : String)
  | declare (c : Class)

/-- A drafted file. Its classes are numbered from `firstId` on. -/
structure File where
  path : String
  firstId : ClassId := ⟨0⟩
  statements : List Statement

end HotSwap.Draft
