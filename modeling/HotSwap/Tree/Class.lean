/-
HotSwap.Tree.Class — class declarations and the statements of a file.

The tree holds as much of a file as a hot update asks about: its
statements in order and, of the classes among them, the name, the
decorators, and the lists in the header and between the braces. All else
is a span.
-/
import HotSwap.Tree.Modifier
import HotSwap.Tree.Expr

namespace HotSwap

/-- The number that tells one class of a program from another. -/
structure ClassId where
  number : UInt32
  deriving DecidableEq, Repr, Inhabited

namespace ClassId

instance : Ord ClassId := ⟨fun a b => compare a.number b.number⟩

theorem compare_eq (a b : ClassId) : compare a b = compare a.number b.number := rfl

instance : Std.TransOrd ClassId where
  eq_swap := by
    intro a b
    rw [compare_eq, compare_eq b]
    exact Std.OrientedOrd.eq_swap
  isLE_trans := by
    intro a b c
    simp only [compare_eq]
    exact Std.TransOrd.isLE_trans

instance : Std.LawfulEqOrd ClassId where
  compare_self := by
    intro a
    rw [compare_eq]
    exact Std.ReflOrd.compare_self
  eq_of_compare := by
    intro a b h
    rw [compare_eq] at h
    cases a; cases b
    exact congrArg mk (Std.LawfulEqOrd.eq_of_compare h)

/-- The id after this one. The last id is its own successor. -/
def next (id : ClassId) : ClassId :=
  ⟨.ofNatClamp (id.number.toNat + 1)⟩

/-- How an id is shown to a user. -/
def label (id : ClassId) : String := "class#" ++ toString id.number.toNat

/-- How an id is shown in a log. -/
def listing (id : ClassId) : String := "ClassId(" ++ toString id.number.toNat ++ ")"

end ClassId

/-- A list of nodes between delimiters. Its span covers the separators and
the space around the items too. -/
structure Delimited (α : Type) where
  span : Span
  items : List α
  deriving DecidableEq, Repr

/-- What a heritage clause says of the class. -/
inductive HeritageKind where
  /-- It derives from a base class. -/
  | base
  /-- It has the members that interfaces ask for. -/
  | interfaces
  deriving DecidableEq, Repr

/-- The word that begins a clause of the kind. -/
def HeritageKind.word : HeritageKind → String
  | base => "extends"
  | interfaces => "implements"

/-- One clause of a class's heritage, from its first word on. -/
structure HeritageClause where
  kind : HeritageKind
  span : Span
  deriving DecidableEq, Repr

/-- A call in a decorator. The callee is what stands before the
parentheses. -/
structure Call where
  span : Span
  callee : Span
  arguments : Delimited Expr
  deriving DecidableEq

/-- The properties of the only argument, if there is exactly one and it is
an object literal. -/
def Call.soleObject? (call : Call) : Option (List Property) :=
  match call.arguments.items with
  | [argument] => argument.properties?
  | _ => none

/-- A decorator. Its span begins at the `@` sign. -/
inductive Decorator where
  | call (span : Span) (application : Call)
  /-- A decorator that is named only. -/
  | bare (span : Span) (target : Span)
  deriving DecidableEq

namespace Decorator

/-- The whole decorator, with its sign. -/
def span : Decorator → Span
  | .call span _ | .bare span _ => span

/-- The call, if the decorator is one. -/
def call? : Decorator → Option Call
  | .call _ c => some c
  | .bare .. => none

end Decorator

/-- A class declaration. Its span reaches from the first decorator to the
closing brace. -/
structure Class where
  id : ClassId
  span : Span
  /-- Absent where a default export needs no name. -/
  name : Option Name
  decorators : List Decorator
  modifiers : List Modifier
  typeParams : Option (Delimited Span)
  heritage : Option (Delimited HeritageClause)
  /-- What stands between the braces. -/
  members : Delimited Span
  deriving DecidableEq

namespace Class

/-- What the class is called, unless it has no name. -/
def nameText? (c : Class) : Option String := c.name.map (·.text)

/-- The modifiers' keywords as a set. -/
def keywords (c : Class) : Keyword.Set := .ofList (c.modifiers.map (·.keyword))

end Class

/-- A statement at the top level of a file. -/
structure Statement where
  span : Span
  /-- The class that the statement declares, if it declares one. -/
  declared : Option Class
  deriving DecidableEq

end HotSwap
