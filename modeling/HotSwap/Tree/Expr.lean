/-
HotSwap.Tree.Expr — the expressions inside a decorator, as far as a hot
update looks into them.

An expression is an object literal with its properties or a span whose
inside nobody reads. `Expr` and `Property` refer to each other through
lists, so the functions on them come in threes: one for an expression,
one for a property, one for a list of properties. Here that is equality;
`HotSwap.Tree.Spans` lists the spans in the same way.
-/
import HotSwap.Span

namespace HotSwap

/-- A name in the text: what it says, and where. -/
structure Name where
  text : String
  span : Span
  deriving DecidableEq, Repr

/-- The name of a property. The span of a quoted or computed name
includes its quotes or brackets. -/
inductive Key where
  | identifier (name : Name)
  /-- A quoted name. Its text is the value, without the quotes. -/
  | quoted (name : Name)
  | number (name : Name)
  /-- A name that is only known when the program runs. -/
  | computed (span : Span)
  deriving DecidableEq, Repr

namespace Key

/-- The name, unless it is computed. -/
def text? : Key → Option String
  | identifier name | quoted name | number name => some name.text
  | computed _ => none

/-- Where the name stands. -/
def span : Key → Span
  | identifier name | quoted name | number name => name.span
  | computed span => span

end Key

mutual
/-- An expression. -/
inductive Expr where
  /-- Anything that is not an object literal. -/
  | verbatim (span : Span)
  | object (span : Span) (properties : List Property)
/-- One entry of an object literal. -/
inductive Property where
  /-- A name, a colon and a value. -/
  | assign (span : Span) (key : Key) (value : Expr)
  /-- A name that stands for itself. -/
  | shorthand (span : Span) (name : Name)
  /-- Three dots and an expression. -/
  | spread (span : Span) (value : Expr)
  /-- A method or an accessor, of which only the name is kept. -/
  | method (span : Span) (key : Key)
end

instance : Inhabited Expr := ⟨.verbatim default⟩

namespace Expr

/-- Where the expression stands. -/
def span : Expr → Span
  | verbatim span | object span _ => span

/-- The properties, if the expression is an object literal. -/
def properties? : Expr → Option (List Property)
  | verbatim _ => none
  | object _ properties => some properties

end Expr

namespace Property

/-- The whole property, without a comma behind it. -/
def span : Property → Span
  | assign span .. | shorthand span _ | spread span _ | method span _ => span

end Property

/-! ## Equality -/

mutual
/-- Equality of expressions, node by node. -/
def Expr.decEq : (a b : Expr) → Decidable (a = b)
  | .verbatim s, .verbatim t => decidable_of_iff (s = t) (by simp)
  | .object s ps, .object t qs =>
    have := Property.decEqList ps qs
    decidable_of_iff (s = t ∧ ps = qs) (by simp)
  | .verbatim _, .object .. => isFalse (by simp)
  | .object .., .verbatim _ => isFalse (by simp)
/-- Equality of properties. -/
def Property.decEq : (a b : Property) → Decidable (a = b)
  | .assign s k v, .assign t l w =>
    have := Expr.decEq v w
    decidable_of_iff (s = t ∧ k = l ∧ v = w) (by simp)
  | .shorthand s m, .shorthand t n => decidable_of_iff (s = t ∧ m = n) (by simp)
  | .spread s v, .spread t w =>
    have := Expr.decEq v w
    decidable_of_iff (s = t ∧ v = w) (by simp)
  | .method s k, .method t l => decidable_of_iff (s = t ∧ k = l) (by simp)
  | .assign .., .shorthand .. | .assign .., .spread .. | .assign .., .method ..
  | .shorthand .., .assign .. | .shorthand .., .spread .. | .shorthand .., .method ..
  | .spread .., .assign .. | .spread .., .shorthand .. | .spread .., .method ..
  | .method .., .assign .. | .method .., .shorthand .. | .method .., .spread .. =>
    isFalse (by simp)
/-- Equality of lists of properties. -/
def Property.decEqList : (a b : List Property) → Decidable (a = b)
  | [], [] => isTrue rfl
  | p :: ps, q :: qs =>
    have := Property.decEq p q
    have := Property.decEqList ps qs
    decidable_of_iff (p = q ∧ ps = qs) (by simp)
  | [], _ :: _ => isFalse (by simp)
  | _ :: _, [] => isFalse (by simp)
end

instance : DecidableEq Expr := Expr.decEq

instance : DecidableEq Property := Property.decEq

end HotSwap
