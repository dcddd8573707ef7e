/-
HotSwap.Tree.Spans — every span of a tree, in the order in which a reader
of the file meets its nodes.

A node's own span stands before the spans inside it. A class is read as
its name, decorators, modifiers, type parameters, heritage and members; a
delimited list as its own span and then its items; a call as its callee
and its arguments.
-/
import HotSwap.Tree.Class

namespace HotSwap

mutual
/-- The spans of an expression. -/
def Expr.spans : Expr → List Span
  | .verbatim span => [span]
  | .object span properties => span :: Property.spansOfList properties
/-- The spans of a property. -/
def Property.spans : Property → List Span
  | .assign span key value => span :: key.span :: value.spans
  | .shorthand span name => [span, name.span]
  | .spread span value => span :: value.spans
  | .method span key => [span, key.span]
/-- The spans of some properties, one after another. -/
def Property.spansOfList : List Property → List Span
  | [] => []
  | property :: rest => property.spans ++ Property.spansOfList rest
end

theorem Property.spansOfList_eq (properties : List Property) :
    Property.spansOfList properties = properties.flatMap Property.spans := by
  induction properties with
  | nil => rfl
  | cons p ps ih => rw [Property.spansOfList, ih, List.flatMap_cons]

/-- The list's own span, then those of its items. -/
def Delimited.spans {α : Type} (itemSpans : α → List Span) (list : Delimited α) : List Span :=
  list.span :: list.items.flatMap itemSpans

/-- The spans of a call. -/
def Call.spans (call : Call) : List Span :=
  call.span :: call.callee :: call.arguments.spans Expr.spans

/-- The spans of a decorator. -/
def Decorator.spans : Decorator → List Span
  | .call span application => span :: application.spans
  | .bare span target => [span, target]

/-- The spans of a class. -/
def Class.spans (c : Class) : List Span :=
  c.span :: ((c.name.toList.map (·.span)) ++ c.decorators.flatMap Decorator.spans ++
    c.modifiers.map (·.span) ++
    c.typeParams.toList.flatMap (Delimited.spans ([·])) ++
    c.heritage.toList.flatMap (Delimited.spans ([·.span])) ++
    c.members.spans ([·]))

/-- The spans of a statement. -/
def Statement.spans (s : Statement) : List Span :=
  s.span :: s.declared.toList.flatMap Class.spans

end HotSwap
