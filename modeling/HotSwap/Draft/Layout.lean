/-
HotSwap.Draft.Layout — how drafts are written, and the trees that their
text stands for.

Statements stand on lines of their own, with nothing but a line end
between two of them. A class begins with a line for each decorator;
members and properties are indented by two blanks a level. No span
includes the space around its node, except the member list, which reaches
from brace to brace.
-/
import HotSwap.Draft.Basic
import HotSwap.Layout
import HotSwap.Source

namespace HotSwap.Draft

open HotSwap.Layout

/-! ## Expressions -/

/-- A name that is written as it is. -/
def nameLayout (text : String) : Layout Name := (⟨text, ·⟩) <$> verbatim text

/-- A name that is written between quotes, which its span includes. -/
def quotedLayout (text : String) : Layout Name :=
  (⟨text, ·⟩) <$> verbatim ("'" ++ text ++ "'")

/-- A property name, with the marks of its kind. -/
def Key.layout : Key → Layout HotSwap.Key
  | identifier text => .identifier <$> nameLayout text
  | quoted text => .quoted <$> quotedLayout text
  | number text => .number <$> nameLayout text
  | computed text => .computed <$> verbatim ("[" ++ text ++ "]")

/-- The blanks before a line at a depth. -/
def indent (depth : Nat) : String := String.join (List.replicate depth "  ")

/-- An object literal at a depth. Each property has a line of its own and
ends with a comma; an empty literal stays on its line. -/
def objectLayout (depth : Nat) (properties : List (Layout HotSwap.Property)) :
    Layout HotSwap.Expr :=
  spanned <|
    (fun ps span => .object span ps) <$>
      match properties with
      | [] => pure [] <* write "\x7b\x7d"
      | _ => write "\x7b" *> each ("\n" ++ indent (depth + 1)) "," properties <*
          write ("\n" ++ indent depth ++ "\x7d")

mutual
/-- An expression, whose later lines are indented at least to the depth. -/
def Expr.layout (depth : Nat) : Expr → Layout HotSwap.Expr
  | .verbatim text => .verbatim <$> Layout.verbatim text
  | .object properties => objectLayout depth (Property.layouts (depth + 1) properties)
/-- A property whose values are indented at least to the given depth. -/
def Property.layout (depth : Nat) : Property → Layout HotSwap.Property
  | .assign key value =>
    spanned ((fun k v span => .assign span k v) <$> key.layout <* write ": " <*>
      value.layout depth)
  | .shorthand name => spanned ((fun n span => .shorthand span n) <$> nameLayout name)
  | .spread text =>
    spanned ((fun v span => .spread span (.verbatim v)) <$>
      (write "..." *> Layout.verbatim text))
  | .method key body =>
    spanned ((fun k span => .method span k) <$> key.layout <*
      write ("() \x7b " ++ body ++ " \x7d"))
/-- The layouts of some properties at one depth. -/
def Property.layouts (depth : Nat) : List Property → List (Layout HotSwap.Property)
  | [] => []
  | property :: rest => property.layout depth :: Property.layouts depth rest
end

theorem Property.layouts_eq_map (depth : Nat) (properties : List Property) :
    Property.layouts depth properties = properties.map (·.layout depth) := by
  induction properties with
  | nil => rfl
  | cons p ps ih => rw [Property.layouts, ih, List.map_cons]

/-! ## Classes -/

/-- A call: the callee and, in parentheses, the arguments. -/
def callLayout (callee : String) (arguments : List Expr) : Layout Call :=
  spanned ((fun callee arguments span => ⟨span, callee, arguments⟩) <$>
    verbatim callee <* write "(" <*> delimited (joined ", " (arguments.map (·.layout 0))) <*
    write ")")

/-- A decorator behind its sign. -/
def Decorator.layout : Decorator → Layout HotSwap.Decorator
  | call callee arguments =>
    spanned ((fun c span => .call span c) <$> (write "@" *> callLayout callee arguments))
  | bare text => spanned ((fun t span => .bare span t) <$> (write "@" *> verbatim text))

/-- A modifier by its word. -/
def modifierLayout (keyword : Keyword) : Layout Modifier :=
  (⟨keyword, ·⟩) <$> verbatim keyword.word

/-- A heritage clause: its word, a blank and what it names. -/
def clauseLayout (clause : HeritageKind × String) : Layout HeritageClause :=
  (⟨clause.1, ·⟩) <$> verbatim (clause.1.word ++ " " ++ clause.2)

/-- The class name behind a blank, or nothing. -/
def Class.nameLayout (c : Class) : Layout (Option Name) :=
  match c.name with
  | none => pure none
  | some text => write " " *> some <$> Draft.nameLayout text

/-- The type parameters in angle brackets, which the list's span includes,
or nothing if there are none. -/
def Class.typeParamsLayout (c : Class) : Layout (Option (Delimited Span)) :=
  match c.typeParams with
  | [] => pure none
  | params => some <$> delimited (write "<" *> joined ", " (params.map verbatim) <* write ">")

/-- The heritage clauses behind a blank, or nothing if there are none. -/
def Class.heritageLayout (c : Class) : Layout (Option (Delimited HeritageClause)) :=
  match c.heritage with
  | [] => pure none
  | clauses => write " " *> some <$> delimited (joined " " (clauses.map clauseLayout))

/-- A line for each member and the end of the last line, or nothing if
there are none. -/
def Class.membersLayout (c : Class) : Layout (Delimited Span) :=
  match c.members with
  | [] => delimited (pure [])
  | members => delimited (each "\n  " "" (members.map verbatim) <* write "\n")

/-- A class with the given id, from its first decorator to its brace. -/
def Class.layout (id : ClassId) (c : Class) : Layout HotSwap.Class :=
  spanned <|
    (fun decorators modifiers name typeParams heritage members span =>
      { id, span, name, decorators, modifiers, typeParams, heritage, members }) <$>
    each "" "\n" (c.decorators.map Decorator.layout) <*>
    each "" " " (c.modifiers.map modifierLayout) <* write "class" <*>
    c.nameLayout <*> c.typeParamsLayout <*> c.heritageLayout <* write " \x7b" <*>
    c.membersLayout <* write "\x7d"

/-! ## Files -/

/-- The statements in order, their classes numbered from `id` on. -/
def statementLayouts (id : ClassId) : List Statement → List (Layout HotSwap.Statement)
  | [] => []
  | .verbatim text :: rest => (⟨·, none⟩) <$> verbatim text :: statementLayouts id rest
  | .declare c :: rest =>
    (fun c => ⟨c.span, some c⟩) <$> c.layout id :: statementLayouts id.next rest

namespace File

/-- The statements of the file, a line end between any two. -/
def layout (f : File) : Layout (List HotSwap.Statement) :=
  joined "\n" (statementLayouts f.firstId f.statements)

/-- The file as it is laid out from offset zero on. -/
def source (f : File) : Source := ⟨f.path, f.layout.text, f.layout.place 0⟩

/-- The laid out file, unless its text is too large for offsets. -/
def build (f : File) : Except Source.Defect Source := f.source.validated

end File

end HotSwap.Draft
