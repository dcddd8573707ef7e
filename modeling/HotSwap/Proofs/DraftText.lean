/-
HotSwap.Proofs.DraftText — the text of a draft, written down without
layouts.

`Expr.text`, `Class.text` and `File.text` say what each part of a draft
looks like, with no spans and no ids. A layout writes exactly that text
(`File.text_layout`), so what a comparison of two laid out files depends
on can be said about the drafts alone. `Statement.pieces` lists the parts
that spans stand for.
-/
import HotSwap.Draft.Layout
import HotSwap.Proofs.Layout

namespace HotSwap.Draft

open HotSwap.Layout

/-! ## Expressions -/

/-- A property name with the marks of its kind. -/
def Key.text : Key → String
  | identifier text | number text => text
  | quoted text => "'" ++ text ++ "'"
  | computed text => "[" ++ text ++ "]"

/-- The name that the key stands for, unless it is computed. -/
def Key.name? : Key → Option String
  | identifier text | quoted text | number text => some text
  | computed _ => none

mutual
/-- An expression whose first line begins at the depth. -/
def Expr.text (depth : Nat) : Expr → String
  | .verbatim text => text
  | .object properties =>
    "\x7b" ++ Property.lines (depth + 1) properties ++
      (if properties.isEmpty then "" else "\n" ++ indent depth) ++ "\x7d"
/-- A property at the depth, without its comma. -/
def Property.text (depth : Nat) : Property → String
  | .assign key value => key.text ++ ": " ++ value.text depth
  | .shorthand name => name
  | .spread text => "..." ++ text
  | .method key body => key.text ++ ("() \x7b " ++ body ++ " \x7d")
/-- A line for each property, with its comma. -/
def Property.lines (depth : Nat) : List Property → String
  | [] => ""
  | property :: rest =>
    "\n" ++ indent depth ++ property.text depth ++ "," ++ Property.lines depth rest
end

theorem Key.text_layout (k : Key) : k.layout.text = k.text := by
  cases k <;> rfl

theorem text_objectLayout (depth : Nat) (ls : List (Layout HotSwap.Property)) :
    (objectLayout depth ls).text =
      "\x7b" ++ (each ("\n" ++ indent (depth + 1)) "," ls).text ++
        (if ls.isEmpty then "" else "\n" ++ indent depth) ++ "\x7d" := by
  cases ls with
  | nil => rfl
  | cons l ls =>
    show "\x7b" ++ (each _ "," (l :: ls)).text ++ ("\n" ++ indent depth ++ "\x7d") = _
    simp [String.append_assoc]

mutual
theorem Expr.text_layout : ∀ (depth : Nat) (e : Expr), (e.layout depth).text = e.text depth
  | _, .verbatim _ => rfl
  | depth, .object ps => by
    have hlines := Property.text_layouts (depth + 1) ps
    have hempty : (Property.layouts (depth + 1) ps).isEmpty = ps.isEmpty := by
      rw [Property.layouts_eq_map, List.isEmpty_map]
    rw [Expr.layout, Expr.text, text_objectLayout, hlines, hempty]
theorem Property.text_layout : ∀ (depth : Nat) (p : Property),
    (p.layout depth).text = p.text depth
  | depth, .assign key value => by
    have hvalue := Expr.text_layout depth value
    rw [Property.layout, Property.text, ← hvalue, ← key.text_layout]
    rfl
  | _, .shorthand _ => rfl
  | _, .spread _ => rfl
  | _, .method key _ => by
    rw [Property.layout, Property.text, ← key.text_layout]
    rfl
theorem Property.text_layouts : ∀ (depth : Nat) (ps : List Property),
    (each ("\n" ++ indent depth) "," (Property.layouts depth ps)).text =
      Property.lines depth ps
  | _, [] => rfl
  | depth, p :: ps => by
    have hfirst := Property.text_layout depth p
    have hrest := Property.text_layouts depth ps
    rw [Property.layouts, Property.lines, ← hfirst, ← hrest]
    rfl
end

/-! ## Classes -/

namespace Decorator

/-- The arguments of a call, without the parentheses. -/
def argumentsText (arguments : List Expr) : String :=
  ", ".intercalate (arguments.map (·.text 0))

/-- What a decorator writes behind its sign. -/
def target : Decorator → String
  | call callee arguments => callee ++ "(" ++ argumentsText arguments ++ ")"
  | bare text => text

def text (d : Decorator) : String := "@" ++ d.target

end Decorator

/-- A heritage clause from its first word on. -/
def clauseText (clause : HeritageKind × String) : String := clause.1.word ++ " " ++ clause.2

namespace Class

/-- The type parameters in their brackets, unless there are none. -/
def typeParamsText? (c : Class) : Option String :=
  if c.typeParams.isEmpty then none else some ("<" ++ ", ".intercalate c.typeParams ++ ">")

/-- The heritage clauses, unless there are none. -/
def heritageText? (c : Class) : Option String :=
  if c.heritage.isEmpty then none else some (" ".intercalate (c.heritage.map clauseText))

/-- What stands between the braces. -/
def membersText (c : Class) : String :=
  .join (c.members.map ("\n  " ++ ·)) ++ if c.members.isEmpty then "" else "\n"

/-- The class from its first decorator to its closing brace. -/
def text (c : Class) : String :=
  .join (c.decorators.map (·.text ++ "\n")) ++ .join (c.modifiers.map (·.word ++ " ")) ++
    "class" ++ (c.name.map (" " ++ ·)).getD "" ++ c.typeParamsText?.getD "" ++
    (c.heritageText?.map (" " ++ ·)).getD "" ++ " \x7b" ++ c.membersText ++ "\x7d"

end Class

theorem text_callLayout (callee : String) (arguments : List Expr) :
    (callLayout callee arguments).text =
      callee ++ "(" ++ Decorator.argumentsText arguments ++ ")" := by
  have harguments : (arguments.map (·.layout 0)).map (·.text) = arguments.map (·.text 0) := by
    rw [List.map_map]
    exact List.map_congr_left fun e _ => e.text_layout 0
  rw [Decorator.argumentsText, ← harguments, ← text_joined]
  rfl

theorem Decorator.text_layout (d : Decorator) : d.layout.text = d.text := by
  cases d with
  | bare text => rfl
  | call callee arguments =>
    rw [Decorator.text, target, ← text_callLayout]
    rfl

namespace Class

theorem text_nameLayout (c : Class) : c.nameLayout.text = (c.name.map (" " ++ ·)).getD "" := by
  rw [nameLayout]
  cases c.name <;> rfl

theorem text_typeParamsLayout (c : Class) :
    c.typeParamsLayout.text = c.typeParamsText?.getD "" := by
  rw [typeParamsLayout, typeParamsText?]
  cases c.typeParams with
  | nil => rfl
  | cons param params => simp [text_joined, Function.comp_def]

theorem text_heritageLayout (c : Class) :
    c.heritageLayout.text = (c.heritageText?.map (" " ++ ·)).getD "" := by
  rw [heritageLayout, heritageText?]
  cases c.heritage with
  | nil => rfl
  | cons clause clauses =>
    have htexts : ((clause :: clauses).map clauseLayout).map (·.text) =
        (clause :: clauses).map clauseText := by
      rw [List.map_map]
      rfl
    have hjoined := text_joined " " ((clause :: clauses).map clauseLayout)
    rw [htexts] at hjoined
    exact congrArg (" " ++ ·) hjoined

theorem text_membersLayout (c : Class) : c.membersLayout.text = c.membersText := by
  rw [membersLayout, membersText]
  cases c.members with
  | nil => rfl
  | cons member members => simp [text_each, Function.comp_def]

theorem text_layout (id : ClassId) (c : Class) : (c.layout id).text = c.text := by
  have hdecorators : (each "" "\n" (c.decorators.map Decorator.layout)).text =
      .join (c.decorators.map (·.text ++ "\n")) := by
    simp [text_each, Function.comp_def, Decorator.text_layout]
  have hmodifiers : (each "" " " (c.modifiers.map modifierLayout)).text =
      .join (c.modifiers.map (·.word ++ " ")) := by
    simp [text_each, Function.comp_def, modifierLayout]
  simp [layout, text, hdecorators, hmodifiers, text_nameLayout, text_typeParamsLayout,
    text_heritageLayout, text_membersLayout]

end Class

/-! ## Files -/

/-- A statement on its lines. -/
def Statement.text : Statement → String
  | verbatim text => text
  | declare c => c.text

theorem map_text_statementLayouts (id : ClassId) (steps : List Statement) :
    (statementLayouts id steps).map (·.text) = steps.map (·.text) := by
  induction steps generalizing id with
  | nil => rfl
  | cons step steps ih =>
    cases step with
    | verbatim text => rw [statementLayouts, List.map_cons, List.map_cons, ih]; rfl
    | declare c =>
      rw [statementLayouts, List.map_cons, List.map_cons, ih, text_map, c.text_layout]
      rfl

/-- The statements with a line end between any two. -/
def File.text (f : File) : String := "\n".intercalate (f.statements.map (·.text))

/-- A file is laid out as the text of its statements. -/
theorem File.text_layout (f : File) : f.layout.text = f.text := by
  rw [layout, text, text_joined, map_text_statementLayouts]

/-! ## Pieces

A draft has a piece for each span of the tree that it is laid out to. The
pieces are listed in the order in which `HotSwap.Tree.Spans` lists the
spans: a node before what is inside it, and a list before its items. -/

mutual
/-- The pieces of an expression whose first line begins at the depth. -/
def Expr.pieces (depth : Nat) : Expr → List String
  | .verbatim text => [text]
  | .object properties =>
    Expr.text depth (.object properties) :: Property.piecesOfList (depth + 1) properties
/-- The pieces of a property. Its comma belongs to none of them, and the
marks of its name belong to the name. -/
def Property.pieces (depth : Nat) : Property → List String
  | .assign key value =>
    Property.text depth (.assign key value) :: key.text :: value.pieces depth
  | .shorthand name => [name, name]
  | .spread text => ["..." ++ text, text]
  | .method key body => [Property.text depth (.method key body), key.text]
/-- The pieces of some properties, one after another. -/
def Property.piecesOfList (depth : Nat) : List Property → List String
  | [] => []
  | property :: rest => property.pieces depth ++ Property.piecesOfList depth rest
end

/-- The decorator with its sign and without it, then the parts of a
call. -/
def Decorator.pieces (d : Decorator) : List String :=
  d.text :: d.target ::
    match d with
    | call callee arguments =>
      callee :: argumentsText arguments :: arguments.flatMap (·.pieces 0)
    | bare _ => []

def Class.pieces (c : Class) : List String :=
  c.text :: (c.name.toList ++ c.decorators.flatMap (·.pieces) ++ c.modifiers.map (·.word) ++
    c.typeParamsText?.toList.flatMap (· :: c.typeParams) ++
    c.heritageText?.toList.flatMap (· :: c.heritage.map clauseText) ++
    c.membersText :: c.members)

/-- A class is a piece as a statement and once more as a class. -/
def Statement.pieces : Statement → List String
  | verbatim text => [text]
  | declare c => c.text :: c.pieces

/-- A file with one component and the given template. -/
def cardFile (template : String) : File where
  path := "card.ts"
  statements :=
    [.declare { name := some "Card", decorators :=
      [.call "Component" [.object [.assign (.identifier "template") (.verbatim template)]]] }]

example : (cardFile "'Hi'").text =
    "@Component(\x7b\n  template: 'Hi',\n\x7d)\nclass Card \x7b\x7d" := by decide

end HotSwap.Draft
