/-
HotSwap.Json.Source — the JSON form of whole sources.

Every node is an object that names all its fields; what a class lacks is
written as null, and may be left out when it is read. Reading checks the
shape of the tree and the size of its numbers. Whether the spans fit the
text is for `Source.validated` to say.
-/
import HotSwap.Json.Expr
import HotSwap.Source

namespace HotSwap

open Json

/-! ## Writing -/

/-- A value, or null in place of one that is absent. -/
def Json.ofOption {α : Type} (write : α → Json) : Option α → Json
  | some a => write a
  | none => .null

def Keyword.toJson (k : Keyword) : Json := .str k.word.capitalize

def Modifier.toJson (m : Modifier) : Json :=
  .obj [("kind", m.keyword.toJson), ("span", m.span.toJson)]

def Delimited.toJson {α : Type} (writeItem : α → Json) (g : Delimited α) : Json :=
  .obj [("span", g.span.toJson), ("items", .arr (g.items.map writeItem))]

def HeritageKind.toJson (k : HeritageKind) : Json := .str k.word.capitalize

def HeritageClause.toJson (c : HeritageClause) : Json :=
  .obj [("kind", c.kind.toJson), ("span", c.span.toJson)]

def Call.toJson (c : Call) : Json :=
  .obj [("span", c.span.toJson), ("callee", c.callee.toJson),
    ("arguments", c.arguments.toJson Expr.toJson)]

def Decorator.toJson : Decorator → Json
  | call span application =>
    .obj [("span", span.toJson), ("expression", .obj [("Call", application.toJson)])]
  | bare span target =>
    .obj [("span", span.toJson), ("expression", .obj [("Other", target.toJson)])]

def ClassId.toJson (id : ClassId) : Json := ofWord id.number

def Class.toJson (c : Class) : Json :=
  .obj [("id", c.id.toJson), ("span", c.span.toJson), ("name", ofOption Name.toJson c.name),
    ("decorators", .arr (c.decorators.map Decorator.toJson)),
    ("modifiers", .arr (c.modifiers.map Modifier.toJson)),
    ("type_params", ofOption (Delimited.toJson Span.toJson) c.typeParams),
    ("heritage_clauses", ofOption (Delimited.toJson HeritageClause.toJson) c.heritage),
    ("members", c.members.toJson Span.toJson)]

def Statement.toJson (s : Statement) : Json :=
  .node s.span <| match s.declared with
    | none => .str "Other"
    | some c => .obj [("Class", c.toJson)]

def Source.toJson (s : Source) : Json :=
  .obj [("path", .str s.path), ("text", .str s.text),
    ("statements", .arr (s.statements.map Statement.toJson))]

/-! ## Reading -/

/-- An absent value from null, and any other from its JSON form. -/
def Json.option? {α : Type} (read : Json → Option α) : Json → Option (Option α)
  | .null => some none
  | j => some <$> read j

/-- The items of an array, each read in the same way. -/
def Json.list? {α : Type} (readItem : Json → Option α) (j : Json) : Option (List α) := do
  (← j.arr?).mapM readItem

/-- A keyword by its capitalised word. -/
def Keyword.ofJson? (j : Json) : Option Keyword := do
  let (name, .null) ← j.variant? | none
  Keyword.all.find? (·.word.capitalize = name)

def Modifier.ofJson? (j : Json) : Option Modifier := do
  let [kind, span] ← j.record? [.required "kind", .required "span"] | none
  return ⟨← Keyword.ofJson? kind, ← Span.ofJson? span⟩

def Delimited.ofJson? {α : Type} (readItem : Json → Option α) (j : Json) :
    Option (Delimited α) := do
  let [span, items] ← j.record? [.required "span", .required "items"] | none
  return ⟨← Span.ofJson? span, ← items.list? readItem⟩

def HeritageKind.ofJson? (j : Json) : Option HeritageKind := do
  let (name, .null) ← j.variant? | none
  [base, interfaces].find? (·.word.capitalize = name)

def HeritageClause.ofJson? (j : Json) : Option HeritageClause := do
  let [kind, span] ← j.record? [.required "kind", .required "span"] | none
  return ⟨← HeritageKind.ofJson? kind, ← Span.ofJson? span⟩

def Call.ofJson? (j : Json) : Option Call := do
  let [span, callee, arguments] ←
    j.record? [.required "span", .required "callee", .required "arguments"] | none
  return ⟨← Span.ofJson? span, ← Span.ofJson? callee, ← Delimited.ofJson? Expr.ofJson? arguments⟩

def Decorator.ofJson? (j : Json) : Option Decorator := do
  let [span, expression] ← j.record? [.required "span", .required "expression"] | none
  let span ← Span.ofJson? span
  match ← expression.variant? with
  | ("Call", application) => return .call span (← Call.ofJson? application)
  | ("Other", target) => return .bare span (← Span.ofJson? target)
  | _ => none

def ClassId.ofJson? (j : Json) : Option ClassId := (⟨·⟩) <$> j.word?

def Class.ofJson? (j : Json) : Option Class := do
  let [id, span, name, decorators, modifiers, typeParams, heritage, members] ←
    j.record? [.required "id", .required "span", .optional "name", .required "decorators",
      .required "modifiers", .optional "type_params", .optional "heritage_clauses",
      .required "members"]
    | none
  return {
    id := ← ClassId.ofJson? id
    span := ← Span.ofJson? span
    name := ← name.option? Name.ofJson?
    decorators := ← decorators.list? Decorator.ofJson?
    modifiers := ← modifiers.list? Modifier.ofJson?
    typeParams := ← typeParams.option? (Delimited.ofJson? Span.ofJson?)
    heritage := ← heritage.option? (Delimited.ofJson? HeritageClause.ofJson?)
    members := ← Delimited.ofJson? Span.ofJson? members }

def Statement.ofJson? (j : Json) : Option Statement := do
  match ← j.node? with
  | (span, "Other", .null) => return ⟨span, none⟩
  | (span, "Class", c) => return ⟨span, some (← Class.ofJson? c)⟩
  | _ => none

def Source.ofJson? (j : Json) : Option Source := do
  let [path, text, statements] ←
    j.record? [.required "path", .required "text", .required "statements"] | none
  return ⟨← path.str?, ← text.str?, ← statements.list? Statement.ofJson?⟩

end HotSwap
