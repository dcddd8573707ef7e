/-
HotSwap.Json.Expr — the JSON form of the expressions inside a decorator.

A node is an object with its span and its kind, and the kind is a variant.
Reading is bounded by a number of levels, which is the depth of the value
that is read: a tree cannot be nested deeper than its JSON form
(`Expr.readWithin_eq_ofJson?`), so the bound never shows.
-/
import HotSwap.Json.Value
import HotSwap.Tree.Expr

namespace HotSwap

open Json

/-! ## Writing -/

def Span.toJson (s : Span) : Json :=
  .obj [("start", ofWord s.start), ("end", ofWord s.stop)]

def Name.toJson (n : Name) : Json :=
  .obj [("text", .str n.text), ("span", n.span.toJson)]

def Key.toJson : Key → Json
  | identifier name => .obj [("Identifier", name.toJson)]
  | quoted name => .obj [("StringLiteral", name.toJson)]
  | number name => .obj [("NumericLiteral", name.toJson)]
  | computed span => .obj [("Computed", span.toJson)]

/-- A node: its span and its kind. -/
def Json.node (span : Span) (kind : Json) : Json :=
  .obj [("span", span.toJson), ("kind", kind)]

mutual
def Expr.toJson : Expr → Json
  | .verbatim span => .node span (.str "Other")
  | .object span properties =>
    .node span (.obj [("ObjectLiteral",
      .obj [("properties", .arr (Property.listToJson properties))])])
def Property.toJson : Property → Json
  | .assign span key value =>
    .node span (.obj [("Assignment",
      .obj [("name", key.toJson), ("initializer", value.toJson)])])
  | .shorthand span name => .node span (.obj [("Shorthand", name.toJson)])
  | .spread span value => .node span (.obj [("Spread", value.toJson)])
  | .method span key => .node span (.obj [("Method", .obj [("name", key.toJson)])])
def Property.listToJson : List Property → List Json
  | [] => []
  | property :: rest => property.toJson :: Property.listToJson rest
end

theorem Property.listToJson_eq_map (properties : List Property) :
    Property.listToJson properties = properties.map Property.toJson := by
  induction properties with
  | nil => rfl
  | cons p ps ih => rw [Property.listToJson, ih, List.map_cons]

/-! ## Reading -/

def Span.ofJson? (j : Json) : Option Span := do
  let [start, stop] ← j.record? [.required "start", .required "end"] | none
  return ⟨← start.word?, ← stop.word?⟩

def Name.ofJson? (j : Json) : Option Name := do
  let [text, span] ← j.record? [.required "text", .required "span"] | none
  return ⟨← text.str?, ← Span.ofJson? span⟩

def Key.ofJson? (j : Json) : Option Key := do
  match ← j.variant? with
  | ("Identifier", name) => return .identifier (← Name.ofJson? name)
  | ("StringLiteral", name) => return .quoted (← Name.ofJson? name)
  | ("NumericLiteral", name) => return .number (← Name.ofJson? name)
  | ("Computed", span) => return .computed (← Span.ofJson? span)
  | _ => none

/-- A node's span and the variant that is its kind. -/
def Json.node? (j : Json) : Option (Span × String × Json) := do
  let [span, kind] ← j.record? [.required "span", .required "kind"] | none
  return (← Span.ofJson? span, ← kind.variant?)

/-- The items of an object literal's property list. -/
def Json.properties? (j : Json) : Option (List Json) := do
  let [properties] ← j.record? [.required "properties"] | none
  properties.arr?

mutual
/-- Read an expression that is nested at most to a number of levels. -/
def Expr.readWithin : Nat → Json → Option Expr
  | 0, _ => none
  | levels + 1, j => do
    match ← j.node? with
    | (span, "Other", .null) => return .verbatim span
    | (span, "ObjectLiteral", literal) =>
      return .object span (← (← literal.properties?).mapM (Property.readWithin levels))
    | _ => none
/-- Read a property that is nested at most to a number of levels. -/
def Property.readWithin : Nat → Json → Option Property
  | 0, _ => none
  | levels + 1, j => do
    match ← j.node? with
    | (span, "Assignment", assignment) =>
      let [key, value] ← assignment.named? [.required "name", .required "initializer"] | none
      return .assign span (← Key.ofJson? key) (← Expr.readWithin levels value)
    | (span, "Shorthand", name) => return .shorthand span (← Name.ofJson? name)
    | (span, "Spread", value) => return .spread span (← Expr.readWithin levels value)
    | (span, "Method", method) =>
      let [key] ← method.named? [.required "name"] | none
      return .method span (← Key.ofJson? key)
    | _ => none
end

def Expr.ofJson? (j : Json) : Option Expr := Expr.readWithin j.depth j

def Property.ofJson? (j : Json) : Option Property := Property.readWithin j.depth j

/-- Read the properties of an object literal that stands by itself. -/
def Property.listOfJson? (j : Json) : Option (List Property) := do
  (← j.properties?).mapM Property.ofJson?

/-! ## The bound on levels -/

theorem Json.depth_lt_of_node? {j kind : Json} {span : Span} {name : String}
    (h : j.node? = some (span, name, kind)) : kind.depth < j.depth := by
  simp only [Json.node?, Option.bind_eq_bind, Option.bind_eq_some_iff] at h
  obtain ⟨parts, hparts, h⟩ := h
  split at h
  · rename_i s k
    simp only [Option.bind_eq_some_iff] at h
    obtain ⟨_, _, variant, hv, h⟩ := h
    cases h
    exact Nat.lt_of_le_of_lt (depth_le_of_variant? hv)
      (depth_lt_of_mem_record? hparts (by simp))
  · simp at h

theorem Json.depth_lt_of_mem_properties? {j item : Json} {items : List Json}
    (h : j.properties? = some items) (hi : item ∈ items) : item.depth < j.depth := by
  simp only [Json.properties?, Option.bind_eq_bind, Option.bind_eq_some_iff] at h
  obtain ⟨parts, hparts, h⟩ := h
  split at h
  · rename_i p
    have hp : p.depth < j.depth := depth_lt_of_mem_record? hparts (by simp)
    cases p <;> simp only [arr?, reduceCtorEq] at h
    cases h
    have := depth_le_depthItems hi
    rw [depth] at hp
    omega
  · simp at h

theorem Json.node?_eq_none_of_depth_eq_zero {j : Json} (h : j.depth = 0) : j.node? = none := by
  cases j <;> simp [depth] at h <;> rfl

theorem mapM_congr_of_mem {α β : Type} {f g : α → Option β} {xs : List α}
    (h : ∀ x ∈ xs, f x = g x) : xs.mapM f = xs.mapM g := by
  induction xs with
  | nil => rfl
  | cons x xs ih =>
    rw [List.mapM_cons, List.mapM_cons, h x List.mem_cons_self,
      ih fun y hy => h y (List.mem_cons_of_mem _ hy)]

theorem Expr.readWithin_eq_none {j : Json} (h : j.depth = 0) (levels : Nat) :
    Expr.readWithin levels j = none := by
  cases levels with
  | zero => rfl
  | succ => rw [Expr.readWithin, node?_eq_none_of_depth_eq_zero h]; rfl

theorem Property.readWithin_eq_none {j : Json} (h : j.depth = 0) (levels : Nat) :
    Property.readWithin levels j = none := by
  cases levels with
  | zero => rfl
  | succ => rw [Property.readWithin, node?_eq_none_of_depth_eq_zero h]; rfl

/-- Any two bounds that the value's depth does not exceed read the same. -/
theorem readWithin_agree (m : Nat) : ∀ (n : Nat) (j : Json), j.depth ≤ m → j.depth ≤ n →
    Expr.readWithin m j = Expr.readWithin n j ∧
      Property.readWithin m j = Property.readWithin n j := by
  induction m with
  | zero =>
    intro n j hm _
    have h : j.depth = 0 := by omega
    simp only [Expr.readWithin_eq_none h, Property.readWithin_eq_none h, and_self]
  | succ m ih =>
    intro n j hm hn
    cases n with
    | zero =>
      have h : j.depth = 0 := by omega
      simp only [Expr.readWithin_eq_none h, Property.readWithin_eq_none h, and_self]
    | succ n =>
      rw [Expr.readWithin, Expr.readWithin, Property.readWithin, Property.readWithin]
      cases hj : j.node? with
      | none => exact ⟨rfl, rfl⟩
      | some node =>
        obtain ⟨span, name, kind⟩ := node
        have hk := depth_lt_of_node? hj
        simp only [Option.bind_eq_bind, Option.bind_some]
        constructor
        · split
          · rfl
          · rename_i hnode
            cases hnode
            refine Option.bind_congr fun items hitems => ?_
            rw [mapM_congr_of_mem fun item hitem => ?_]
            have := depth_lt_of_mem_properties? hitems hitem
            exact (ih n item (by omega) (by omega)).2
          · rfl
        · split
          · rename_i hnode
            cases hnode
            refine Option.bind_congr fun parts hparts => ?_
            split
            · rename_i key value
              have hv : value ∈ [key, value] := by simp
              have := depth_lt_of_mem_named? hparts hv
              rw [(ih n value (by omega) (by omega)).1]
            · rfl
          · rfl
          · rename_i hnode
            cases hnode
            rw [(ih n kind (by omega) (by omega)).1]
          · rfl
          · rfl

/-- Every bound that the value's depth does not exceed reads the same as
`Expr.ofJson?`. -/
theorem Expr.readWithin_eq_ofJson? {j : Json} {levels : Nat} (h : j.depth ≤ levels) :
    Expr.readWithin levels j = Expr.ofJson? j :=
  (readWithin_agree levels j.depth j h (Nat.le_refl _)).1

theorem Property.readWithin_eq_ofJson? {j : Json} {levels : Nat} (h : j.depth ≤ levels) :
    Property.readWithin levels j = Property.ofJson? j :=
  (readWithin_agree levels j.depth j h (Nat.le_refl _)).2

end HotSwap
