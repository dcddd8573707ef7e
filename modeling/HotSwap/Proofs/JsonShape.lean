/-
HotSwap.Proofs.JsonShape — the shapes of the JSON forms as data, and what
reading makes of a value of a known shape.

A shape says of which arrays and objects a form consists and which keys
its objects have. What stands where no array and no object is, a number, a
text or the name of a variant, is for reading to judge. Two questions are
answered by it: whether a value is laid out in this way (`Shape.fits`), as
records also read from arrays, and variants that carry nothing from
objects; and what is left of a value without the keys that nobody knows
(`Shape.tidy`).

A form loses nothing (`Json.RoundTrips`) if what is written is of the
shape and is read as it was, and if a value of the shape that can be read
is written as the tidy value. Lists, optional values and records of two
parts lose nothing if their parts do not. For other records and for
variants, `Shape.fits_obj` and `Shape.fits_carrying` say what has the
shape, and `Shape.tidy_of_record?` and `Shape.tidy_of_carrying` what is
left of a value that was read.
-/
import Mathlib.Data.List.Forall2
import HotSwap.Json.Source

namespace HotSwap

namespace Json

/-- How a JSON form is laid out. -/
inductive Shape where
  /-- Neither an array nor an object. -/
  | scalar
  | list (item : Shape)
  /-- Null or a value. As a field of a record it may be left out. -/
  | optional (value : Shape)
  | record (parts : List (String × Shape))
  /-- A name, or what a name carries under that name. -/
  | variant (carrying : List (String × Shape))
  /-- An expression (`Expr.shape`). -/
  | expr
  /-- A property of an object literal (`Property.shape`). -/
  | property
  deriving Inhabited

end Json

open Json

/-! ## The shapes -/

def Span.shape : Shape := .record [("start", .scalar), ("end", .scalar)]

def Name.shape : Shape := .record [("text", .scalar), ("span", Span.shape)]

def Key.shape : Shape :=
  .variant [("Identifier", Name.shape), ("StringLiteral", Name.shape),
    ("NumericLiteral", Name.shape), ("Computed", Span.shape)]

/-- A node: its span and its kind. -/
def Json.Shape.node (kind : Shape) : Shape := .record [("span", Span.shape), ("kind", kind)]

def Expr.shape : Shape :=
  .node (.variant [("ObjectLiteral", .record [("properties", .list .property)])])

def Property.shape : Shape :=
  .node (.variant [
    ("Assignment", .record [("name", Key.shape), ("initializer", .expr)]),
    ("Shorthand", Name.shape), ("Spread", .expr),
    ("Method", .record [("name", Key.shape)])])

def Modifier.shape : Shape := .record [("kind", .scalar), ("span", Span.shape)]

def Delimited.shape (item : Shape) : Shape :=
  .record [("span", Span.shape), ("items", .list item)]

def HeritageClause.shape : Shape := .record [("kind", .scalar), ("span", Span.shape)]

def Call.shape : Shape :=
  .record [("span", Span.shape), ("callee", Span.shape), ("arguments", Delimited.shape .expr)]

def Decorator.shape : Shape :=
  .record [("span", Span.shape),
    ("expression", .variant [("Call", Call.shape), ("Other", Span.shape)])]

def Class.shape : Shape :=
  .record [("id", .scalar), ("span", Span.shape), ("name", .optional Name.shape),
    ("decorators", .list Decorator.shape), ("modifiers", .list Modifier.shape),
    ("type_params", .optional (Delimited.shape Span.shape)),
    ("heritage_clauses", .optional (Delimited.shape HeritageClause.shape)),
    ("members", Delimited.shape Span.shape)]

def Statement.shape : Shape := .node (.variant [("Class", Class.shape)])

def Source.shape : Shape :=
  .record [("path", .scalar), ("text", .scalar), ("statements", .list Statement.shape)]

namespace Json.Shape

/-- The arrays and objects behind a shape: what a name stands for, or what
is there when something is. -/
def expand : Shape → Shape
  | .expr => Expr.shape
  | .property => Property.shape
  | .optional value => value.expand
  | shape => shape

/-- Whether a record may leave out a field of the shape. -/
def isOptional : Shape → Bool
  | .optional _ => true
  | _ => false

/-! ## Values of a shape -/

mutual
/-- The value has the arrays and objects that the shape says. An object in
place of a variant has the name of one that carries something. -/
def fits (shape : Shape) : Json → Bool
  | .arr items =>
    match shape.expand with
    | .list item => fitsItems item items
    | _ => false
  | .obj fields =>
    match shape.expand with
    | .record parts => fitsFields parts fields
    | .variant carrying => fitsCarried carrying fields
    | _ => false
  | _ => true
def fitsItems (shape : Shape) : List Json → Bool
  | [] => true
  | item :: rest => shape.fits item && fitsItems shape rest
/-- All fields whose keys are known have their shape. -/
def fitsFields (parts : List (String × Shape)) : List (String × Json) → Bool
  | [] => true
  | (key, value) :: rest =>
    (match parts.lookup key with
      | some shape => shape.fits value
      | none => true) && fitsFields parts rest
/-- There is one field, and its key is known. -/
def fitsCarried (carrying : List (String × Shape)) : List (String × Json) → Bool
  | [(name, carried)] =>
    match carrying.lookup name with
    | some shape => shape.fits carried
    | none => false
  | _ => false
end

/-! ## Tidy values -/

/-- A part of a record from the fields of an object. A part that is left
out is null if it may be left out. -/
def part? (fields : List (String × Json)) (part : String × Shape) : Option (String × Json) :=
  match fields.lookup part.1 with
  | some value => some (part.1, value)
  | none => if part.2.isOptional then some (part.1, .null) else none

mutual
/-- The value without the keys that its records do not know, and with null
for the parts that they may leave out. The keys of a record come in the
order of the shape. -/
def tidy (shape : Shape) : Json → Json
  | .arr items =>
    match shape.expand with
    | .list item => .arr (tidyItems item items)
    | _ => .arr items
  | .obj fields =>
    match shape.expand with
    | .record parts => .obj (parts.filterMap (part? (tidyFields parts fields)))
    | .variant carrying => .obj (tidyFields carrying fields)
    | _ => .obj fields
  | j => j
def tidyItems (shape : Shape) : List Json → List Json
  | [] => []
  | item :: rest => shape.tidy item :: tidyItems shape rest
/-- The fields whose keys are known, each made tidy. -/
def tidyFields (parts : List (String × Shape)) : List (String × Json) → List (String × Json)
  | [] => []
  | (key, value) :: rest =>
    match parts.lookup key with
    | some shape => (key, shape.tidy value) :: tidyFields parts rest
    | none => tidyFields parts rest
end

example : Span.shape.tidy (.obj [("end", .int 4), ("line", .int 1), ("start", .int 2)]) =
    .obj [("start", .int 2), ("end", .int 4)] := by
  rfl

theorem tidyItems_eq_map (shape : Shape) (items : List Json) :
    shape.tidyItems items = items.map shape.tidy := by
  induction items with
  | nil => simp [tidyItems]
  | cons item items ih => simp [tidyItems, ih]

theorem fitsItems_eq_true_iff (shape : Shape) (items : List Json) :
    shape.fitsItems items = true ↔ ∀ item ∈ items, shape.fits item = true := by
  induction items with
  | nil => simp [fitsItems]
  | cons item items ih => simp [fitsItems, ih]

/-- Only the arrays and objects behind a shape matter to it. -/
theorem fits_congr {s t : Shape} (h : s.expand = t.expand) (j : Json) : s.fits j = t.fits j := by
  cases j <;> simp [fits, h]

theorem tidy_congr {s t : Shape} (h : s.expand = t.expand) (j : Json) : s.tidy j = t.tidy j := by
  cases j <;> simp [tidy, h]

@[simp] theorem fits_optional (value : Shape) (j : Json) :
    (Shape.optional value).fits j = value.fits j := fits_congr (by rfl) j

@[simp] theorem tidy_optional (value : Shape) (j : Json) :
    (Shape.optional value).tidy j = value.tidy j := tidy_congr (by rfl) j

@[simp] theorem fits_expr (j : Json) : Shape.expr.fits j = Expr.shape.fits j := fits_congr (by rfl) j

@[simp] theorem tidy_expr (j : Json) : Shape.expr.tidy j = Expr.shape.tidy j := tidy_congr (by rfl) j

@[simp] theorem fits_property (j : Json) : Shape.property.fits j = Property.shape.fits j :=
  fits_congr (by rfl) j

@[simp] theorem tidy_property (j : Json) : Shape.property.tidy j = Property.shape.tidy j :=
  tidy_congr (by rfl) j

@[simp] theorem tidy_scalar (j : Json) : Shape.scalar.tidy j = j := by
  cases j <;> simp [tidy, expand]

end Shape

/-! ## Objects with distinct keys -/

theorem lookup_eq_some_of_mem {β : Type} {fields : List (String × β)} {key : String} {value : β}
    (hnodup : (fields.map (·.1)).Nodup) (hmem : (key, value) ∈ fields) :
    fields.lookup key = some value := by
  obtain ⟨before, after, rfl⟩ := List.append_of_mem hmem
  rw [List.lookup_eq_some_iff]
  refine ⟨before, after, rfl, ?_⟩
  intro field hfield
  rw [List.map_append, List.nodup_append] at hnodup
  obtain ⟨-, -, hdistinct⟩ := hnodup
  have hne : field.1 ≠ key := hdistinct _ (List.mem_map_of_mem hfield) _ List.mem_cons_self
  exact bne_iff_ne.2 hne.symm

/-- Fields are read as their values if their keys are looked up as such. -/
theorem mapM_field? {shape : List RecordField} {fields part : List (String × Json)}
    (hkeys : part.map (·.1) = shape.map (·.key))
    (hvalues : ∀ field ∈ part, fields.lookup field.1 = some field.2) :
    shape.mapM (field? fields) = some (part.map (·.2)) := by
  induction part generalizing shape with
  | nil =>
    rw [List.map_eq_nil_iff.1 hkeys.symm]
    rfl
  | cons field part ih =>
    obtain ⟨first, shape, rfl, hfirst, hshape⟩ := List.map_eq_cons_iff.1 hkeys.symm
    have hrest := ih hshape.symm fun f hf => hvalues f (by simp [hf])
    simp [field?, hfirst, hvalues field (by simp), hrest]

/-- An object with the keys of a record is read as the values of its
fields. -/
theorem named?_obj {shape : List RecordField} {fields : List (String × Json)}
    (hkeys : fields.map (·.1) = shape.map (·.key)) (hnodup : (fields.map (·.1)).Nodup) :
    (Json.obj fields).named? shape = some (fields.map (·.2)) :=
  mapM_field? hkeys fun _ hfield => lookup_eq_some_of_mem hnodup hfield

theorem record?_obj {shape : List RecordField} {fields : List (String × Json)}
    (hkeys : fields.map (·.1) = shape.map (·.key)) (hnodup : (fields.map (·.1)).Nodup) :
    (Json.obj fields).record? shape = some (fields.map (·.2)) :=
  named?_obj hkeys hnodup

theorem ne_null_of_read {α : Type} {read : Json → Option α} {j : Json} {a : α}
    (hread : read j = some a) (hnull : read .null = none) : j ≠ .null := by
  intro hj
  rw [hj, hnull] at hread
  simp at hread

/-- What an object names is also read from it as a record. -/
theorem record?_of_named? {shape : List RecordField} {j : Json} {values : List Json}
    (h : j.named? shape = some values) : j.record? shape = some values := by
  cases j with
  | obj fields => exact h
  | _ => simp [named?] at h

namespace Shape

variable {parts carrying : List (String × Shape)} {fields : List (String × Json)} {j : Json}

/-- Fields fit if they are some of the parts, each of its shape. -/
theorem fitsFields_of_forall₂ {chosen : List (String × Shape)}
    (hchosen : ∀ part ∈ chosen, parts.lookup part.1 = some part.2)
    (hfields : List.Forall₂ (fun part field => field.1 = part.1 ∧ part.2.fits field.2 = true)
      chosen fields) :
    fitsFields parts fields = true := by
  induction hfields with
  | nil => simp [fitsFields]
  | cons hfield _ ih =>
    rw [fitsFields, hfield.1, hchosen _ (by simp)]
    simp [hfield.2, ih fun part hpart => hchosen part (by simp [hpart])]

/-- An object with the parts of a record, each of its shape. -/
theorem fits_obj (hnodup : (parts.map (·.1)).Nodup)
    (hfields : List.Forall₂ (fun part field => field.1 = part.1 ∧ part.2.fits field.2 = true)
      parts fields) :
    (Shape.record parts).fits (.obj fields) = true := by
  simp only [fits, expand]
  exact fitsFields_of_forall₂ (fun part hpart => lookup_eq_some_of_mem hnodup hpart) hfields

/-- An object with the name of a variant, and what it carries. -/
theorem fits_carrying {name : String} {carried : Json} {shape : Shape}
    (hname : carrying.lookup name = some shape) (hcarried : shape.fits carried = true) :
    (Shape.variant carrying).fits (.obj [(name, carried)]) = true := by
  simp [fits, expand, fitsCarried, hname, hcarried]

/-! ## Reading values of a shape -/

theorem lookup_tidyFields {key : String} {shape : Shape} (hkey : parts.lookup key = some shape)
    (fields : List (String × Json)) :
    (tidyFields parts fields).lookup key = (fields.lookup key).map shape.tidy := by
  induction fields with
  | nil => simp [tidyFields]
  | cons field fields ih =>
    obtain ⟨k, v⟩ := field
    rw [tidyFields]
    by_cases hk : key = k
    · subst hk
      simp [hkey]
    · cases hknown : parts.lookup k <;> simp [List.lookup_cons, beq_false_of_ne hk, ih]

theorem fits_of_lookup {key : String} {shape : Shape} {value : Json}
    (hfits : fitsFields parts fields = true) (hkey : parts.lookup key = some shape)
    (hvalue : fields.lookup key = some value) : shape.fits value = true := by
  induction fields with
  | nil => simp at hvalue
  | cons field fields ih =>
    obtain ⟨k, v⟩ := field
    rw [fitsFields, Bool.and_eq_true] at hfits
    by_cases hk : key = k
    · subst hk
      rw [List.lookup_cons_self, Option.some.injEq] at hvalue
      simpa [hkey, hvalue] using hfits.1
    · rw [List.lookup_cons, beq_false_of_ne hk] at hvalue
      exact ih hfits.2 hvalue

/-- The field that is read for a part of a record. -/
def fieldOf (part : String × Shape) : RecordField := ⟨part.1, part.2.isOptional⟩

/-- What is read for a part has the part's shape, and it is left of the
record, tidy, under the part's key. -/
theorem part?_of_field? {part : String × Shape} {value : Json}
    (hfits : fitsFields parts fields = true) (hpart : parts.lookup part.1 = some part.2)
    (hread : field? fields (fieldOf part) = some value) :
    part.2.fits value = true ∧
      part? (tidyFields parts fields) part = some (part.1, part.2.tidy value) := by
  unfold part?
  rw [lookup_tidyFields hpart]
  unfold field? fieldOf at hread
  cases hlookup : fields.lookup part.1 with
  | some found =>
    simp only [hlookup, Option.some.injEq] at hread
    subst hread
    exact ⟨fits_of_lookup hfits hpart hlookup, rfl⟩
  | none =>
    simp only [hlookup, Option.ite_none_right_eq_some, Option.some.injEq] at hread
    obtain ⟨hoptional, rfl⟩ := hread
    simp [hoptional, fits, tidy]

/-- What is read for some of the parts has their shapes, and it is left of
the record, tidy, in the order of the parts. -/
theorem filterMap_part? {chosen : List (String × Shape)} {values : List Json}
    (hfits : fitsFields parts fields = true)
    (hparts : ∀ part ∈ chosen, parts.lookup part.1 = some part.2)
    (hread : (chosen.map fieldOf).mapM (field? fields) = some values) :
    List.Forall₂ (fun part value => part.2.fits value = true) chosen values ∧
      chosen.filterMap (part? (tidyFields parts fields)) =
        List.zipWith (fun part value => (part.1, part.2.tidy value)) chosen values := by
  induction chosen generalizing values with
  | nil =>
    simp at hread
    simp [hread]
  | cons part chosen ih =>
    simp only [List.map_cons, List.mapM_cons, Option.bind_eq_bind, Option.bind_eq_some_iff,
      Option.pure_def, Option.some.injEq] at hread
    obtain ⟨value, hvalue, rest, hrest, rfl⟩ := hread
    obtain ⟨hvalueFits, hvalueLeft⟩ := part?_of_field? hfits (hparts part (by simp)) hvalue
    obtain ⟨hrestFit, hrestLeft⟩ := ih (fun p hp => hparts p (by simp [hp])) hrest
    exact ⟨.cons hvalueFits hrestFit, by simp [hvalueLeft, hrestLeft]⟩

/-- A record that can be read is left, tidy, with all its parts. -/
theorem tidy_of_record? {values : List Json} (hnodup : (parts.map (·.1)).Nodup)
    (hfits : (Shape.record parts).fits j = true)
    (hread : j.record? (parts.map fieldOf) = some values) :
    List.Forall₂ (fun part value => part.2.fits value = true) parts values ∧
      (Shape.record parts).tidy j =
        .obj (List.zipWith (fun part value => (part.1, part.2.tidy value)) parts values) := by
  cases j with
  | obj fields =>
    simp only [fits, expand] at hfits
    simp only [tidy, expand, Json.obj.injEq]
    exact filterMap_part? hfits (fun part hpart => lookup_eq_some_of_mem hnodup hpart) hread
  | arr items => simp [fits, expand] at hfits
  | _ => simp [record?, named?] at hread

/-- A variant that carries nothing is left as its name. -/
theorem tidy_of_bare {name : String} (hfits : (Shape.variant carrying).fits j = true)
    (hread : j.variant? = some (name, .null)) (hname : carrying.lookup name = none) :
    (Shape.variant carrying).tidy j = .str name := by
  unfold variant? at hread
  split at hread
  · cases hread
    simp [tidy]
  · cases hread
    simp [fits, expand, fitsCarried, hname] at hfits
  · simp at hread

/-- A variant that carries something is left with that, tidy. -/
theorem tidy_of_carrying {name : String} {carried : Json} {shape : Shape}
    (hfits : (Shape.variant carrying).fits j = true)
    (hread : j.variant? = some (name, carried)) (hname : carrying.lookup name = some shape)
    (hcarried : carried ≠ .null) :
    shape.fits carried = true ∧
      (Shape.variant carrying).tidy j = .obj [(name, shape.tidy carried)] := by
  unfold variant? at hread
  split at hread
  · cases hread
    exact absurd rfl hcarried
  · cases hread
    simp only [fits, expand, fitsCarried, hname] at hfits
    exact ⟨hfits, by simp [tidy, expand, tidyFields, hname]⟩
  · simp at hread

end Shape

/-! ## Forms that go to JSON and back -/

variable {α β γ : Type}

/-- A form loses nothing. What is written is of the shape and is read as it
was, and a JSON value of the shape, if it can be read, is written as the
tidy value. -/
structure RoundTrips (shape : Shape) (read : Json → Option α) (write : α → Json) : Prop where
  fits_write : ∀ a, shape.fits (write a) = true
  read_write : ∀ a, read (write a) = some a
  write_read : ∀ {j a}, shape.fits j = true → read j = some a → write a = shape.tidy j

/-- Items that are read one by one are written as the tidy items. -/
theorem map_write_of_mapM {shape : Shape} {read : Json → Option α} {write : α → Json}
    {items : List Json} {xs : List α} (hread : items.mapM read = some xs)
    (hwrite : ∀ item ∈ items, ∀ x, read item = some x → write x = shape.tidy item) :
    xs.map write = items.map shape.tidy := by
  induction items generalizing xs with
  | nil =>
    simp at hread
    simp [hread]
  | cons item items ih =>
    simp only [List.mapM_cons, Option.bind_eq_bind, Option.bind_eq_some_iff, Option.pure_def,
      Option.some.injEq] at hread
    obtain ⟨x, hx, rest, hrest, rfl⟩ := hread
    rw [List.map_cons, List.map_cons, hwrite item (by simp) x hx,
      ih hrest fun i hi => hwrite i (by simp [hi])]

namespace RoundTrips

variable {shape : Shape} {read : Json → Option α} {write : α → Json}

/-- What is written is tidy. -/
theorem tidy_write (h : RoundTrips shape read write) (a : α) : shape.tidy (write a) = write a :=
  (h.write_read (h.fits_write a) (h.read_write a)).symm

theorem mapM_map (h : RoundTrips shape read write) (xs : List α) :
    (xs.map write).mapM read = some xs := by
  induction xs with
  | nil => rfl
  | cons x xs ih => simp [h.read_write x, ih]

theorem list (h : RoundTrips shape read write) :
    RoundTrips (.list shape) (list? read) fun xs => .arr (xs.map write) where
  fits_write xs := by
    simp [Shape.fits, Shape.expand, Shape.fitsItems_eq_true_iff, h.fits_write]
  read_write := h.mapM_map
  write_read := by
    intro j xs hfits hread
    simp only [list?, Option.bind_eq_bind, Option.bind_eq_some_iff] at hread
    obtain ⟨items, hitems, hread⟩ := hread
    cases j <;> simp only [arr?, reduceCtorEq, Option.some.injEq] at hitems
    subst hitems
    simp only [Shape.fits, Shape.expand, Shape.fitsItems_eq_true_iff] at hfits
    simp only [Shape.tidy, Shape.expand, Shape.tidyItems_eq_map, Json.arr.injEq]
    exact map_write_of_mapM hread fun item hitem x hx => h.write_read (hfits item hitem) hx

/-- Null stands for nothing, so it must not stand for something too. -/
theorem option (h : RoundTrips shape read write) (hnull : read .null = none) :
    RoundTrips (.optional shape) (option? read) (ofOption write) where
  fits_write := by
    intro o
    cases o with
    | none => simp [ofOption, Shape.fits]
    | some a => simp [ofOption, h.fits_write]
  read_write := by
    intro o
    cases o with
    | none => rfl
    | some a =>
      have ha := h.read_write a
      unfold ofOption option?
      split
      · simp_all
      · simp [ha]
  write_read := by
    intro j o hfits hread
    unfold option? at hread
    split at hread
    · cases hread
      simp [ofOption, Shape.tidy]
    · simp only [Option.map_eq_map, Option.map_eq_some_iff] at hread
      obtain ⟨a, ha, rfl⟩ := hread
      rw [Shape.fits_optional] at hfits
      rw [Shape.tidy_optional]
      exact h.write_read hfits ha

/-- A record of two parts. -/
theorem pair {first second : Shape} {key₁ key₂ : String} {read₁ : Json → Option α}
    {write₁ : α → Json} {read₂ : Json → Option β} {write₂ : β → Json} {make : α → β → γ}
    {part₁ : γ → α} {part₂ : γ → β} (h₁ : RoundTrips first read₁ write₁)
    (h₂ : RoundTrips second read₂ write₂) (hkeys : key₁ ≠ key₂)
    (hfirst : first.isOptional = false) (hsecond : second.isOptional = false)
    (hmake : ∀ c, make (part₁ c) (part₂ c) = c)
    (hparts : ∀ a b, part₁ (make a b) = a ∧ part₂ (make a b) = b) :
    RoundTrips (.record [(key₁, first), (key₂, second)])
      (fun j => do
        let [a, b] ← j.record? [.required key₁, .required key₂] | none
        return make (← read₁ a) (← read₂ b))
      fun c => .obj [(key₁, write₁ (part₁ c)), (key₂, write₂ (part₂ c))] where
  fits_write := by
    intro c
    refine Shape.fits_obj (by simp [hkeys]) ?_
    simp [h₁.fits_write, h₂.fits_write]
  read_write := by
    intro c
    rw [record?_obj (by rfl) (by simp [hkeys])]
    simp [h₁.read_write, h₂.read_write, hmake]
  write_read := by
    intro j c hfits hread
    simp only [Option.bind_eq_bind, Option.bind_eq_some_iff] at hread
    obtain ⟨values, hvalues, hread⟩ := hread
    obtain ⟨hfit, htidy⟩ := Shape.tidy_of_record? (by simp [hkeys]) hfits
      (by simpa [Shape.fieldOf, RecordField.required, hfirst, hsecond] using hvalues)
    obtain _ | ⟨hfit₁, _ | ⟨hfit₂, ⟨⟩⟩⟩ := hfit
    simp only [Option.bind_eq_some_iff, Option.pure_def, Option.some.injEq] at hread
    obtain ⟨a, ha, b, hb, rfl⟩ := hread
    rw [htidy, (hparts a b).1, (hparts a b).2, h₁.write_read hfit₁ ha, h₂.write_read hfit₂ hb]
    rfl

/-- What a variant carries, written under the variant's name. -/
theorem write_variant {carrying : List (String × Shape)} {name : String} {j carried : Json} {a : α}
    (h : RoundTrips shape read write) (hname : carrying.lookup name = some shape)
    (hnull : read .null = none) (hfits : (Shape.variant carrying).fits j = true)
    (hvariant : j.variant? = some (name, carried)) (hread : read carried = some a) :
    .obj [(name, write a)] = (Shape.variant carrying).tidy j := by
  obtain ⟨hcarriedFits, htidy⟩ :=
    Shape.tidy_of_carrying hfits hvariant hname (ne_null_of_read hread hnull)
  rw [htidy, h.write_read hcarriedFits hread]

end RoundTrips
end Json
end HotSwap
