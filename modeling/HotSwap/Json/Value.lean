/-
HotSwap.Json.Value — JSON values, and how records and variants are read
from them.

A record is an object whose keys are the record's fields, or an array of
the field values in order. Other keys of an object are ignored, and a
field that may be absent reads as null. A variant is a string, if it
carries nothing, or an object with the variant's name as its only key.
What it carries is one value, or fields of its own; those have no order
to be listed by, so they must be named by an object (`named?`).

All readers hand out parts of the value that was read, which are less deep
than it (`depth_lt_of_mem_record?`, `depth_le_of_variant?`): that is why
reading a tree ends.
-/

namespace HotSwap

/-- A JSON value. A number is an integer or the digits of one that is not. -/
inductive Json where
  | null
  | bool (b : Bool)
  | int (n : Int)
  | decimal (digits : String)
  | str (s : String)
  | arr (items : List Json)
  | obj (fields : List (String × Json))
  deriving Inhabited

namespace Json

/-! ## Depth -/

mutual
/-- How deep arrays and objects are nested in the value, itself counted. -/
def depth : Json → Nat
  | .null | .bool _ | .int _ | .decimal _ | .str _ => 0
  | .arr items => depthItems items + 1
  | .obj fields => depthFields fields + 1
/-- The depth of the deepest item. -/
def depthItems : List Json → Nat
  | [] => 0
  | item :: rest => max item.depth (depthItems rest)
/-- The depth of the deepest field. -/
def depthFields : List (String × Json) → Nat
  | [] => 0
  | (_, value) :: rest => max value.depth (depthFields rest)
end

theorem depth_le_depthItems {items : List Json} {j : Json} (h : j ∈ items) :
    j.depth ≤ depthItems items := by
  induction items with
  | nil => simp at h
  | cons i items ih =>
    rw [depthItems]
    rcases List.mem_cons.1 h with rfl | h
    · omega
    · have := ih h; omega

theorem depth_le_depthFields {fields : List (String × Json)} {key : String} {j : Json}
    (h : (key, j) ∈ fields) : j.depth ≤ depthFields fields := by
  induction fields with
  | nil => simp at h
  | cons f fields ih =>
    obtain ⟨k, v⟩ := f
    rw [depthFields]
    rcases List.mem_cons.1 h with h | h
    · cases h; omega
    · have := ih h; omega

/-! ## Records -/

/-- A field of a record. -/
structure RecordField where
  key : String
  /-- Whether an object may leave the field out. -/
  mayLack : Bool

/-- A field that must be there. -/
def RecordField.required (key : String) : RecordField := ⟨key, false⟩

/-- A field that an object may leave out. -/
def RecordField.optional (key : String) : RecordField := ⟨key, true⟩

/-- The value of a record's field in an object. -/
def field? (fields : List (String × Json)) (f : RecordField) : Option Json :=
  match fields.lookup f.key with
  | some value => some value
  | none => if f.mayLack then some .null else none

/-- The values of named fields, in the order of the shape, from an object. -/
def named? (shape : List RecordField) : Json → Option (List Json)
  | .obj fields => shape.mapM (field? fields)
  | _ => none

/-- The values of a record's fields, in the record's order, from an object
or an array. -/
def record? (shape : List RecordField) : Json → Option (List Json)
  | .arr items => if items.length = shape.length then some items else none
  | j => j.named? shape

theorem depth_le_of_field? {fields : List (String × Json)} {f : RecordField} {j : Json}
    (h : field? fields f = some j) : j.depth ≤ depthFields fields := by
  unfold field? at h
  split at h
  · rename_i hl
    cases h
    obtain ⟨before, after, hfields, -⟩ := List.lookup_eq_some_iff.1 hl
    rw [hfields]
    exact depth_le_depthFields List.mem_append_cons_self
  · split at h
    · cases h; simp [depth]
    · simp at h

/-- Named fields are less deep than the object that names them. -/
theorem depth_lt_of_mem_named? {shape : List RecordField} {j : Json} {parts : List Json}
    (h : j.named? shape = some parts) {part : Json} (hp : part ∈ parts) :
    part.depth < j.depth := by
  cases j with
  | obj fields =>
    simp only [named?] at h
    rw [depth, Nat.lt_succ_iff]
    induction shape generalizing parts with
    | nil => simp_all
    | cons f shape ih =>
      simp only [List.mapM_cons, Option.bind_eq_bind, Option.bind_eq_some_iff] at h
      obtain ⟨first, hfirst, rest, hrest, h⟩ := h
      cases h
      rcases List.mem_cons.1 hp with rfl | hp
      · exact depth_le_of_field? hfirst
      · exact ih hp hrest
  | _ => simp [named?] at h

/-- The parts of a record are less deep than the record. -/
theorem depth_lt_of_mem_record? {shape : List RecordField} {j : Json} {parts : List Json}
    (h : j.record? shape = some parts) {part : Json} (hp : part ∈ parts) :
    part.depth < j.depth := by
  unfold record? at h
  split at h
  · split at h
    · cases h
      rw [depth, Nat.lt_succ_iff]
      exact depth_le_depthItems hp
    · simp at h
  · exact depth_lt_of_mem_named? h hp

/-! ## Variants -/

/-- The name of a variant, and what it carries. -/
def variant? : Json → Option (String × Json)
  | .str name => some (name, .null)
  | .obj [(name, carried)] => some (name, carried)
  | _ => none

/-- What a variant carries is no deeper than the variant. -/
theorem depth_le_of_variant? {j carried : Json} {name : String}
    (h : j.variant? = some (name, carried)) : carried.depth ≤ j.depth := by
  unfold variant? at h
  split at h
  · cases h; simp [depth]
  · cases h; simp [depth, depthFields]
  · simp at h

/-! ## Plain values -/

/-- An unsigned 32-bit number, from an integer in its range. -/
def word? : Json → Option UInt32
  | .int (.ofNat n) => if n < UInt32.size then some (.ofNat n) else none
  | _ => none

/-- An unsigned 32-bit number, written as an integer. -/
def ofWord (n : UInt32) : Json := .int n.toNat

/-- The text of a string. -/
def str? : Json → Option String
  | .str s => some s
  | _ => none

/-- The items of an array. -/
def arr? : Json → Option (List Json)
  | .arr items => some items
  | _ => none

@[simp] theorem word?_ofWord (n : UInt32) : (ofWord n).word? = some n := by
  have h : n.toNat < UInt32.size := n.toNat_lt_size
  change (if n.toNat < UInt32.size then some (UInt32.ofNat n.toNat) else none) = some n
  rw [if_pos h, UInt32.ofNat_toNat]

end Json

end HotSwap
