/-
HotSwap.ClassSet — sets of class ids that remember the order in which
their members first came in.

The order is an array without repetitions and membership is answered by a
search tree. The two always agree: a `ClassSet` carries the proof. Equality
(`ClassSet.same`) asks for the same members and ignores their order.
-/
import Std.Data.TreeSet
import HotSwap.Tree.Class

namespace HotSwap

/-- A set of class ids in the order of first insertion. -/
structure ClassSet where
  order : Array ClassId
  members : Std.TreeSet ClassId
  nodup : order.toList.Nodup
  mem_iff : ∀ id, members.contains id = true ↔ id ∈ order.toList

namespace ClassSet

/-- The set without members. -/
def empty : ClassSet := ⟨#[], ∅, by simp, by simp⟩

instance : EmptyCollection ClassSet := ⟨empty⟩

instance : Inhabited ClassSet := ⟨empty⟩

/-- Whether an id is in the set. -/
def contains (s : ClassSet) (id : ClassId) : Bool := s.members.contains id

/-- The members in the order of first insertion. -/
def toList (s : ClassSet) : List ClassId := s.order.toList

/-- The number of members. -/
def size (s : ClassSet) : Nat := s.order.size

/-- The set has no members. -/
def isEmpty (s : ClassSet) : Bool := s.order.isEmpty

/-- The members in ascending order. -/
def sorted (s : ClassSet) : List ClassId := s.members.toList

/-- The set with one id more. An id that is in the set keeps its place. -/
def insert (s : ClassSet) (id : ClassId) : ClassSet :=
  if h : s.contains id then s
  else
    { order := s.order.push id
      members := s.members.insert id
      nodup := by
        have hid : id ∉ s.order.toList := fun hm => h ((s.mem_iff id).2 hm)
        rw [Array.toList_push, List.nodup_append]
        refine ⟨s.nodup, by simp, fun a ha b hb => ?_⟩
        rw [List.mem_singleton.1 hb]
        rintro rfl
        exact hid ha
      mem_iff := fun j => by
        have := s.mem_iff j
        simp only [Std.TreeSet.contains_insert, Bool.or_eq_true, beq_iff_eq, this,
          Array.toList_push, List.mem_append, List.mem_singleton,
          Std.LawfulEqCmp.compare_eq_iff_eq]
        exact ⟨fun h => h.symm.imp_right Eq.symm, fun h => (h.imp_right Eq.symm).symm⟩ }

/-- Insert an id, and tell whether it is new to the set. -/
def insertNew (s : ClassSet) (id : ClassId) : Bool × ClassSet :=
  (!s.contains id, s.insert id)

/-- The set with all ids of a list added, from the first to the last. -/
def insertMany (s : ClassSet) (ids : List ClassId) : ClassSet := ids.foldl insert s

/-- The set of a list's ids, in the order of their first occurrences. -/
def ofList (ids : List ClassId) : ClassSet := empty.insertMany ids

/-- The two sets have the same members. -/
def same (s t : ClassSet) : Bool := s.sorted = t.sorted

/-! ## Histories -/

/-- One change to a set. -/
inductive Edit where
  | insert (id : ClassId)
  | extend (ids : List ClassId)
  | clear
  /-- Forget the members and collect these ids instead. -/
  | collect (ids : List ClassId)

/-- The set after a change. An insertion answers whether the id is new to
the set. -/
def step (s : ClassSet) : Edit → Option Bool × ClassSet
  | .insert id =>
    let (isNew, s) := s.insertNew id
    (some isNew, s)
  | .extend ids => (none, s.insertMany ids)
  | .clear => (none, ∅)
  | .collect ids => (none, ofList ids)

/-- The set after a history of changes. -/
def run (s : ClassSet) (edits : List Edit) : ClassSet :=
  edits.foldl (fun s edit => (s.step edit).2) s

/-! ## What is in a set -/

theorem contains_iff (s : ClassSet) (id : ClassId) : s.contains id = true ↔ id ∈ s.toList :=
  s.mem_iff id

@[simp] theorem toList_empty : empty.toList = [] := rfl

theorem toList_insert (s : ClassSet) (id : ClassId) :
    (s.insert id).toList = if s.contains id then s.toList else s.toList ++ [id] := by
  unfold insert
  split <;> simp [toList]

@[simp] theorem contains_empty (id : ClassId) : empty.contains id = false := by
  simp [contains, empty]

/-- Inserting an id adds that id and no other. -/
theorem contains_insert (s : ClassSet) (a b : ClassId) :
    (s.insert a).contains b = (s.contains b || decide (b = a)) := by
  rw [Bool.eq_iff_iff, contains_iff, toList_insert, Bool.or_eq_true, decide_eq_true_iff,
    contains_iff s b]
  split
  · rename_i h
    rw [contains_iff] at h
    exact ⟨.inl, fun hb => hb.elim id fun hb => hb ▸ h⟩
  · rw [List.mem_append, List.mem_singleton]

theorem contains_insertMany (s : ClassSet) (ids : List ClassId) (b : ClassId) :
    (s.insertMany ids).contains b = (s.contains b || decide (b ∈ ids)) := by
  induction ids generalizing s with
  | nil => simp [insertMany]
  | cons a ids ih =>
    rw [insertMany, List.foldl_cons, ← insertMany, ih, contains_insert, Bool.or_assoc]
    by_cases h : b = a <;> simp [h]

/-- The set of a list holds exactly the ids of the list. -/
@[simp] theorem contains_ofList (ids : List ClassId) (b : ClassId) :
    (ofList ids).contains b = decide (b ∈ ids) := by
  rw [ofList, contains_insertMany, contains_empty, Bool.false_or]

/-- Equal sets answer every question of membership alike. -/
theorem same_iff (s t : ClassSet) :
    s.same t = true ↔ ∀ id, s.contains id = t.contains id := by
  rw [same, decide_eq_true_iff, sorted, sorted, ← Std.TreeSet.equiv_iff_toList_eq]
  constructor
  · intro h id
    exact h.contains_eq
  · intro h
    exact Std.TreeSet.Equiv.of_forall_contains_eq h

theorem insert_of_contains {s : ClassSet} {id : ClassId} (h : s.contains id = true) :
    s.insert id = s := by
  unfold insert
  simp [h]

theorem size_eq (s : ClassSet) : s.size = s.toList.length := rfl

end ClassSet

end HotSwap
