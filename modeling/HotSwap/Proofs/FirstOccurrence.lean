/-
HotSwap.Proofs.FirstOccurrence — lists of class ids in the order of first
occurrence.

Ids are collected one at a time, each appended unless it is there already
(`View.pushNew`). Collecting a whole list appends the first occurrences of
the ids that were not there before (`foldl_pushNew`). The order of a
`ClassSet` and the users of a resource file are both built in this way.
-/
import HotSwap.ClassSet
import HotSwap.View

namespace HotSwap

open View (pushNew)

theorem pushNew_of_mem {ids : List ClassId} {id : ClassId} (h : id ∈ ids) :
    pushNew ids id = ids := by
  simp [pushNew, h]

theorem pushNew_of_not_mem {ids : List ClassId} {id : ClassId} (h : id ∉ ids) :
    pushNew ids id = ids ++ [id] := by
  simp [pushNew, h]

theorem pushNew_ne_nil (ids : List ClassId) (id : ClassId) : pushNew ids id ≠ [] := by
  by_cases h : id ∈ ids
  · rw [pushNew_of_mem h]
    exact List.ne_nil_of_mem h
  · simp [pushNew_of_not_mem h]

/-- Collecting `more` after `ids` appends the first occurrences of what is
not among `ids`. -/
theorem foldl_pushNew (ids more : List ClassId) :
    more.foldl pushNew ids = ids ++ (more.removeAll ids).eraseDups := by
  induction more generalizing ids with
  | nil => simp
  | cons id more ih =>
    rw [List.foldl_cons, ih, List.cons_removeAll]
    by_cases h : id ∈ ids
    · simp [pushNew_of_mem h, h]
    · have hfilter : more.removeAll (ids ++ [id]) =
          (more.removeAll ids).filter fun b => !b == id := by
        simp only [List.removeAll, List.filter_filter]
        apply List.filter_congr
        intro b _
        simp [Bool.and_comm]
        rfl
      rw [pushNew_of_not_mem h, if_pos (by simpa using h), List.eraseDups_cons, hfilter,
        List.append_assoc, List.singleton_append]

theorem removeAll_eq_filter (ids old : List ClassId) :
    ids.removeAll old = ids.filter fun id => id ∉ old := by
  rw [List.removeAll]
  refine List.filter_congr fun id _ => ?_
  by_cases h : id ∈ old <;> simp [h]

theorem removeAll_eraseDups (ids old : List ClassId) :
    ids.removeAll old.eraseDups = ids.removeAll old := by
  simp only [removeAll_eq_filter, List.mem_eraseDups]

/-! ## Sets of ids -/

namespace ClassSet

theorem toList_insert_eq_pushNew (s : ClassSet) (id : ClassId) :
    (s.insert id).toList = pushNew s.toList id := by
  rw [toList_insert, pushNew]
  by_cases h : id ∈ s.toList
  · rw [if_pos h, if_pos ((s.contains_iff id).2 h)]
  · rw [if_neg h, if_neg (fun hc => h ((s.contains_iff id).1 hc))]

theorem toList_insertMany (s : ClassSet) (ids : List ClassId) :
    (s.insertMany ids).toList = s.toList ++ (ids.removeAll s.toList).eraseDups := by
  have hfold : (s.insertMany ids).toList = ids.foldl pushNew s.toList := by
    induction ids generalizing s with
    | nil => rfl
    | cons id ids ih =>
      rw [insertMany, List.foldl_cons, ← insertMany, ih, toList_insert_eq_pushNew,
        List.foldl_cons]
  rw [hfold, foldl_pushNew]

/-- The set of a list has the first occurrences of the list as its order. -/
theorem toList_ofList (ids : List ClassId) : (ofList ids).toList = ids.eraseDups := by
  rw [ofList, toList_insertMany, toList_empty, List.nil_append, List.removeAll_nil]

/-- What is added to the set of a list comes behind the list. -/
theorem toList_insertMany_of_eraseDups {s : ClassSet} {ids : List ClassId}
    (h : s.toList = ids.eraseDups) (more : List ClassId) :
    (s.insertMany more).toList = (ids ++ more).eraseDups := by
  rw [toList_insertMany, h, removeAll_eraseDups, List.eraseDups_append]

theorem insertMany_append (s : ClassSet) (xs ys : List ClassId) :
    s.insertMany (xs ++ ys) = (s.insertMany xs).insertMany ys :=
  List.foldl_append

end ClassSet

/-! ## Users of a resource -/

namespace View

theorem resourceUsers_eq (v : View) (path : String) :
    v.resourceUsers path = v.templateUsers path ++
      ((v.styleUsers path).removeAll (v.templateUsers path)).eraseDups :=
  foldl_pushNew _ _

theorem mem_resourceUsers (v : View) (path : String) (id : ClassId) :
    id ∈ v.resourceUsers path ↔ id ∈ v.templateUsers path ∨ id ∈ v.styleUsers path := by
  rw [resourceUsers_eq, List.mem_append, List.mem_eraseDups, List.removeAll, List.mem_filter]
  by_cases h : id ∈ v.templateUsers path <;> simp [h]

/-- No class uses the file as a resource. -/
def Unused (v : View) (path : String) : Prop :=
  v.templateUsers path = [] ∧ v.styleUsers path = []

theorem resourceUsers_eq_nil_iff (v : View) (path : String) :
    v.resourceUsers path = [] ↔ v.Unused path := by
  simp only [Unused, List.eq_nil_iff_forall_not_mem, mem_resourceUsers, not_or]
  exact forall_and

end View

end HotSwap
