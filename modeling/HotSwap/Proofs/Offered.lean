/-
HotSwap.Proofs.Offered — what a set of ids holds after a history of
changes, and when two sets are equal.

Of a history, only the ids matter that were offered since the set was last
emptied or collected anew (`ClassSet.offered`). The order of the set is
their first occurrences (`toList_run`), and all questions to the set are
answered from it. Equality is asked of the members alone. As the order has
no repetitions, it amounts to the orders being permutations of each other
(`same_iff_perm`), to the sorted orders being equal
(`same_iff_mergeSort_eq`), and to the comparison that counts the members
and looks up those of one set in the other (`same_iff_size_and_subset`).
-/
import Mathlib.Data.List.Perm.Subperm
import Mathlib.Logic.Relation
import HotSwap.Proofs.BatchUnion

namespace HotSwap

namespace ClassSet

/-! ## What a history offers -/

/-- The ids that a change offers to the set. -/
def Edit.ids : Edit → List ClassId
  | .insert id => [id]
  | .extend ids | .collect ids => ids
  | .clear => []

/-- The change forgets what was offered before it. -/
def Edit.resets : Edit → Bool
  | .clear | .collect _ => true
  | .insert _ | .extend _ => false

/-- The ids that were offered since the set was last emptied or collected
anew. What a change offers counts unless a later change resets the set. -/
def offered : List Edit → List ClassId
  | [] => []
  | edit :: later => if later.any (·.resets) then offered later else edit.ids ++ offered later

theorem offered_append_singleton (edits : List Edit) (edit : Edit) :
    offered (edits ++ [edit]) = if edit.resets then edit.ids else offered edits ++ edit.ids := by
  induction edits with
  | nil => cases edit <;> simp [offered, Edit.resets]
  | cons first edits ih =>
    rw [List.cons_append, offered, ih, offered, List.any_append]
    cases hedit : edit.resets <;> cases edits.any (·.resets) <;> simp [hedit]

theorem toList_step {s : ClassSet} {ids : List ClassId} (h : s.toList = ids.eraseDups)
    (edit : Edit) : (s.step edit).2.toList =
      (if edit.resets then edit.ids else ids ++ edit.ids).eraseDups := by
  cases edit with
  | insert id => exact toList_insertMany_of_eraseDups h [id]
  | extend more => exact toList_insertMany_of_eraseDups h more
  | clear => rfl
  | collect own => exact toList_ofList own

/-- The order of a set is the first occurrences of what was offered. -/
theorem toList_run (edits : List Edit) :
    (empty.run edits).toList = (offered edits).eraseDups := by
  induction edits using List.reverseRecOn with
  | nil => rfl
  | append_singleton edits edit ih =>
    rw [run, List.foldl_append, List.foldl_cons, List.foldl_nil, ← run, toList_step ih,
      offered_append_singleton]

/-! ## Equality -/

variable (s t : ClassSet)

theorem same_iff_perm : s.same t = true ↔ s.toList.Perm t.toList := by
  rw [same_iff, List.perm_ext_iff_of_nodup s.nodup_toList t.nodup_toList]
  refine forall_congr' fun id => ?_
  rw [← contains_iff, ← contains_iff, Bool.eq_iff_iff]

theorem sorted_perm : s.sorted.Perm s.toList := by
  have hnodup : s.sorted.Nodup := by
    refine Std.TreeSet.distinct_toList.imp ?_
    rintro id _ hne rfl
    exact hne Std.ReflCmp.compare_self
  rw [List.perm_ext_iff_of_nodup hnodup s.nodup_toList]
  intro id
  rw [sorted, Std.TreeSet.mem_toList, Std.TreeSet.mem_iff_contains, ← contains_iff, contains]

/-- The members in ascending order are the sorted order. -/
theorem sorted_eq_mergeSort :
    s.sorted = s.toList.mergeSort fun a b => a.number ≤ b.number := by
  have hsorted : s.sorted.Pairwise fun a b => a.number ≤ b.number := by
    refine Std.TreeSet.ordered_toList.imp fun {a b} hlt => UInt32.le_of_lt ?_
    rwa [ClassId.compare_eq, Std.compare_eq_lt] at hlt
  have hmerged : (s.toList.mergeSort fun a b => a.number ≤ b.number).Pairwise
      fun a b => a.number ≤ b.number := by
    have htrans : ∀ a b c : ClassId, decide (a.number ≤ b.number) = true →
        decide (b.number ≤ c.number) = true → decide (a.number ≤ c.number) = true := by
      simp only [decide_eq_true_eq]
      exact fun _ _ _ => UInt32.le_trans
    have htotal : ∀ a b : ClassId,
        (decide (a.number ≤ b.number) || decide (b.number ≤ a.number)) = true := by
      simp only [Bool.or_eq_true, decide_eq_true_eq]
      exact fun _ _ => UInt32.le_total _ _
    exact (List.pairwise_mergeSort htrans htotal s.toList).imp of_decide_eq_true
  refine (s.sorted_perm.trans (List.mergeSort_perm _ _).symm).eq_of_pairwise
    (fun a b _ _ hab hba => ?_) hsorted hmerged
  exact congrArg ClassId.mk (UInt32.le_antisymm hab hba)

/-- Equal sets have equal sorted orders. -/
theorem same_iff_mergeSort_eq : s.same t = true ↔
    (s.toList.mergeSort fun a b => a.number ≤ b.number) =
      t.toList.mergeSort fun a b => a.number ≤ b.number := by
  rw [same, decide_eq_true_iff, sorted_eq_mergeSort, sorted_eq_mergeSort]

/-- Sets of one size are equal if one has all members of the other. -/
theorem same_iff_size_and_subset : s.same t = true ↔
    s.size = t.size ∧ ∀ id ∈ s.toList, t.contains id = true := by
  rw [same_iff_perm, size_eq, size_eq]
  simp only [contains_iff]
  constructor
  · intro hperm
    exact ⟨hperm.length_eq, fun id => hperm.mem_iff.1⟩
  · rintro ⟨hsize, hsubset⟩
    exact (List.subperm_of_subset s.nodup_toList hsubset).perm_of_length_le (Nat.le_of_eq hsize.symm)

theorem same_equivalence : Equivalence fun s t : ClassSet => s.same t = true where
  refl s := (s.same_iff s).2 fun _ => rfl
  symm {s t} h := (t.same_iff s).2 fun id => ((s.same_iff t).1 h id).symm
  trans {s t u} h h' := (s.same_iff u).2 fun id =>
    ((s.same_iff t).1 h id).trans ((t.same_iff u).1 h' id)

theorem same_insertMany {s t : ClassSet} (h : s.same t = true) (ids : List ClassId) :
    (s.insertMany ids).same (t.insertMany ids) = true := by
  rw [same_iff] at h ⊢
  intro id
  rw [contains_insertMany, contains_insertMany, h id]

/-! ## A set and its history -/

/-- All that can be asked of the set is answered from the ids that were
offered to it. -/
structure InStep (s : ClassSet) (ids : List ClassId) : Prop where
  order : s.toList = ids.eraseDups
  nodup : s.toList.Nodup
  contains : ∀ id, s.contains id = true ↔ id ∈ s.toList
  size : s.size = s.toList.length
  isEmpty : s.isEmpty = true ↔ s.toList = []
  sorted : s.sorted = s.toList.mergeSort fun a b => a.number ≤ b.number
  /-- An insertion answers whether the id is offered for the first time. -/
  insert : ∀ id, (s.step (.insert id)).1 = some (decide (id ∉ ids))

theorem inStep_of_toList_eq {s : ClassSet} {ids : List ClassId} (h : s.toList = ids.eraseDups) :
    InStep s ids where
  order := h
  nodup := s.nodup_toList
  contains := s.contains_iff
  size := s.size_eq
  isEmpty := by
    rw [ClassSet.isEmpty, Array.isEmpty_iff, toList, Array.toList_eq_nil_iff]
  sorted := s.sorted_eq_mergeSort
  insert id := by
    have hcontains : s.contains id = decide (id ∈ ids) := by
      rw [Bool.eq_iff_iff, contains_iff, h, List.mem_eraseDups, decide_eq_true_iff]
    rw [step, insertNew, hcontains, decide_not]

/-- **A set keeps in step with its history.** After any history of changes,
the order of the set is the first occurrences of the ids that were offered
since it was last emptied or collected anew. It has no repetitions, and
membership, size and the answers to insertions agree with it. Two such sets
are equal exactly if their orders are permutations of each other, or if
their sorted orders are equal, or if they have the same size and one has
all members of the other. This is an equivalence, and adding the same ids
to both sides keeps it. -/
theorem runs_in_step :
    (∀ edits : List Edit, InStep (empty.run edits) (offered edits)) ∧
      (∀ a b : List Edit,
        ((empty.run a).same (empty.run b) = true ↔
          (empty.run a).toList.Perm (empty.run b).toList) ∧
        ((empty.run a).same (empty.run b) = true ↔
          ((empty.run a).toList.mergeSort fun x y => x.number ≤ y.number) =
            (empty.run b).toList.mergeSort fun x y => x.number ≤ y.number) ∧
        ((empty.run a).same (empty.run b) = true ↔
          (empty.run a).size = (empty.run b).size ∧
            ∀ id ∈ (empty.run a).toList, (empty.run b).contains id = true)) ∧
      Equivalence (fun a b : List Edit => (empty.run a).same (empty.run b) = true) ∧
      ∀ (a b : List Edit) (ids : List ClassId), (empty.run a).same (empty.run b) = true →
        ((empty.run a).step (.extend ids)).2.same ((empty.run b).step (.extend ids)).2 = true :=
  ⟨fun edits => inStep_of_toList_eq (toList_run edits),
    fun _ _ => ⟨same_iff_perm _ _, same_iff_mergeSort_eq _ _, same_iff_size_and_subset _ _⟩,
    same_equivalence.comap empty.run, fun _ _ ids h => same_insertMany h ids⟩

/-- Ids that come again after the set was emptied, and again within one
collection. -/
def repeats : List Edit :=
  [.insert ⟨3⟩, .extend [⟨1⟩, ⟨3⟩], .clear, .collect [⟨2⟩, ⟨1⟩, ⟨2⟩], .insert ⟨3⟩]

theorem runs_in_step_repeats :
    (empty.run repeats).toList = [⟨2⟩, ⟨1⟩, ⟨3⟩] ∧
    ((empty.run repeats).step (.insert ⟨3⟩)).1 = some false ∧
    ((empty.run (repeats.take 3)).step (.insert ⟨3⟩)).1 = some true ∧
    (empty.run repeats).same (empty.run [.collect [⟨3⟩, ⟨1⟩, ⟨2⟩]]) = true ∧
    ((empty.run repeats).step (.extend [⟨5⟩, ⟨1⟩])).2.same
      ((empty.run [.collect [⟨3⟩, ⟨1⟩, ⟨2⟩]]).step (.extend [⟨5⟩, ⟨1⟩])).2 = true := by
  obtain ⟨hinStep, hsame, -, hextend⟩ := runs_in_step
  have horder : (empty.run repeats).toList = [⟨2⟩, ⟨1⟩, ⟨3⟩] := by
    rw [(hinStep repeats).order]
    decide
  have hequal : (empty.run repeats).same (empty.run [.collect [⟨3⟩, ⟨1⟩, ⟨2⟩]]) = true := by
    rw [(hsame _ _).1, horder, (hinStep _).order]
    decide
  refine ⟨horder, ?_, ?_, hequal, hextend _ _ _ hequal⟩
  · rw [(hinStep repeats).insert]
    decide
  · rw [(hinStep _).insert]
    decide

end ClassSet

end HotSwap
