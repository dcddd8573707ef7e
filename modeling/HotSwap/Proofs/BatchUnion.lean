/-
HotSwap.Proofs.BatchUnion — batches that are put together from smaller
ones.

The verdict on a batch is the verdict on its first part followed by the
verdict on the rest (`Verdict.followedBy`, `View.judge_append`): the parts
can be judged apart. As a file fails or contributes on its own, a larger
set of files can only turn a swap into a rebuild, and only add classes to
one that is left (`View.judge_swap_of_subset`). In what order the files
stand, and how often, decides neither.
-/
import Mathlib.Data.List.Induction
import HotSwap.Program
import HotSwap.Proofs.Batch

namespace HotSwap

/-! ## Sets of ids that are collected in two parts -/

theorem eraseDups_of_nodup {ids : List ClassId} (h : ids.Nodup) : ids.eraseDups = ids := by
  induction h with
  | nil => rfl
  | @cons id ids hnew _ ih =>
    have hkeep : ids.filter (fun b => !b == id) = ids := by
      rw [List.filter_eq_self]
      intro b hb
      have hne : id ≠ b := hnew b hb
      simpa using hne.symm
    rw [List.eraseDups_cons, hkeep, ih]

namespace ClassSet

theorem nodup_toList (s : ClassSet) : s.toList.Nodup := s.nodup

/-- Adding a list is adding its set: later repetitions do nothing. -/
theorem insertMany_toList_ofList (s : ClassSet) (ids : List ClassId) :
    s.insertMany (ofList ids).toList = s.insertMany ids := by
  induction ids using List.reverseRecOn with
  | nil => rfl
  | append_singleton ids id ih =>
    have hone : ∀ t : ClassSet, t.insertMany [id] = t.insert id := fun _ => rfl
    have hlist : (ofList (ids ++ [id])).toList = ((ofList ids).insert id).toList := by
      rw [ofList, insertMany_append, ← ofList, hone]
    rw [hlist, insertMany_append, hone, toList_insert]
    split
    · -- The id is among those before it, so neither side takes it again.
      rename_i hold
      rw [contains_ofList] at hold
      have hin : (s.insertMany ids).contains id = true := by
        rw [contains_insertMany, hold, Bool.or_true]
      rw [ih, insert_of_contains hin]
    · rw [insertMany_append, ih, hone]

/-- Adding a set to another one appends, in its order, what is new. -/
theorem toList_insertMany_toList (s t : ClassSet) :
    (s.insertMany t.toList).toList = s.toList ++ t.toList.filter fun id => id ∉ s.toList := by
  rw [toList_insertMany, removeAll_eq_filter, eraseDups_of_nodup (t.nodup_toList.filter _)]

end ClassSet

/-- The verdict on two batches in a row, from the verdicts on each. -/
def Verdict.followedBy : Verdict → Verdict → Verdict
  | rebuild cause, _ => rebuild cause
  | swap _, rebuild cause => rebuild cause
  | swap s, swap t => swap (s.insertMany t.toList)

namespace View

variable (v : View) (baseline : SourceMap)

/-! ## Two batches in a row -/

theorem judgeFrom_append (touched : ClassSet) (xs ys : List String) :
    v.judgeFrom baseline touched (xs ++ ys) =
      match v.judgeFrom baseline touched xs with
      | .swap s => v.judgeFrom baseline s ys
      | .rebuild cause => .rebuild cause := by
  induction xs generalizing touched with
  | nil => rfl
  | cons path xs ih =>
    rw [List.cons_append]
    simp only [judgeFrom]
    cases v.judgePath baseline path with
    | ok ids => exact ih _
    | error reason => rfl

/-- What has been collected before a batch comes first, and otherwise has
no say in the verdict. -/
theorem judgeFrom_eq_followedBy (touched : ClassSet) (paths : List String) :
    v.judgeFrom baseline touched paths =
      (Verdict.swap touched).followedBy (v.judge baseline paths) := by
  obtain ⟨parts, hparts⟩ | ⟨before, parts, path, reason, after, rfl, hbefore, hpath⟩ :=
    v.contributions_or_first_failure baseline paths
  · rw [v.judgeFrom_of_contributes baseline touched hparts,
      v.judge_of_contributes baseline hparts]
    simp only [Verdict.followedBy, ClassSet.insertMany_toList_ofList]
  · rw [v.judgeFrom_of_fails baseline touched hbefore hpath after,
      v.judge_of_fails baseline hbefore hpath after]
    rfl

/-- The parts of a batch can be judged apart. -/
theorem judge_append (xs ys : List String) :
    v.judge baseline (xs ++ ys) = (v.judge baseline xs).followedBy (v.judge baseline ys) := by
  rw [judge, judgeFrom_append, ← judge]
  cases v.judge baseline xs with
  | swap s => exact v.judgeFrom_eq_followedBy baseline s ys
  | rebuild cause => rfl

/-! ## Batches with the same files -/

theorem judge_eq_swap_iff (paths : List String) (classes : ClassSet) :
    v.judge baseline paths = .swap classes ↔
      ∃ parts, List.Forall₂ (v.Contributes baseline) paths parts ∧
        classes = .ofList parts.flatten := by
  constructor
  · intro h
    obtain ⟨parts, hparts⟩ | ⟨before, parts, path, reason, after, rfl, hbefore, hpath⟩ :=
      v.contributions_or_first_failure baseline paths
    · rw [v.judge_of_contributes baseline hparts] at h
      cases h
      exact ⟨parts, hparts, rfl⟩
    · rw [v.judge_of_fails baseline hbefore hpath after] at h
      cases h
  · intro h
    obtain ⟨parts, hparts, rfl⟩ := h
    exact v.judge_of_contributes baseline hparts

/-- Leaving out files, or repeating them, cannot turn a swap into a
rebuild, and no class comes in by it. -/
theorem judge_swap_of_subset {xs ys : List String} (hsub : xs ⊆ ys) {t : ClassSet}
    (ht : v.judge baseline ys = .swap t) :
    ∃ s, v.judge baseline xs = .swap s ∧ ∀ id, s.contains id = true → t.contains id = true := by
  obtain ⟨parts, hparts, rfl⟩ := (v.judge_eq_swap_iff baseline ys t).1 ht
  have hfine := v.not_fails_of_mem baseline hparts
  obtain ⟨fewer, hfewer⟩ := v.contributes_of_not_fails baseline xs
    fun path hpath => hfine path (hsub hpath)
  refine ⟨_, v.judge_of_contributes baseline hfewer, fun id hid => ?_⟩
  rw [ClassSet.contains_ofList, decide_eq_true_iff, v.mem_flatten_iff_touches baseline hfewer]
    at hid
  rw [ClassSet.contains_ofList, decide_eq_true_iff, v.mem_flatten_iff_touches baseline hparts]
  obtain ⟨path, hpath, htouches⟩ := hid
  exact ⟨path, hsub hpath, htouches⟩

theorem judge_rebuild_of_subset {xs ys : List String} (hsub : xs ⊆ ys) {cause : Rebuild}
    (h : v.judge baseline xs = .rebuild cause) :
    ∃ other, v.judge baseline ys = .rebuild other := by
  cases hys : v.judge baseline ys with
  | rebuild other => exact ⟨other, rfl⟩
  | swap t =>
    obtain ⟨s, hs, -⟩ := v.judge_swap_of_subset baseline hsub hys
    rw [hs] at h
    cases h

theorem judge_classes_same {xs ys : List String} (hsub : xs ⊆ ys) (hsub' : ys ⊆ xs) :
    (v.judge baseline xs).classes.same (v.judge baseline ys).classes = true := by
  rw [ClassSet.same_iff]
  intro id
  cases hxs : v.judge baseline xs with
  | rebuild cause =>
    obtain ⟨other, hys⟩ := v.judge_rebuild_of_subset baseline hsub hxs
    rw [hys]
    rfl
  | swap s =>
    obtain ⟨t, hys, hts⟩ := v.judge_swap_of_subset baseline hsub' hxs
    obtain ⟨s', hxs', hst⟩ := v.judge_swap_of_subset baseline hsub hys
    cases hxs.symm.trans hxs'
    rw [hys, Bool.eq_iff_iff]
    exact ⟨hst id, hts id⟩

/-- **The verdict depends on the set of files.** More files can turn a swap
into a rebuild but not a rebuild into a swap, and they leave every class of
a swap in. So two batches of the same files, in whatever order and however
often, are both rebuilt or both swapped, with the same classes. In a batch
that is put together from two, a rebuild of the first is the verdict, then
a rebuild of the second, and two swaps make one: the classes of the first,
and behind them those of the second that are not among them. -/
theorem judge_set_of_files :
    (∀ xs ys : List String, xs ⊆ ys →
        ((∃ cause, v.judge baseline xs = .rebuild cause) →
          ∃ cause, v.judge baseline ys = .rebuild cause) ∧
        ∀ t, v.judge baseline ys = .swap t → ∃ s, v.judge baseline xs = .swap s ∧
          ∀ id, s.contains id = true → t.contains id = true) ∧
      (∀ xs ys : List String, (∀ path, path ∈ xs ↔ path ∈ ys) →
        ((∃ cause, v.judge baseline xs = .rebuild cause) ↔
          ∃ cause, v.judge baseline ys = .rebuild cause) ∧
        (v.judge baseline xs).classes.same (v.judge baseline ys).classes = true) ∧
      ∀ xs ys : List String,
        (∀ cause, v.judge baseline xs = .rebuild cause →
          v.judge baseline (xs ++ ys) = .rebuild cause) ∧
        (∀ s cause, v.judge baseline xs = .swap s → v.judge baseline ys = .rebuild cause →
          v.judge baseline (xs ++ ys) = .rebuild cause) ∧
        ∀ s t, v.judge baseline xs = .swap s → v.judge baseline ys = .swap t →
          ∃ u, v.judge baseline (xs ++ ys) = .swap u ∧
            u.toList = s.toList ++ t.toList.filter fun id => id ∉ s.toList := by
  refine ⟨fun xs ys hsub => ⟨?_, fun t => v.judge_swap_of_subset baseline hsub⟩,
    fun xs ys hsame => ?_, fun xs ys => ?_⟩
  · intro h
    obtain ⟨cause, h⟩ := h
    exact v.judge_rebuild_of_subset baseline hsub h
  · have hsub : xs ⊆ ys := fun path => (hsame path).1
    have hsub' : ys ⊆ xs := fun path => (hsame path).2
    refine ⟨⟨?_, ?_⟩, v.judge_classes_same baseline hsub hsub'⟩
    · rintro ⟨cause, h⟩
      exact v.judge_rebuild_of_subset baseline hsub h
    · rintro ⟨cause, h⟩
      exact v.judge_rebuild_of_subset baseline hsub' h
  · rw [v.judge_append baseline xs ys]
    refine ⟨?_, ?_, ?_⟩
    · intro cause hxs
      simp only [hxs, Verdict.followedBy]
    · intro s cause hxs hys
      simp only [hxs, hys, Verdict.followedBy]
    · intro s t hxs hys
      refine ⟨s.insertMany t.toList, ?_, s.toList_insertMany_toList t⟩
      simp only [hxs, hys, Verdict.followedBy]

/-- The program in which classes 0 and 1 render one template and classes 1
and 2 use one style sheet. -/
def shelfView : View :=
  ((((Program.empty.bindTemplate "a.html" ⟨0⟩).bindTemplate "a.html" ⟨1⟩).bindStyle
    "b.css" ⟨1⟩).bindStyle "b.css" ⟨2⟩).view

theorem judge_set_of_files_shelf :
    ["a.html", "a.html"] ⊆ ["b.css", "a.html"] ∧
    (shelfView.judge .empty ["a.html", "a.html"]).classes.toList = [⟨0⟩, ⟨1⟩] ∧
    (shelfView.judge .empty ["b.css", "a.html"]).classes.toList = [⟨1⟩, ⟨2⟩, ⟨0⟩] ∧
    (∃ u, shelfView.judge .empty (["a.html", "a.html"] ++ ["b.css", "a.html"]) = .swap u ∧
      u.toList = [⟨0⟩, ⟨1⟩, ⟨2⟩]) ∧
    ∃ cause, shelfView.judge .empty ["a.html", "gone.ts", "b.css"] = .rebuild cause := by
  have hsub : ["a.html", "a.html"] ⊆ ["b.css", "a.html"] := by decide
  have hxs : shelfView.judge .empty ["a.html", "a.html"] =
      .swap (.ofList [⟨0⟩, ⟨1⟩]) := rfl
  have hys : shelfView.judge .empty ["b.css", "a.html"] =
      .swap (.ofList [⟨1⟩, ⟨2⟩, ⟨0⟩]) := rfl
  have hgone : shelfView.judge .empty ["gone.ts"] = .rebuild ⟨"gone.ts", .notInBaseline⟩ := rfl
  obtain ⟨hmore, -, hparts⟩ := judge_set_of_files shelfView .empty
  obtain ⟨u, hu, horder⟩ := (hparts _ _).2.2 _ _ hxs hys
  refine ⟨hsub, ?_, ?_, ⟨u, hu, horder⟩, ?_⟩
  · rw [hxs]
    rfl
  · rw [hys]
    rfl
  · exact (hmore ["gone.ts"] ["a.html", "gone.ts", "b.css"] (by decide)).1 ⟨_, hgone⟩

end View

end HotSwap
