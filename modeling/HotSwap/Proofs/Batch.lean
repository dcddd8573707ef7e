/-
HotSwap.Proofs.Batch — what a batch of modified files is decided to be,
file by file.

A file fails for one reason or contributes a list of classes
(`View.Fails`, `View.Contributes`), and which of the two does not depend
on the rest of the batch. A batch is the list of its files: the first one
that fails decides for a rebuild, and otherwise the contributions are
collected in order (`judge_of_contributes`, `judge_of_fails`). Every
collected class can be traced back to a file that touches it
(`View.Touches`).
-/
import HotSwap.Verdict
import HotSwap.Proofs.FileDiff
import HotSwap.Proofs.FirstOccurrence

namespace HotSwap

namespace View

variable (v : View) (baseline : SourceMap)

/-! ## One file -/

/-- The file cannot be swapped in, for the given reason. -/
inductive Fails (path : String) : RebuildReason → Prop where
  | notInBaseline (unused : v.Unused path) (hold : baseline.get? path = none) :
      Fails path .notInBaseline
  | notInProgram (unused : v.Unused path) (old : Source) (hold : baseline.get? path = some old)
      (hnew : v.source? path = none) : Fails path .notInProgram
  | refused (unused : v.Unused path) (old new : Source) (hold : baseline.get? path = some old)
      (hnew : v.source? path = some new) (refusal : Refusal)
      (h : Revision.swaps ⟨old, new⟩ v.metadataIndex? = .error refusal) :
      Fails path (.refused refusal)

/-- The file can be swapped in and touches the given classes. -/
inductive Contributes (path : String) : List ClassId → Prop where
  | resource (used : ¬ v.Unused path) : Contributes path (v.resourceUsers path)
  | source (unused : v.Unused path) (old new : Source) (hold : baseline.get? path = some old)
      (hnew : v.source? path = some new) (ids : List ClassId)
      (h : Revision.swaps ⟨old, new⟩ v.metadataIndex? = .ok ids) : Contributes path ids

/-- The file is a resource of the class, or a source in which the class is
a component that changed in live fields only. -/
inductive Touches (path : String) (id : ClassId) : Prop where
  | template (h : id ∈ v.templateUsers path)
  | style (h : id ∈ v.styleUsers path)
  | component (unused : v.Unused path) (old new : Source) (hold : baseline.get? path = some old)
      (hnew : v.source? path = some new) (i : Nat) (a b : Statement)
      (ha : old.statements[i]? = some a) (hb : new.statements[i]? = some b) (c d : Class)
      (hc : a.declared = some c) (hd : b.declared = some d) (hid : d.id = id) (index : Nat)
      (marked : v.metadataIndex? d = some index) (m m' : MetadataCall)
      (hm : c.metadataCall? index = some m) (hm' : d.metadataCall? index = some m')
      (live : Revision.change ⟨old, new⟩ m m' = .live)

theorem contributes_or_fails (path : String) :
    (∃ ids, v.Contributes baseline path ids) ∨ ∃ reason, v.Fails baseline path reason := by
  by_cases unused : v.Unused path
  case neg => exact .inl ⟨_, .resource unused⟩
  cases hold : baseline.get? path with
  | none => exact .inr ⟨_, .notInBaseline unused hold⟩
  | some old =>
    cases hnew : v.source? path with
    | none => exact .inr ⟨_, .notInProgram unused old hold hnew⟩
    | some new =>
      cases hswaps : Revision.swaps ⟨old, new⟩ v.metadataIndex? with
      | ok ids => exact .inl ⟨ids, .source unused old new hold hnew ids hswaps⟩
      | error refusal =>
        exact .inr ⟨_, .refused unused old new hold hnew refusal hswaps⟩

/-- A file that no class uses as a resource is judged as a source. -/
theorem judgePath_of_unused {path : String} (unused : v.Unused path) :
    v.judgePath baseline path =
      match baseline.get? path, v.source? path with
      | none, _ => .error .notInBaseline
      | some _, none => .error .notInProgram
      | some old, some new =>
        match Revision.swaps ⟨old, new⟩ v.metadataIndex? with
        | .ok ids => .ok ids
        | .error refusal => .error (.refused refusal) := by
  rewrite [judgePath, (v.resourceUsers_eq_nil_iff path).2 unused]
  rfl

theorem judgePath_of_contributes {path : String} {ids : List ClassId}
    (h : v.Contributes baseline path ids) : v.judgePath baseline path = .ok ids := by
  cases h with
  | resource used =>
    rw [← resourceUsers_eq_nil_iff] at used
    rw [judgePath]
    split
    · rename_i hnil
      exact absurd hnil used
    · rfl
  | source unused old new hold hnew ids hswaps =>
    rw [v.judgePath_of_unused baseline unused, hold, hnew]
    simp [hswaps]

theorem judgePath_of_fails {path : String} {reason : RebuildReason}
    (h : v.Fails baseline path reason) : v.judgePath baseline path = .error reason := by
  cases h with
  | notInBaseline unused hold => rw [v.judgePath_of_unused baseline unused, hold]
  | notInProgram unused old hold hnew =>
    rw [v.judgePath_of_unused baseline unused, hold, hnew]
  | refused unused old new hold hnew refusal hswaps =>
    rw [v.judgePath_of_unused baseline unused, hold, hnew]
    simp [hswaps]

theorem not_fails_of_contributes {path : String} {ids : List ClassId}
    (h : v.Contributes baseline path ids) (reason : RebuildReason) :
    ¬ v.Fails baseline path reason := by
  intro hfails
  have hok := v.judgePath_of_contributes baseline h
  rw [v.judgePath_of_fails baseline hfails] at hok
  cases hok

/-- The classes that a file contributes are those that it touches. -/
theorem mem_iff_touches {path : String} {ids : List ClassId}
    (h : v.Contributes baseline path ids) (id : ClassId) :
    id ∈ ids ↔ v.Touches baseline path id := by
  cases h with
  | resource used =>
    rw [mem_resourceUsers]
    constructor
    · intro h
      rcases h with htemplate | hstyle
      · exact .template htemplate
      · exact .style hstyle
    · intro htouches
      cases htouches with
      | template htemplate => exact .inl htemplate
      | style hstyle => exact .inr hstyle
      | component unused => exact absurd unused used
  | source unused old new hold hnew ids hswaps =>
    obtain ⟨-, -, rfl⟩ := (Revision.swaps_eq_ok_iff _ _ _).1 hswaps
    simp only [Revision.mem_swapsOf, Revision.swapAt?_eq_some_iff]
    constructor
    · intro h
      obtain ⟨i, a, b, ha, hb, c, d, index, m, m', hc, hd, hmarked, hm, hm', hlive, hid⟩ := h
      exact .component unused old new hold hnew i a b ha hb c d hc hd hid index hmarked
        m m' hm hm' hlive
    · intro htouches
      cases htouches with
      | template htemplate => simp [unused.1] at htemplate
      | style hstyle => simp [unused.2] at hstyle
      | component _ old' new' hold' hnew' i a b ha hb c d hc hd hid index hmarked
          m m' hm hm' hlive =>
        cases hold.symm.trans hold'
        cases hnew.symm.trans hnew'
        exact ⟨i, a, b, ha, hb, c, d, index, m, m', hc, hd, hmarked, hm, hm', hlive, hid⟩

/-! ## A batch -/

theorem judgeFrom_of_contributes (touched : ClassSet) {paths : List String}
    {parts : List (List ClassId)} (h : List.Forall₂ (v.Contributes baseline) paths parts) :
    v.judgeFrom baseline touched paths = .swap (touched.insertMany parts.flatten) := by
  induction h generalizing touched with
  | nil => rfl
  | cons hpath _ ih =>
    rw [judgeFrom, v.judgePath_of_contributes baseline hpath]
    simp only [ih, List.flatten_cons, ClassSet.insertMany_append]

theorem judgeFrom_of_fails (touched : ClassSet) {before : List String}
    {parts : List (List ClassId)} (h : List.Forall₂ (v.Contributes baseline) before parts)
    {path : String} {reason : RebuildReason} (hpath : v.Fails baseline path reason)
    (after : List String) :
    v.judgeFrom baseline touched (before ++ path :: after) = .rebuild ⟨path, reason⟩ := by
  induction h generalizing touched with
  | nil =>
    rw [List.nil_append, judgeFrom, v.judgePath_of_fails baseline hpath]
  | cons hfirst _ ih =>
    rw [List.cons_append, judgeFrom, v.judgePath_of_contributes baseline hfirst]
    exact ih _

/-- Either every file of a batch contributes or there is a first one that
fails. -/
theorem contributions_or_first_failure (paths : List String) :
    (∃ parts, List.Forall₂ (v.Contributes baseline) paths parts) ∨
      ∃ before parts path reason after, paths = before ++ path :: after ∧
        List.Forall₂ (v.Contributes baseline) before parts ∧
        v.Fails baseline path reason := by
  induction paths with
  | nil => exact .inl ⟨[], .nil⟩
  | cons path paths ih =>
    rcases v.contributes_or_fails baseline path with ⟨ids, hpath⟩ | ⟨reason, hpath⟩
    case inr => exact .inr ⟨[], [], path, reason, paths, rfl, .nil, hpath⟩
    rcases ih with ⟨parts, hrest⟩ | ⟨before, parts, p, reason, after, rfl, hbefore, hp⟩
    · exact .inl ⟨ids :: parts, .cons hpath hrest⟩
    · exact .inr ⟨path :: before, ids :: parts, p, reason, after, rfl,
        .cons hpath hbefore, hp⟩

/-- A batch whose files all contribute is swapped in, and then what they
contribute is collected in order. -/
theorem judge_of_contributes {paths : List String} {parts : List (List ClassId)}
    (h : List.Forall₂ (v.Contributes baseline) paths parts) :
    v.judge baseline paths = .swap (.ofList parts.flatten) :=
  v.judgeFrom_of_contributes baseline ∅ h

/-- The first file that fails decides for a rebuild, whatever stands
behind it. -/
theorem judge_of_fails {before : List String} {parts : List (List ClassId)}
    (h : List.Forall₂ (v.Contributes baseline) before parts) {path : String}
    {reason : RebuildReason} (hpath : v.Fails baseline path reason) (after : List String) :
    v.judge baseline (before ++ path :: after) = .rebuild ⟨path, reason⟩ :=
  v.judgeFrom_of_fails baseline ∅ h hpath after

theorem not_fails_of_mem {paths : List String} {parts : List (List ClassId)}
    (h : List.Forall₂ (v.Contributes baseline) paths parts) :
    ∀ path ∈ paths, ∀ reason, ¬ v.Fails baseline path reason := by
  induction h with
  | nil => simp
  | cons hpath _ ih =>
    intro path hmem reason
    rcases List.mem_cons.1 hmem with rfl | hmem
    · exact v.not_fails_of_contributes baseline hpath reason
    · exact ih path hmem reason

theorem mem_flatten_iff_touches {paths : List String} {parts : List (List ClassId)}
    (h : List.Forall₂ (v.Contributes baseline) paths parts) (id : ClassId) :
    id ∈ parts.flatten ↔ ∃ path ∈ paths, v.Touches baseline path id := by
  induction h with
  | nil => simp
  | cons hpath _ ih =>
    simp only [List.flatten_cons, List.mem_append, ih, v.mem_iff_touches baseline hpath,
      List.mem_cons, exists_eq_or_imp]

theorem contributes_of_not_fails (paths : List String)
    (h : ∀ path ∈ paths, ∀ reason, ¬ v.Fails baseline path reason) :
    ∃ parts, List.Forall₂ (v.Contributes baseline) paths parts := by
  obtain hparts | ⟨before, parts, path, reason, after, rfl, -, hpath⟩ :=
    v.contributions_or_first_failure baseline paths
  · exact hparts
  · exact absurd hpath (h path (by simp) reason)

/-- A batch asks for a rebuild exactly when one of its files fails, and
then the first of those is named. -/
theorem judge_eq_rebuild_iff (paths : List String) (path : String) (reason : RebuildReason) :
    v.judge baseline paths = .rebuild ⟨path, reason⟩ ↔
      v.Fails baseline path reason ∧ ∃ before after, paths = before ++ path :: after ∧
        ∀ p ∈ before, ∀ other, ¬ v.Fails baseline p other := by
  constructor
  · intro h
    obtain ⟨parts, hparts⟩ | ⟨before, parts, p, other, after, rfl, hbefore, hp⟩ :=
      v.contributions_or_first_failure baseline paths
    · rw [v.judge_of_contributes baseline hparts] at h
      cases h
    · rw [v.judge_of_fails baseline hbefore hp after] at h
      cases h
      exact ⟨hp, before, after, rfl, v.not_fails_of_mem baseline hbefore⟩
  · intro h
    obtain ⟨hpath, before, after, rfl, hbefore⟩ := h
    obtain ⟨parts, hparts⟩ := v.contributes_of_not_fails baseline before hbefore
    exact v.judge_of_fails baseline hparts hpath after

/-- **The decision on a batch.** It asks for a rebuild exactly when one of
its files fails; the cause is the first such file, with the reason that
the file has on its own. Otherwise the classes to render anew are the
contributions of the files in order, without later repetitions, and these
are the classes that some file of the batch touches. -/
theorem judge_file_by_file (paths : List String) :
    ((∃ cause, v.judge baseline paths = .rebuild cause) ↔
        ∃ path ∈ paths, ∃ reason, v.Fails baseline path reason) ∧
      (∀ path reason, v.judge baseline paths = .rebuild ⟨path, reason⟩ ↔
        v.Fails baseline path reason ∧ v.judge baseline [path] = .rebuild ⟨path, reason⟩ ∧
          ∃ before after, paths = before ++ path :: after ∧
            ∀ p ∈ before, ∀ other, ¬ v.Fails baseline p other) ∧
      ((∀ path ∈ paths, ∀ reason, ¬ v.Fails baseline path reason) →
        ∃ classes parts, v.judge baseline paths = .swap classes ∧
          List.Forall₂ (v.Contributes baseline) paths parts ∧
          classes.toList = parts.flatten.eraseDups ∧
          ∀ id, id ∈ classes.toList ↔ ∃ path ∈ paths, v.Touches baseline path id) := by
  refine ⟨⟨?_, ?_⟩, fun path reason => ?_, fun h => ?_⟩
  · intro h
    obtain ⟨⟨path, reason⟩, h⟩ := h
    obtain ⟨hpath, before, after, rfl, -⟩ := (v.judge_eq_rebuild_iff baseline _ _ _).1 h
    exact ⟨path, by simp, reason, hpath⟩
  · intro h
    obtain ⟨path, hmem, reason, hpath⟩ := h
    obtain ⟨parts, hparts⟩ | ⟨before, parts, p, other, after, rfl, hbefore, hp⟩ :=
      v.contributions_or_first_failure baseline paths
    · exact absurd hpath (v.not_fails_of_mem baseline hparts path hmem reason)
    · exact ⟨_, v.judge_of_fails baseline hbefore hp after⟩
  · rw [v.judge_eq_rebuild_iff baseline paths]
    refine and_congr_right fun hpath => ?_
    have halone : v.judge baseline [path] = .rebuild ⟨path, reason⟩ :=
      v.judge_of_fails baseline .nil hpath []
    simp [halone]
  · obtain ⟨parts, hparts⟩ := v.contributes_of_not_fails baseline paths h
    have horder : (ClassSet.ofList parts.flatten).toList = parts.flatten.eraseDups :=
      ClassSet.toList_ofList _
    refine ⟨_, parts, v.judge_of_contributes baseline hparts, hparts, horder, fun id => ?_⟩
    rw [horder, List.mem_eraseDups, v.mem_flatten_iff_touches baseline hparts]

end View

end HotSwap
