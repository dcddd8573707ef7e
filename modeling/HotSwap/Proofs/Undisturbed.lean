/-
HotSwap.Proofs.Undisturbed — edits that have nothing to do with a file do
not change what is decided about it.

A file is judged by its two versions, by the classes that use it as a
resource, and by the marks of the classes that its version in the program
declares (`Workspace.SameAt`). Marks are kept for the whole program, so
which edits leave them alone depends on the ids that are in use at the
time: `Workspace.Spares` says what an edit must not do. A step that spares
a file keeps all that the file is judged by (`sameAt_step`), and so does a
history of such steps (`sameAt_run`).
-/
import HotSwap.Proofs.DraftText
import HotSwap.Proofs.History
import HotSwap.Proofs.Marking

namespace HotSwap

/-! ## What an edit must not do -/

namespace Workspace

/-- The program's version of the file declares a class with the id. -/
def Declares (w : Workspace) (path : String) (id : ClassId) : Prop :=
  ∃ s, w.program.sources.get? path = some s ∧ ∃ c ∈ s.classes, c.id = id

/-- The edit, made now, has nothing to do with the file. It concerns
another file or another resource, or it marks only classes whose ids the
file does not use. -/
def Spares (w : Workspace) (path : String) : Edit → Prop
  | .putSource source | .putBaseline source => source.path ≠ path
  | .takeSource gone | .takeBaseline gone => gone ≠ path
  | .extendBaseline sources => ∀ source ∈ sources, source.path ≠ path
  | .resetBaseline _ => False
  | .bindTemplate resource _ | .bindStyle resource _ => resource ≠ path
  | .mark id _ => ¬ w.Declares path id
  | .markComponents callee => ∀ other s, w.program.sources.get? other = some s →
      ∀ c ∈ s.classes, c.HasCall s callee → ¬ w.Declares path c.id

/-- Each edit of a history has nothing to do with the file when it is
made. -/
def SparesAll (w : Workspace) (path : String) : List Edit → Prop
  | [] => True
  | edit :: edits => w.Spares path edit ∧ (w.step edit).2.SparesAll path edits

/-! ## What a file is judged by -/

/-- Both workspaces have all that the file is judged by in common: its
versions, its users as a resource, and the marks of its classes. -/
structure SameAt (path : String) (w w' : Workspace) : Prop where
  baseline : w'.baseline.get? path = w.baseline.get? path
  source : w'.program.sources.get? path = w.program.sources.get? path
  templateUsers : w'.program.view.templateUsers path = w.program.view.templateUsers path
  styleUsers : w'.program.view.styleUsers path = w.program.view.styleUsers path
  markings : ∀ id, w.Declares path id → w'.program.markings[id]? = w.program.markings[id]?

variable {path : String} {w w' w'' : Workspace}

theorem SameAt.refl (path : String) (w : Workspace) : SameAt path w w :=
  ⟨rfl, rfl, rfl, rfl, fun _ _ => rfl⟩

theorem SameAt.declares (h : SameAt path w w') {id : ClassId} (hid : w.Declares path id) :
    w'.Declares path id := by
  obtain ⟨s, hs, hc⟩ := hid
  exact ⟨s, h.source.trans hs, hc⟩

theorem SameAt.trans (h : SameAt path w w') (h' : SameAt path w' w'') : SameAt path w w'' where
  baseline := h'.baseline.trans h.baseline
  source := h'.source.trans h.source
  templateUsers := h'.templateUsers.trans h.templateUsers
  styleUsers := h'.styleUsers.trans h.styleUsers
  markings id hid := (h'.markings id (h.declares hid)).trans (h.markings id hid)

theorem onBaseline_of_spares {edit : Edit} (h : w.Spares path edit) :
    edit.onBaseline path = ⟨false, []⟩ := by
  cases edit with
  | resetBaseline sources => exact absurd h id
  | extendBaseline sources =>
    have hnone : sources.filter (·.path = path) = [] := by
      rw [List.filter_eq_nil_iff]
      intro source hsource
      have hne : source.path ≠ path := h source hsource
      simpa using hne
    rw [Edit.onBaseline, hnone]
  | putBaseline source =>
    have hne : source.path ≠ path := h
    simp [Edit.onBaseline, hne]
  | takeBaseline gone =>
    have hne : gone ≠ path := h
    simp [Edit.onBaseline, hne]
  | _ => rfl

theorem onProgram_of_spares {edit : Edit} (h : w.Spares path edit) :
    edit.onProgram path = ⟨false, []⟩ := by
  cases edit with
  | putSource source =>
    have hne : source.path ≠ path := h
    simp [Edit.onProgram, hne]
  | takeSource gone =>
    have hne : gone ≠ path := h
    simp [Edit.onProgram, hne]
  | _ => rfl

theorem templateAt?_of_spares {edit : Edit} (h : w.Spares path edit) :
    edit.templateAt? path = none := by
  cases edit with
  | bindTemplate resource id => exact if_neg h
  | _ => rfl

theorem styleAt?_of_spares {edit : Edit} (h : w.Spares path edit) :
    edit.styleAt? path = none := by
  cases edit with
  | bindStyle resource id => exact if_neg h
  | _ => rfl

theorem markings_step_of_spares {edit : Edit} (h : w.Spares path edit) {id : ClassId}
    (hid : w.Declares path id) :
    (w.step edit).2.program.markings[id]? = w.program.markings[id]? := by
  cases edit with
  | mark other marking =>
    have hne : other ≠ id := by
      rintro rfl
      exact h hid
    simp [step, Program.mark, Std.TreeMap.getElem?_insert, hne]
  | markComponents callee =>
    refine w.program.markings_markComponents_of_no_call callee fun other s hs c hc hcall heq => ?_
    exact h other s hs c hc hcall (heq ▸ hid)
  | _ => rfl

/-- An edit that spares a file keeps all that the file is judged by. -/
theorem sameAt_step (w : Workspace) (path : String) (edit : Edit) (h : w.Spares path edit) :
    SameAt path w (w.step edit).2 where
  baseline := by
    rw [baseline_get?_step, onBaseline_of_spares h]
    rfl
  source := by
    rw [sources_get?_step, onProgram_of_spares h]
    rfl
  templateUsers := by
    rw [templateUsers_step, templateAt?_of_spares h]
    rfl
  styleUsers := by
    rw [styleUsers_step, styleAt?_of_spares h]
    rfl
  markings _ hid := markings_step_of_spares h hid

theorem sameAt_run (w : Workspace) (path : String) (edits : List Edit)
    (h : w.SparesAll path edits) : SameAt path w (w.run edits) := by
  induction edits generalizing w with
  | nil => exact .refl path w
  | cons edit edits ih => exact (w.sameAt_step path edit h.1).trans (ih _ h.2)

/-! ## Verdicts -/

/-- A file is judged alike where all that it is judged by is the same. -/
theorem SameAt.judgePath_eq (h : SameAt path w w') :
    w'.program.view.judgePath w'.baseline path = w.program.view.judgePath w.baseline path := by
  have husers : w'.program.view.resourceUsers path = w.program.view.resourceUsers path := by
    rw [View.resourceUsers, h.templateUsers, h.styleUsers, ← View.resourceUsers]
  have hsource : w'.program.view.source? path = w.program.view.source? path := h.source
  rw [View.judgePath, View.judgePath, husers, h.baseline, hsource]
  split
  · cases w.baseline.get? path with
    | none => rfl
    | some old =>
      cases hnew : w.program.view.source? path with
      | none => rfl
      | some new =>
        have hmarked : ∀ c ∈ new.classes, w'.program.view.metadataIndex? c =
            w.program.view.metadataIndex? c := by
          intro c hc
          have hid : w.Declares path c.id := ⟨new, hnew, c, hc, rfl⟩
          have hmark : w'.program.view.marking? c = w.program.view.marking? c :=
            h.markings c.id hid
          rw [View.metadataIndex?, hmark, ← View.metadataIndex?]
        simp only
        rw [Revision.swaps_congr_metadataIndex? _ _ hmarked]
  · rfl

theorem judgeFrom_eq_of_sameAt (touched : ClassSet) (paths : List String)
    (h : ∀ path ∈ paths, SameAt path w w') :
    w'.program.view.judgeFrom w'.baseline touched paths =
      w.program.view.judgeFrom w.baseline touched paths := by
  induction paths generalizing touched with
  | nil => rfl
  | cons path paths ih =>
    rw [List.forall_mem_cons] at h
    rw [View.judgeFrom, View.judgeFrom, h.1.judgePath_eq]
    cases w.program.view.judgePath w.baseline path with
    | ok ids => exact ih _ h.2
    | error reason => rfl

/-- **Edits elsewhere.** A history of edits that each have nothing to do
with a file when they are made does not change the verdict on the file,
whatever the workspace was. Nor does it change the verdict on a batch if
it has nothing to do with any of the batch's files. -/
theorem judge_undisturbed (w : Workspace) (edits : List Edit) :
    (∀ path, w.SparesAll path edits → (w.run edits).judge [path] = w.judge [path]) ∧
      ∀ paths, (∀ path ∈ paths, w.SparesAll path edits) →
        (w.run edits).judge paths = w.judge paths := by
  have hbatch : ∀ paths, (∀ path ∈ paths, w.SparesAll path edits) →
      (w.run edits).judge paths = w.judge paths := by
    intro paths h
    exact judgeFrom_eq_of_sameAt ∅ paths fun path hpath => w.sameAt_run path edits (h path hpath)
  exact ⟨fun path h => hbatch [path] (by simpa using h), hbatch⟩

/-- Marking components spares a file if none of the ids that are marked
is an id of the file. -/
theorem spares_markComponents (w : Workspace) (path callee : String)
    (h : ∀ site ∈ w.program.callSites callee, ¬ w.Declares path site.1) :
    w.Spares path (.markComponents callee) := by
  intro other s hs c hc hcall
  cases hindex : c.callIndex? s callee with
  | none => exact absurd hcall ((c.callIndex?_eq_none_iff s callee).1 hindex)
  | some index =>
    exact h (c.id, index)
      ((w.program.mem_callSites_iff callee _ _).2 ⟨other, s, hs, c, hc, hindex, rfl⟩)

/-- A component that was edited, beside a file with a class of its own. -/
def desk : Workspace :=
  empty.run [.putBaseline (Draft.cardFile "'old'").source,
    .putSource (Draft.cardFile "'new'").source, .mark ⟨0⟩ ⟨0, true⟩,
    .putSource (Draft.File.source { path := "pipe.ts", firstId := ⟨1⟩, statements :=
      [.declare { name := some "Pipe", decorators := [.call "Pipe" []] }] })]

/-- Edits that concern the other file, its class and its style sheet. -/
def deskEdits : List Edit :=
  [.markComponents "Pipe", .bindStyle "pipe.css" ⟨1⟩, .takeSource "pipe.ts",
    .mark ⟨1⟩ ⟨3, true⟩, .extendBaseline [⟨"else.ts", "", []⟩]]

theorem judge_undisturbed_desk :
    desk.SparesAll "card.ts" deskEdits ∧ desk.SparesAll "card.css" deskEdits ∧
    (desk.run deskEdits).judge ["card.ts"] = .swap (.ofList [⟨0⟩]) ∧
    (desk.run deskEdits).judge ["card.ts", "card.css"] =
      .rebuild ⟨"card.css", .notInBaseline⟩ := by
  have hcallSites : desk.program.callSites "Pipe" = [(⟨1⟩, 0)] := by decide
  have hcard : ∀ w : Workspace,
      w.program.sources.get? "card.ts" = some (Draft.cardFile "'new'").source →
      ¬ w.Declares "card.ts" ⟨1⟩ := by
    rintro w hw ⟨s, hs, c, hc, hid⟩
    cases hw.symm.trans hs
    have hids : ∀ c ∈ (Draft.cardFile "'new'").source.classes, c.id ≠ ⟨1⟩ := by decide
    exact hids c hc hid
  have hnone : ∀ w : Workspace, w.program.sources.get? "card.css" = none →
      ¬ w.Declares "card.css" ⟨1⟩ := by
    rintro w hw ⟨s, hs, -⟩
    rw [hw] at hs
    cases hs
  have hts : desk.SparesAll "card.ts" deskEdits := by
    refine ⟨desk.spares_markComponents _ _ ?_, ?_, ?_, hcard _ rfl, ?_, trivial⟩
    · simpa [hcallSites] using hcard desk rfl
    · simp [Spares]
    · simp [Spares]
    · simp [Spares]
  have hcss : desk.SparesAll "card.css" deskEdits := by
    refine ⟨desk.spares_markComponents _ _ ?_, ?_, ?_, hnone _ rfl, ?_, trivial⟩
    · simpa [hcallSites] using hnone desk rfl
    · simp [Spares]
    · simp [Spares]
    · simp [Spares]
  obtain ⟨hone, hbatch⟩ := judge_undisturbed desk deskEdits
  refine ⟨hts, hcss, ?_, ?_⟩
  · rw [hone "card.ts" hts]
    rfl
  · rw [hbatch ["card.ts", "card.css"] (by simp [hts, hcss])]
    rfl

end Workspace

end HotSwap
