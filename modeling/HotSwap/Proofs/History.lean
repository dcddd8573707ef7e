/-
HotSwap.Proofs.History — which versions of a file are compared after a
history of edits.

Of all that an edit does, only a little concerns one file of one store: it
may drop the version that is there, and put in others (`FileEffect`). What
a store has at a path is the outcome of these effects
(`baseline_get?_run`, `sources_get?_run`), and that is the version that was
put in last, unless it was dropped since (`FileEffect.LastPut`). So a file
is judged by the last versions that the history put into the two stores
(`judge_by_last_versions`).
-/
import Mathlib.Data.List.Induction
import HotSwap.Workspace
import HotSwap.Proofs.Batch

namespace HotSwap

/-! ## Effects on one file -/

/-- What an edit does to one file of a store. -/
structure FileEffect where
  /-- Whether the version that the store has is dropped first. -/
  drops : Bool
  /-- The versions that are put in then, one in place of the other. -/
  puts : List Source

namespace FileEffect

/-- The version that a store has after an effect. -/
def after (e : FileEffect) (version : Option Source) : Option Source :=
  e.puts.getLast?.or (if e.drops then none else version)

/-- The version was put in, and it was neither dropped nor replaced since.
Of the versions that one effect puts in, the last counts. -/
def LastPut (effects : List FileEffect) (version : Source) : Prop :=
  ∃ before e since, effects = before ++ e :: since ∧ e.puts.getLast? = some version ∧
    ∀ f ∈ since, f.drops = false ∧ f.puts = []

/-- Whenever a version was put in, it was dropped at some time since. -/
def NonePut (effects : List FileEffect) : Prop :=
  ∀ before e since, effects = before ++ e :: since → e.puts ≠ [] → ∃ f ∈ since, f.drops = true

/-- A place in a list with one more item at its end is that end or a place
in the list. -/
theorem append_singleton_eq_iff {α : Type} {xs before since : List α} {x y : α} :
    xs ++ [x] = before ++ y :: since ↔ (since = [] ∧ xs = before ∧ x = y) ∨
      ∃ rest, since = rest ++ [x] ∧ xs = before ++ y :: rest := by
  induction since using List.reverseRecOn with
  | nil => simp
  | append_singleton rest z =>
    rw [← List.cons_append, ← List.append_assoc]
    constructor
    · intro h
      obtain ⟨hxs, hx⟩ := List.append_inj' h rfl
      cases hx
      exact .inr ⟨rest, rfl, hxs⟩
    · rintro (⟨hnil, -⟩ | ⟨other, hrest, rfl⟩)
      · simp at hnil
      · obtain ⟨rfl, hz⟩ := List.append_inj' hrest rfl
        rw [hz]

theorem lastPut_append_singleton_iff (effects : List FileEffect) (e : FileEffect)
    (version : Source) : LastPut (effects ++ [e]) version ↔
      e.puts.getLast? = some version ∨
        e.puts = [] ∧ e.drops = false ∧ LastPut effects version := by
  simp only [LastPut, append_singleton_eq_iff]
  constructor
  · rintro ⟨before, f, since, ⟨rfl, -, rfl⟩ | ⟨rest, rfl, rfl⟩, hlast, hsince⟩
    · exact .inl hlast
    · obtain ⟨hdrops, hputs⟩ := hsince e (by simp)
      exact .inr ⟨hputs, hdrops, before, f, rest, rfl, hlast, fun g hg => hsince g (by simp [hg])⟩
  · rintro (hlast | ⟨hputs, hdrops, before, f, rest, rfl, hlast, hrest⟩)
    · exact ⟨effects, e, [], .inl ⟨rfl, rfl, rfl⟩, hlast, by simp⟩
    · refine ⟨before, f, rest ++ [e], .inr ⟨rest, rfl, rfl⟩, hlast, fun g hg => ?_⟩
      rcases List.mem_append.1 hg with hg | hg
      · exact hrest g hg
      · rw [List.mem_singleton.1 hg]
        exact ⟨hdrops, hputs⟩

theorem nonePut_append_singleton_iff (effects : List FileEffect) (e : FileEffect) :
    NonePut (effects ++ [e]) ↔ e.puts = [] ∧ (e.drops = true ∨ NonePut effects) := by
  simp only [NonePut, append_singleton_eq_iff]
  constructor
  · intro h
    have hputs : e.puts = [] := by
      by_contra hputs
      obtain ⟨f, hf, -⟩ := h effects e [] (.inl ⟨rfl, rfl, rfl⟩) hputs
      cases hf
    refine ⟨hputs, ?_⟩
    by_cases hdrops : e.drops = true
    · exact .inl hdrops
    · refine .inr fun before f rest heq hf => ?_
      obtain ⟨g, hg, hgdrops⟩ := h before f (rest ++ [e]) (.inr ⟨rest, rfl, heq⟩) hf
      rcases List.mem_append.1 hg with hg | hg
      · exact ⟨g, hg, hgdrops⟩
      · rw [List.mem_singleton.1 hg] at hgdrops
        exact absurd hgdrops hdrops
  · rintro ⟨hputs, h⟩ before f since (⟨rfl, rfl, rfl⟩ | ⟨rest, rfl, heq⟩) hf
    · exact absurd hputs hf
    · rcases h with hdrops | h
      · exact ⟨e, by simp, hdrops⟩
      · obtain ⟨g, hg, hgdrops⟩ := h before f rest heq hf
        exact ⟨g, by simp [hg], hgdrops⟩

/-- What a store without files has after some effects is the version that
was put in last. -/
theorem foldl_after_eq_some_iff (effects : List FileEffect) (version : Source) :
    effects.foldl (fun v e => e.after v) none = some version ↔ LastPut effects version := by
  induction effects using List.reverseRecOn with
  | nil => simp [LastPut]
  | append_singleton effects e ih =>
    rw [List.foldl_append, List.foldl_cons, List.foldl_nil, lastPut_append_singleton_iff, ← ih,
      after]
    cases hputs : e.puts.getLast? with
    | some last =>
      have hne : e.puts ≠ [] := by
        intro hnil
        simp [hnil] at hputs
      simp [hne]
    | none =>
      rw [List.getLast?_eq_none_iff] at hputs
      cases e.drops <;> simp [hputs]

theorem foldl_after_eq_none_iff (effects : List FileEffect) :
    effects.foldl (fun v e => e.after v) none = none ↔ NonePut effects := by
  induction effects using List.reverseRecOn with
  | nil => simp [NonePut]
  | append_singleton effects e ih =>
    rw [List.foldl_append, List.foldl_cons, List.foldl_nil, nonePut_append_singleton_iff, ← ih,
      after, Option.or_eq_none_iff, List.getLast?_eq_none_iff]
    cases e.drops <;> simp

end FileEffect

/-! ## Edits -/

namespace Edit

/-- What an edit does to the program's version of the file at a path. -/
def onProgram (path : String) : Edit → FileEffect
  | .putSource source => ⟨false, [source].filter (·.path = path)⟩
  | .takeSource gone => ⟨gone = path, []⟩
  | .bindTemplate .. | .bindStyle .. | .mark .. | .markComponents _ => ⟨false, []⟩
  | .putBaseline _ | .takeBaseline _ | .extendBaseline _ | .resetBaseline _ => ⟨false, []⟩

/-- What an edit does to the previous build's version of the file at a
path. -/
def onBaseline (path : String) : Edit → FileEffect
  | .putBaseline source => ⟨false, [source].filter (·.path = path)⟩
  | .takeBaseline gone => ⟨gone = path, []⟩
  | .extendBaseline sources => ⟨false, sources.filter (·.path = path)⟩
  | .resetBaseline sources => ⟨true, sources.filter (·.path = path)⟩
  | .putSource _ | .takeSource _ => ⟨false, []⟩
  | .bindTemplate .. | .bindStyle .. | .mark .. | .markComponents _ => ⟨false, []⟩

/-- The class that an edit binds to the file as to its template. -/
def templateAt? (path : String) : Edit → Option ClassId
  | .bindTemplate resource id => if resource = path then some id else none
  | _ => none

/-- The class that an edit binds to the file as to a style sheet. -/
def styleAt? (path : String) : Edit → Option ClassId
  | .bindStyle resource id => if resource = path then some id else none
  | _ => none

/-- The edit makes the file at a path a resource of a class. -/
def Binds (path : String) : Edit → Prop
  | .bindTemplate p _ | .bindStyle p _ => p = path
  | _ => False

end Edit

/-! ## Stores -/

namespace SourceMap

/-- Of the sources that are added, the last one at a path counts. -/
theorem get?_insertMany (m : SourceMap) (sources : List Source) (path : String) :
    (m.insertMany sources).get? path =
      (sources.filter (·.path = path)).getLast?.or (m.get? path) := by
  induction sources generalizing m with
  | nil => rfl
  | cons source sources ih =>
    rw [insertMany, List.foldl_cons, ← insertMany, ih, get?_insert, List.filter_cons]
    by_cases h : source.path = path
    · simp only [h, decide_true, if_true, List.getLast?_cons]
      cases (sources.filter (·.path = path)).getLast? <;> rfl
    · simp [h]

theorem get?_insert_eq_after (m : SourceMap) (source : Source) (path : String) :
    (m.insert source).get? path =
      (FileEffect.mk false ([source].filter (·.path = path))).after (m.get? path) :=
  get?_insertMany m [source] path

theorem get?_erase_eq_after (m : SourceMap) (gone path : String) :
    (m.erase gone).get? path = (FileEffect.mk (gone = path) []).after (m.get? path) := by
  rw [get?_erase, FileEffect.after]
  by_cases h : gone = path <;> simp [h]

end SourceMap

namespace Program

/-- Marking classes changes nothing but their marks. -/
theorem markAll_eq (p : Program) (sites : List (ClassId × Nat)) :
    p.markAll sites = { p with markings := (p.markAll sites).markings } := by
  induction sites generalizing p with
  | nil => rfl
  | cons site sites ih =>
    rw [markAll, List.foldl_cons, ← markAll, ih]
    rfl

theorem sources_markComponents (p : Program) (callee : String) :
    (p.markComponents callee).sources = p.sources := by
  rw [markComponents, markAll_eq]

theorem templateUsers_markComponents (p : Program) (callee path : String) :
    (p.markComponents callee).view.templateUsers path = p.view.templateUsers path := by
  rw [markComponents, markAll_eq]
  rfl

theorem styleUsers_markComponents (p : Program) (callee path : String) :
    (p.markComponents callee).view.styleUsers path = p.view.styleUsers path := by
  rw [markComponents, markAll_eq]
  rfl

/-- Binding a class makes it a user of that resource and of no other. -/
theorem toList_bind (users : Std.TreeMap String ClassSet) (path : String) (id : ClassId)
    (other : String) : ((bind users path id)[other]?.getD ∅).toList =
      if path = other then View.pushNew (users[other]?.getD ∅).toList id
      else (users[other]?.getD ∅).toList := by
  simp only [bind, Std.TreeMap.getElem?_insert, Std.LawfulEqCmp.compare_eq_iff_eq]
  by_cases h : path = other
  · rw [if_pos h, if_pos h, Option.getD_some, ClassSet.toList_insert_eq_pushNew, h]
  · rw [if_neg h, if_neg h]

end Program

namespace Workspace

/-! ## One edit -/

theorem sources_get?_step (w : Workspace) (edit : Edit) (path : String) :
    (w.step edit).2.program.sources.get? path =
      (edit.onProgram path).after (w.program.sources.get? path) := by
  cases edit with
  | putSource source => exact SourceMap.get?_insert_eq_after _ source path
  | takeSource gone => exact SourceMap.get?_erase_eq_after _ gone path
  | markComponents callee =>
    exact congrArg (·.get? path) (w.program.sources_markComponents callee)
  | _ => rfl

theorem baseline_get?_step (w : Workspace) (edit : Edit) (path : String) :
    (w.step edit).2.baseline.get? path =
      (edit.onBaseline path).after (w.baseline.get? path) := by
  cases edit with
  | putBaseline source => exact SourceMap.get?_insert_eq_after _ source path
  | takeBaseline gone => exact SourceMap.get?_erase_eq_after _ gone path
  | extendBaseline sources => exact SourceMap.get?_insertMany _ sources path
  | resetBaseline sources => exact SourceMap.get?_insertMany .empty sources path
  | _ => rfl

theorem templateUsers_step (w : Workspace) (edit : Edit) (path : String) :
    (w.step edit).2.program.view.templateUsers path =
      (edit.templateAt? path).toList.foldl View.pushNew (w.program.view.templateUsers path) := by
  cases edit with
  | bindTemplate resource id =>
    by_cases h : resource = path <;>
      simp [step, Program.bindTemplate, Program.view, Program.toList_bind, Edit.templateAt?, h]
  | markComponents callee => exact w.program.templateUsers_markComponents callee path
  | _ => rfl

theorem styleUsers_step (w : Workspace) (edit : Edit) (path : String) :
    (w.step edit).2.program.view.styleUsers path =
      (edit.styleAt? path).toList.foldl View.pushNew (w.program.view.styleUsers path) := by
  cases edit with
  | bindStyle resource id =>
    by_cases h : resource = path <;>
      simp [step, Program.bindStyle, Program.view, Program.toList_bind, Edit.styleAt?, h]
  | markComponents callee => exact w.program.styleUsers_markComponents callee path
  | _ => rfl

/-- A file stays unused as long as no edit makes it a resource. -/
theorem unused_step_iff (w : Workspace) (edit : Edit) (path : String) :
    (w.step edit).2.program.view.Unused path ↔
      ¬ edit.Binds path ∧ w.program.view.Unused path := by
  rw [View.Unused, View.Unused, templateUsers_step, styleUsers_step]
  cases edit with
  | bindTemplate resource id =>
    by_cases h : resource = path <;>
      simp [Edit.templateAt?, Edit.styleAt?, Edit.Binds, pushNew_ne_nil, h]
  | bindStyle resource id =>
    by_cases h : resource = path <;>
      simp [Edit.templateAt?, Edit.styleAt?, Edit.Binds, pushNew_ne_nil, h]
  | _ => simp [Edit.templateAt?, Edit.styleAt?, Edit.Binds]

/-! ## A history of edits -/

/-- What is seen of a workspace after a history follows from what each edit
does to what is seen. -/
theorem observe_run {σ : Type} (observe : Workspace → σ) {effect : σ → Edit → σ}
    (hstep : ∀ w edit, observe (w.step edit).2 = effect (observe w) edit) (w : Workspace)
    (edits : List Edit) : observe (w.run edits) = edits.foldl effect (observe w) :=
  (List.foldl_hom observe fun w edit => (hstep w edit).symm).symm

theorem sources_get?_run (w : Workspace) (edits : List Edit) (path : String) :
    (w.run edits).program.sources.get? path =
      (edits.map (·.onProgram path)).foldl (fun v e => e.after v)
        (w.program.sources.get? path) := by
  rw [List.foldl_map]
  exact observe_run (·.program.sources.get? path)
    (fun w edit => w.sources_get?_step edit path) w edits

theorem baseline_get?_run (w : Workspace) (edits : List Edit) (path : String) :
    (w.run edits).baseline.get? path =
      (edits.map (·.onBaseline path)).foldl (fun v e => e.after v) (w.baseline.get? path) := by
  rw [List.foldl_map]
  exact observe_run (·.baseline.get? path) (fun w edit => w.baseline_get?_step edit path) w edits

/-- No version is stored before the first edit. -/
theorem sources_get?_run_empty (edits : List Edit) (path : String) :
    (empty.run edits).program.sources.get? path =
      (edits.map (·.onProgram path)).foldl (fun v e => e.after v) none := by
  have hempty : empty.program.sources.get? path = none := SourceMap.get?_empty path
  rw [sources_get?_run, hempty]

theorem baseline_get?_run_empty (edits : List Edit) (path : String) :
    (empty.run edits).baseline.get? path =
      (edits.map (·.onBaseline path)).foldl (fun v e => e.after v) none := by
  have hempty : empty.baseline.get? path = none := SourceMap.get?_empty path
  rw [baseline_get?_run, hempty]

theorem unused_run_iff (w : Workspace) (edits : List Edit) (path : String) :
    (w.run edits).program.view.Unused path ↔
      (∀ edit ∈ edits, ¬ edit.Binds path) ∧ w.program.view.Unused path := by
  induction edits generalizing w with
  | nil => simp [run]
  | cons edit edits ih =>
    rw [run, List.foldl_cons, ← run, ih, unused_step_iff, List.forall_mem_cons]
    tauto

theorem unused_empty (path : String) : empty.program.view.Unused path := ⟨rfl, rfl⟩

/-- A file that is no resource is judged by its two versions. -/
theorem judge_eq_of_unused (w : Workspace) {path : String}
    (unused : w.program.view.Unused path) : w.judge [path] =
      match w.baseline.get? path, w.program.sources.get? path with
      | none, _ => .rebuild ⟨path, .notInBaseline⟩
      | some _, none => .rebuild ⟨path, .notInProgram⟩
      | some old, some new =>
        match Revision.swaps ⟨old, new⟩ w.program.view.metadataIndex? with
        | .ok ids => .swap (.ofList ids)
        | .error refusal => .rebuild ⟨path, .refused refusal⟩ := by
  have hpath := w.program.view.judgePath_of_unused w.baseline unused
  have hsource : w.program.view.source? path = w.program.sources.get? path := rfl
  rw [hsource] at hpath
  rw [judge, View.judge, View.judgeFrom, hpath]
  cases w.baseline.get? path with
  | none => rfl
  | some old =>
    cases w.program.sources.get? path with
    | none => rfl
    | some new =>
      simp only
      cases Revision.swaps ⟨old, new⟩ w.program.view.metadataIndex? <;> rfl

section

open FileEffect (LastPut NonePut)

variable (edits : List Edit)

theorem sources_get?_eq_some_iff (path : String) (source : Source) :
    (empty.run edits).program.sources.get? path = some source ↔
      LastPut (edits.map (·.onProgram path)) source := by
  rw [sources_get?_run_empty, FileEffect.foldl_after_eq_some_iff]

theorem baseline_get?_eq_some_iff (path : String) (source : Source) :
    (empty.run edits).baseline.get? path = some source ↔
      LastPut (edits.map (·.onBaseline path)) source := by
  rw [baseline_get?_run_empty, FileEffect.foldl_after_eq_some_iff]

theorem sources_get?_eq_none_iff (path : String) :
    (empty.run edits).program.sources.get? path = none ↔
      NonePut (edits.map (·.onProgram path)) := by
  rw [sources_get?_run_empty, FileEffect.foldl_after_eq_none_iff]

theorem baseline_get?_eq_none_iff (path : String) :
    (empty.run edits).baseline.get? path = none ↔
      NonePut (edits.map (·.onBaseline path)) := by
  rw [baseline_get?_run_empty, FileEffect.foldl_after_eq_none_iff]

/-- **The versions that are compared.** After any history of edits, each
store has at a path the version that was put in last, unless it was
dropped since, and that version's own path is the path. Edits that put in
or remove one version give out the one that the store has before. A file
that no edit has made a resource asks for a rebuild if the previous build
has no version of it, else if the program has none; else the last versions
in the two stores are compared, and that decides. -/
theorem judge_by_last_versions :
    (∀ path source, ((empty.run edits).baseline.get? path = some source ↔
          LastPut (edits.map (·.onBaseline path)) source) ∧
        ((empty.run edits).program.sources.get? path = some source ↔
          LastPut (edits.map (·.onProgram path)) source)) ∧
      (∀ source, ((empty.run edits).step (.putBaseline source)).1 =
            .previous ((empty.run edits).baseline.get? source.path) ∧
          ((empty.run edits).step (.putSource source)).1 =
            .previous ((empty.run edits).program.sources.get? source.path)) ∧
      (∀ path, ((empty.run edits).step (.takeBaseline path)).1 =
            .previous ((empty.run edits).baseline.get? path) ∧
          ((empty.run edits).step (.takeSource path)).1 =
            .previous ((empty.run edits).program.sources.get? path)) ∧
      ∀ path, (∀ edit ∈ edits, ¬ edit.Binds path) →
        ((empty.run edits).judge [path] = .rebuild ⟨path, .notInBaseline⟩ ↔
            NonePut (edits.map (·.onBaseline path))) ∧
        ((empty.run edits).judge [path] = .rebuild ⟨path, .notInProgram⟩ ↔
            ¬ NonePut (edits.map (·.onBaseline path)) ∧
              NonePut (edits.map (·.onProgram path))) ∧
        (¬ NonePut (edits.map (·.onBaseline path)) →
          ¬ NonePut (edits.map (·.onProgram path)) →
          ∃ old new, LastPut (edits.map (·.onBaseline path)) old ∧
            LastPut (edits.map (·.onProgram path)) new ∧ old.path = path ∧ new.path = path ∧
            (empty.run edits).judge [path] =
              match Revision.swaps ⟨old, new⟩ (empty.run edits).program.view.metadataIndex? with
              | .ok ids => .swap (.ofList ids)
              | .error refusal => .rebuild ⟨path, .refused refusal⟩) := by
  refine ⟨fun path source => ⟨baseline_get?_eq_some_iff edits path source,
    sources_get?_eq_some_iff edits path source⟩, fun source => ⟨rfl, rfl⟩,
    fun path => ⟨rfl, rfl⟩, fun path unbound => ?_⟩
  have unused : (empty.run edits).program.view.Unused path :=
    (unused_run_iff empty edits path).2 ⟨unbound, unused_empty path⟩
  rw [← baseline_get?_eq_none_iff edits, ← sources_get?_eq_none_iff edits,
    judge_eq_of_unused _ unused]
  cases hold : (empty.run edits).baseline.get? path with
  | none => simp
  | some old =>
    have hlast := (baseline_get?_eq_some_iff edits path old).1 hold
    cases hnew : (empty.run edits).program.sources.get? path with
    | none => simp
    | some new =>
      have hlast' := (sources_get?_eq_some_iff edits path new).1 hnew
      refine ⟨?_, ?_, fun _ _ => ⟨old, new, hlast, hlast', SourceMap.path_of_get? hold,
        SourceMap.path_of_get? hnew, rfl⟩⟩
      · simp only
        split <;> simp
      · simp only
        split <;> simp

end

/-- A note that is one statement. -/
def note (text : String) : Source := ⟨"note.ts", text, [⟨⟨0, 4⟩, none⟩]⟩

/-- A history in which the previous build is taken anew, from two versions
of the note and a file that the program never has. -/
def noteEdits : List Edit :=
  [.putBaseline (note "lost"), .bindStyle "note.css" ⟨0⟩,
    .resetBaseline [note "less", ⟨"else.ts", "", []⟩, note "kept"], .putSource (note "kept")]

theorem judge_by_last_versions_note :
    (∀ edit ∈ noteEdits, ¬ edit.Binds "note.ts") ∧
    (∀ edit ∈ noteEdits, ¬ edit.Binds "else.ts") ∧
    (empty.run noteEdits).baseline.get? "note.ts" = some (note "kept") ∧
    (empty.run noteEdits).judge ["note.ts"] = .swap (.ofList []) ∧
    (empty.run noteEdits).judge ["else.ts"] = .rebuild ⟨"else.ts", .notInProgram⟩ ∧
    ((empty.run noteEdits).step (.takeBaseline "note.ts")).1 =
      .previous (some (note "kept")) := by
  have hnote : ∀ edit ∈ noteEdits, ¬ edit.Binds "note.ts" := by simp [noteEdits, Edit.Binds]
  have helse : ∀ edit ∈ noteEdits, ¬ edit.Binds "else.ts" := by simp [noteEdits, Edit.Binds]
  obtain ⟨hversions, -, hreplies, hjudge⟩ := judge_by_last_versions noteEdits
  have hkept : (empty.run noteEdits).baseline.get? "note.ts" = some (note "kept") := by
    refine (hversions "note.ts" _).1.2 ⟨(noteEdits.map (·.onBaseline "note.ts")).take 2, _,
      (noteEdits.map (·.onBaseline "note.ts")).drop 3, rfl, rfl, ?_⟩
    simp [noteEdits, Edit.onBaseline]
  have hnew : (empty.run noteEdits).program.sources.get? "note.ts" = some (note "kept") :=
    (hversions "note.ts" _).2.2
      ⟨(noteEdits.map (·.onProgram "note.ts")).take 3, _, [], rfl, rfl, by simp⟩
  have hfound : ∀ path source, (empty.run noteEdits).baseline.get? path = some source →
      ¬ FileEffect.NonePut (noteEdits.map (·.onBaseline path)) := by
    intro path source hsource hnone
    rw [← baseline_get?_eq_none_iff, hsource] at hnone
    cases hnone
  refine ⟨hnote, helse, hkept, ?_, ?_, ?_⟩
  · have hprogram : ¬ FileEffect.NonePut (noteEdits.map (·.onProgram "note.ts")) := by
      rw [← sources_get?_eq_none_iff, hnew]
      simp
    obtain ⟨old, new, hold, hnew', -, -, hverdict⟩ :=
      (hjudge "note.ts" hnote).2.2 (hfound _ _ hkept) hprogram
    cases hkept.symm.trans ((hversions "note.ts" old).1.2 hold)
    cases hnew.symm.trans ((hversions "note.ts" new).2.2 hnew')
    exact hverdict
  · have helseKept : (empty.run noteEdits).baseline.get? "else.ts" =
        some ⟨"else.ts", "", []⟩ := rfl
    refine (hjudge "else.ts" helse).2.1.2 ⟨hfound _ _ helseKept, ?_⟩
    exact (sources_get?_eq_none_iff noteEdits "else.ts").1 rfl
  · rw [(hreplies "note.ts").1, hkept]

end Workspace

end HotSwap
