/-
HotSwap.Proofs.ResourceUsers — the classes that use a resource file, after
a history of edits and in any other view of a program.

An edit binds at most one class to a resource (`Edit.templateAt?`,
`Edit.styleAt?`), and what a history leaves behind are the bound classes in
the order in which they came first (`templateUsers_run`, `styleUsers_run`).
Ids are left out as repetitions in three places: when a class is bound,
when the two lists are put together, and when a batch is collected. The
three together amount to one: the first occurrences in the template's
classes followed by the style sheet's (`View.eraseDups_resourceUsers`). So
no class is lost and none comes up twice (`resource_users_exact`).
-/
import HotSwap.Proofs.BatchUnion
import HotSwap.Proofs.History

namespace HotSwap

open View (pushNew)

namespace Workspace

/-! ## What a history binds -/

/-- Ids that are collected edit by edit are collected in order. -/
theorem foldl_collect (bound? : Edit → Option ClassId) (edits : List Edit) (ids : List ClassId) :
    edits.foldl (fun ids edit => (bound? edit).toList.foldl pushNew ids) ids =
      (edits.filterMap bound?).foldl pushNew ids := by
  rw [List.filterMap_eq_flatMap_toList, List.foldl_flatMap]

theorem templateUsers_run (w : Workspace) (edits : List Edit) (path : String) :
    (w.run edits).program.view.templateUsers path =
      (edits.filterMap (·.templateAt? path)).foldl pushNew
        (w.program.view.templateUsers path) := by
  rw [← foldl_collect]
  exact observe_run (·.program.view.templateUsers path)
    (fun w edit => w.templateUsers_step edit path) w edits

theorem styleUsers_run (w : Workspace) (edits : List Edit) (path : String) :
    (w.run edits).program.view.styleUsers path =
      (edits.filterMap (·.styleAt? path)).foldl pushNew (w.program.view.styleUsers path) := by
  rw [← foldl_collect]
  exact observe_run (·.program.view.styleUsers path)
    (fun w edit => w.styleUsers_step edit path) w edits

theorem templateUsers_run_empty (edits : List Edit) (path : String) :
    (empty.run edits).program.view.templateUsers path =
      (edits.filterMap (·.templateAt? path)).eraseDups := by
  have hnone : empty.program.view.templateUsers path = [] := rfl
  rw [templateUsers_run, hnone, foldl_pushNew, List.nil_append, List.removeAll_nil]

theorem styleUsers_run_empty (edits : List Edit) (path : String) :
    (empty.run edits).program.view.styleUsers path =
      (edits.filterMap (·.styleAt? path)).eraseDups := by
  have hnone : empty.program.view.styleUsers path = [] := rfl
  rw [styleUsers_run, hnone, foldl_pushNew, List.nil_append, List.removeAll_nil]

end Workspace

/-! ## Putting the lists together -/

/-- Repetitions in the second list can be left out before the lists are put
together. -/
theorem eraseDups_append_eraseDups (xs ys : List ClassId) :
    (xs ++ ys.eraseDups).eraseDups = (xs ++ ys).eraseDups := by
  have horder := ClassSet.toList_ofList xs
  calc (xs ++ ys.eraseDups).eraseDups
      = ((ClassSet.ofList xs).insertMany ys.eraseDups).toList :=
        (ClassSet.toList_insertMany_of_eraseDups horder _).symm
    _ = ((ClassSet.ofList xs).insertMany ys).toList := by
        rw [← ClassSet.toList_ofList, ClassSet.insertMany_toList_ofList]
    _ = (xs ++ ys).eraseDups := ClassSet.toList_insertMany_of_eraseDups horder ys

theorem nodup_eraseDups (ids : List ClassId) : ids.eraseDups.Nodup := by
  rw [← ClassSet.toList_ofList]
  exact ClassSet.nodup_toList _

namespace View

variable (v : View) (path : String)

theorem eraseDups_resourceUsers :
    (v.resourceUsers path).eraseDups = (v.templateUsers path ++ v.styleUsers path).eraseDups := by
  have hnew : ((v.styleUsers path).removeAll (v.templateUsers path)).removeAll
      (v.templateUsers path) = (v.styleUsers path).removeAll (v.templateUsers path) := by
    simp [removeAll_eq_filter, List.filter_filter]
  rw [v.resourceUsers_eq, eraseDups_append_eraseDups, List.eraseDups_append, hnew,
    ← List.eraseDups_append]

theorem nodup_resourceUsers (h : (v.templateUsers path).Nodup) :
    (v.resourceUsers path).Nodup := by
  have hset : ((ClassSet.ofList (v.templateUsers path)).insertMany (v.styleUsers path)).toList =
      v.resourceUsers path := by
    rw [ClassSet.toList_insertMany, ClassSet.toList_ofList, eraseDups_of_nodup h,
      v.resourceUsers_eq]
  rw [← hset]
  exact ClassSet.nodup_toList _

/-- A resource of some class is swapped in, whatever is known of it as a
source. -/
theorem judge_resource (baseline : SourceMap) (used : v.resourceUsers path ≠ []) :
    v.judge baseline [path] = .swap (.ofList (v.resourceUsers path)) := by
  rw [ne_eq, v.resourceUsers_eq_nil_iff] at used
  rw [v.judge_of_contributes baseline (.cons (.resource used) .nil), List.flatten_singleton]

end View

namespace Workspace

theorem resourceUsers_run_empty (edits : List Edit) (path : String) :
    (empty.run edits).program.view.resourceUsers path =
      (edits.filterMap (·.templateAt? path)).eraseDups ++
        ((edits.filterMap (·.styleAt? path)).filter
          fun id => id ∉ edits.filterMap (·.templateAt? path)).eraseDups := by
  have hnodup : ((empty.run edits).program.view.resourceUsers path).Nodup := by
    refine View.nodup_resourceUsers _ path ?_
    rw [templateUsers_run_empty]
    exact nodup_eraseDups _
  rw [← eraseDups_of_nodup hnodup, View.eraseDups_resourceUsers, templateUsers_run_empty,
    styleUsers_run_empty, eraseDups_append_eraseDups, List.eraseDups_append,
    eraseDups_of_nodup (nodup_eraseDups _), removeAll_eraseDups, removeAll_eq_filter]

/-- An edit that does not bind the file leaves its users alone. -/
theorem resourceUsers_step_of_not_binds (w : Workspace) {edit : Edit} {path : String}
    (h : ¬ edit.Binds path) :
    (w.step edit).2.program.view.resourceUsers path = w.program.view.resourceUsers path := by
  have htemplate : edit.templateAt? path = none := by
    cases edit <;> simp_all [Edit.templateAt?, Edit.Binds]
  have hstyle : edit.styleAt? path = none := by
    cases edit <;> simp_all [Edit.styleAt?, Edit.Binds]
  rw [View.resourceUsers, templateUsers_step, styleUsers_step, htemplate, hstyle]
  rfl

/-- **The users of a resource.** After any history of edits, a resource
file has each of its users once: the classes that were bound to it as to
their template, in the order in which they were bound first, and then those
that were only bound to it as to a style sheet, in the same way. Putting a
source in, or taking one out, changes none of them. In any view of a
program, the users are the template's classes as they are given and the
first occurrences of the other classes of the style sheet; and if there are
users, the file is swapped in for the first occurrences of both, whatever
its versions are. -/
theorem resource_users_exact :
    (∀ (edits : List Edit) (path : String),
      ((empty.run edits).program.view.resourceUsers path).Nodup ∧
        (empty.run edits).program.view.resourceUsers path =
          (edits.filterMap (·.templateAt? path)).eraseDups ++
            ((edits.filterMap (·.styleAt? path)).filter
              fun id => id ∉ edits.filterMap (·.templateAt? path)).eraseDups ∧
        (∀ source, ((empty.run edits).step (.putSource source)).2.program.view.resourceUsers path =
          (empty.run edits).program.view.resourceUsers path) ∧
        ∀ gone, ((empty.run edits).step (.takeSource gone)).2.program.view.resourceUsers path =
          (empty.run edits).program.view.resourceUsers path) ∧
      ∀ (v : View) (path : String),
        v.resourceUsers path = v.templateUsers path ++
            ((v.styleUsers path).filter fun id => id ∉ v.templateUsers path).eraseDups ∧
          ∀ baseline, v.resourceUsers path ≠ [] → ∃ classes,
            v.judge baseline [path] = .swap classes ∧
              classes.toList = (v.templateUsers path ++ v.styleUsers path).eraseDups := by
  refine ⟨fun edits path => ⟨?_, resourceUsers_run_empty edits path, fun source => ?_,
    fun gone => ?_⟩, fun v path => ⟨?_, fun baseline used => ?_⟩⟩
  · refine View.nodup_resourceUsers _ path ?_
    rw [templateUsers_run_empty]
    exact nodup_eraseDups _
  · exact resourceUsers_step_of_not_binds _ id
  · exact resourceUsers_step_of_not_binds _ id
  · rw [v.resourceUsers_eq, removeAll_eq_filter]
  · refine ⟨_, v.judge_resource path baseline used, ?_⟩
    rw [ClassSet.toList_ofList, v.eraseDups_resourceUsers]

/-- Edits that bind a file as a template and as a style sheet, some of them
again, while its source comes and goes. -/
def sharedEdits : List Edit :=
  [.bindStyle "a.css" ⟨3⟩, .bindTemplate "a.css" ⟨1⟩, .putSource ⟨"a.css", "", []⟩,
    .bindTemplate "a.css" ⟨2⟩, .bindStyle "a.css" ⟨2⟩, .bindStyle "a.css" ⟨0⟩,
    .bindTemplate "b.html" ⟨9⟩, .bindTemplate "a.css" ⟨1⟩, .takeSource "a.css",
    .bindStyle "a.css" ⟨3⟩, .putSource ⟨"a.css", "new", []⟩]

theorem resource_users_exact_sharedEdits :
    (empty.run sharedEdits).program.view.resourceUsers "a.css" = [⟨1⟩, ⟨2⟩, ⟨3⟩, ⟨0⟩] ∧
    (empty.run sharedEdits).program.view.resourceUsers "a.css" ≠ [] ∧
    ∃ classes, (empty.run sharedEdits).program.view.judge
        (.ofList [⟨"a.css", "old", [⟨⟨0, 3⟩, none⟩]⟩]) ["a.css"] = .swap classes ∧
      classes.toList = [⟨1⟩, ⟨2⟩, ⟨3⟩, ⟨0⟩] := by
  obtain ⟨hruns, hviews⟩ := resource_users_exact
  have husers := (hruns sharedEdits "a.css").2.1
  have hused : (empty.run sharedEdits).program.view.resourceUsers "a.css" ≠ [] := by
    rw [husers]
    decide
  refine ⟨?_, hused, ?_⟩
  · rw [husers]
    decide
  · obtain ⟨classes, hswap, horder⟩ := (hviews _ "a.css").2
      (.ofList [⟨"a.css", "old", [⟨⟨0, 3⟩, none⟩]⟩]) hused
    exact ⟨classes, hswap, horder.trans rfl⟩

end Workspace

end HotSwap
