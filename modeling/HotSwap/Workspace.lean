/-
HotSwap.Workspace — a program and the sources of its previous build, as
they go through a history of edits.

Edits are data, so a history is a list of them and what it leaves behind
is a fold. Each edit has a reply, which says what it replaced, removed or
counted.
-/
import HotSwap.Program
import HotSwap.Verdict

namespace HotSwap

/-- A program under edit, and what it was edited from. -/
structure Workspace where
  program : Program
  /-- The sources of the previous build. -/
  baseline : SourceMap

/-- One change to a workspace. -/
inductive Edit where
  | putSource (source : Source)
  | takeSource (path : String)
  | bindTemplate (path : String) (id : ClassId)
  | bindStyle (path : String) (id : ClassId)
  | mark (id : ClassId) (marking : Marking)
  | markComponents (callee : String)
  | putBaseline (source : Source)
  | takeBaseline (path : String)
  | extendBaseline (sources : List Source)
  /-- Forget the previous build and take these sources instead. -/
  | resetBaseline (sources : List Source)

/-- What an edit has to say about itself. -/
inductive Reply where
  /-- The version that was replaced or removed. -/
  | previous (source : Option Source)
  /-- The classes that now use the resource. -/
  | users (ids : List ClassId)
  /-- How many classes were marked, or how many sources there now are. -/
  | count (n : Nat)
  | done

namespace Workspace

/-- The workspace without files. -/
def empty : Workspace := ⟨.empty, ∅⟩

/-- The workspace after an edit, and the edit's reply. -/
def step (w : Workspace) : Edit → Reply × Workspace
  | .putSource source =>
    let (old, sources) := w.program.sources.put source
    (.previous old, { w with program := { w.program with sources } })
  | .takeSource path =>
    let (old, sources) := w.program.sources.take path
    (.previous old, { w with program := { w.program with sources } })
  | .bindTemplate path id =>
    let program := w.program.bindTemplate path id
    (.users (program.view.templateUsers path), { w with program })
  | .bindStyle path id =>
    let program := w.program.bindStyle path id
    (.users (program.view.styleUsers path), { w with program })
  | .mark id marking => (.done, { w with program := w.program.mark id marking })
  | .markComponents callee =>
    (.count (w.program.callSites callee).length,
      { w with program := w.program.markComponents callee })
  | .putBaseline source =>
    let (old, baseline) := w.baseline.put source
    (.previous old, { w with baseline })
  | .takeBaseline path =>
    let (old, baseline) := w.baseline.take path
    (.previous old, { w with baseline })
  | .extendBaseline sources =>
    let baseline := w.baseline.insertMany sources
    (.count baseline.size, { w with baseline })
  | .resetBaseline sources =>
    let baseline := SourceMap.ofList sources
    (.count baseline.size, { w with baseline })

/-- The workspace after a history of edits. -/
def run (w : Workspace) (edits : List Edit) : Workspace :=
  edits.foldl (fun w edit => (w.step edit).2) w

/-- The two versions of a file, if the workspace has both. -/
def revision? (w : Workspace) (path : String) : Option Revision := do
  return ⟨← w.baseline.get? path, ← w.program.sources.get? path⟩

/-- Judge a batch of modified files. -/
def judge (w : Workspace) (paths : List String) : Verdict :=
  w.program.view.judge w.baseline paths

end Workspace

end HotSwap
