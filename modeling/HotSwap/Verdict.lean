/-
HotSwap.Verdict — whether a batch of modified files can be swapped into
the running program or asks for a full rebuild.

A modified file is either a resource of some classes, which are then
rendered anew, or a source, whose previous version is compared with the
one in the program. The first file that cannot be swapped in decides for a
rebuild, whatever the files before it would have allowed.
-/
import HotSwap.ClassSet
import HotSwap.FileDiff
import HotSwap.SourceMap

namespace HotSwap

/-- Why one file asks for a rebuild. -/
inductive RebuildReason where
  /-- There is no previous version to compare with. -/
  | notInBaseline
  /-- The program does not hold the file any more. -/
  | notInProgram
  | refused (refusal : Refusal)
  deriving DecidableEq, Repr

/-- The phrase that names a reason. -/
def RebuildReason.message : RebuildReason → String
  | notInBaseline => "no stale version of the file"
  | notInProgram => "file missing from the updated program"
  | refused refusal => refusal.message

/-- The file that asks for a rebuild, and why. -/
structure Rebuild where
  path : String
  reason : RebuildReason
  deriving DecidableEq, Repr

/-- The file and the reason, with a colon between them. -/
def Rebuild.message (r : Rebuild) : String := r.path ++ ": " ++ r.reason.message

/-- What to do about a batch of modified files. -/
inductive Verdict where
  /-- Render these classes anew. -/
  | swap (classes : ClassSet)
  | rebuild (cause : Rebuild)

namespace Verdict

/-- The classes to render anew. A rebuild names none. -/
def classes : Verdict → ClassSet
  | swap classes => classes
  | rebuild _ => ∅

/-- The two verdicts are the same, with classes in any order. -/
def same : Verdict → Verdict → Bool
  | swap s, swap t => s.same t
  | rebuild a, rebuild b => a = b
  | _, _ => false

end Verdict

namespace View

/-- The classes that one modified file touches. A file that any class uses
as a resource is not looked up as a source. -/
def judgePath (v : View) (baseline : SourceMap) (path : String) :
    Except RebuildReason (List ClassId) :=
  match v.resourceUsers path with
  | [] =>
    match baseline.get? path, v.source? path with
    | none, _ => .error .notInBaseline
    | some _, none => .error .notInProgram
    | some old, some new =>
      match Revision.swaps ⟨old, new⟩ v.metadataIndex? with
      | .ok ids => .ok ids
      | .error refusal => .error (.refused refusal)
  | users => .ok users

/-- Judge the remaining files of a batch, with the classes that the
earlier ones touch. -/
def judgeFrom (v : View) (baseline : SourceMap) (touched : ClassSet) :
    List String → Verdict
  | [] => .swap touched
  | path :: rest =>
    match v.judgePath baseline path with
    | .ok ids => v.judgeFrom baseline (touched.insertMany ids) rest
    | .error reason => .rebuild ⟨path, reason⟩

/-- Judge a batch of modified files against the sources of the previous
build. -/
def judge (v : View) (baseline : SourceMap) (paths : List String) : Verdict :=
  v.judgeFrom baseline ∅ paths

end View

end HotSwap
