/-
HotSwap.FileDiff — whether an edit of one file can be swapped into the
running program, and which components it touches.

The statements of the two versions are compared place by place. Each has
to keep its text, except a class that the program knows as a component:
its header and its members have to stay the same, while the live fields of
its metadata may change. The first place that does not fit is reported
with its index.
-/
import HotSwap.Metadata.Change
import HotSwap.View

namespace HotSwap

/-- Why an edit cannot be swapped in. -/
inductive Cause where
  /-- The file has more or fewer statements than before. -/
  | statementCount (old new : Nat)
  /-- Something that is not a class stands where a class was. -/
  | classReplaced
  /-- A statement that is not a component's class has another text. -/
  | textChanged
  | renamed
  | heritageChanged
  | typeParamsChanged
  | modifiersChanged
  | decoratorCount
  | severalDecorators
  /-- The class has no decorator at the index of its metadata. -/
  | noSuchDecorator
  /-- The decorator is not a call with one object literal. -/
  | decoratorShape
  | calleeChanged
  | metadata (obstacle : Obstacle)
  | membersChanged
  deriving DecidableEq, Repr

/-- The phrase that names a cause. -/
def Cause.message : Cause → String
  | statementCount old new =>
    "statement count changed from " ++ toString old ++ " to " ++ toString new
  | classReplaced => "class declaration replaced"
  | textChanged => "statement text changed"
  | renamed => "class renamed"
  | heritageChanged => "heritage clauses changed"
  | typeParamsChanged => "type parameters changed"
  | modifiersChanged => "class modifiers changed"
  | decoratorCount => "decorator count changed"
  | severalDecorators => "component class has more than one decorator"
  | noSuchDecorator => "metadata decorator index out of range"
  | decoratorShape => "component decorator is not a call with one object literal"
  | calleeChanged => "decorator callee changed"
  | metadata obstacle => obstacle.message
  | membersChanged => "class members changed"

/-- A cause and the index of the statement that it concerns. A changed
number of statements concerns none. -/
structure Refusal where
  statement : Option Nat
  cause : Cause
  deriving DecidableEq, Repr

/-- The cause, and the statement that it concerns. -/
def Refusal.message (r : Refusal) : String :=
  match r.statement with
  | some index => r.cause.message ++ " (statement " ++ toString index ++ ")"
  | none => r.cause.message

/-- Two versions of one file. -/
structure Revision where
  old : Source
  new : Source

namespace Revision

/-- A span of the old tree and one of the new cover the same bytes. -/
def same (r : Revision) (a b : Span) : Bool := (r.old.excerpt a).same (r.new.excerpt b)

/-- Two optional lists are both absent or cover the same bytes. -/
def sameLists {α : Type} (r : Revision) (a b : Option (Delimited α)) : Bool :=
  Excerpt.sameOptional (a.map (r.old.excerpt ·.span)) (b.map (r.new.excerpt ·.span))

/-- Fail with the cause unless the condition holds. -/
def ensure (condition : Bool) (cause : Cause) : Except Cause Unit :=
  if condition then .ok () else .error cause

/-- The value, or the cause if there is none. -/
def require {α : Type} (value : Option α) (cause : Cause) : Except Cause α :=
  match value with
  | some a => .ok a
  | none => .error cause

/-- Two statements have the same text. -/
def checkText (r : Revision) (a b : Span) : Except Cause Unit :=
  ensure (r.same a b) .textChanged

/-- The name, heritage, type parameters and modifiers stay the same. Of
the modifiers only their number and which keywords they are counts. -/
def checkHeader (r : Revision) (old new : Class) : Except Cause Unit := do
  ensure (old.nameText? = new.nameText?) .renamed
  ensure (r.sameLists old.heritage new.heritage) .heritageChanged
  ensure (r.sameLists old.typeParams new.typeParams) .typeParamsChanged
  ensure (old.modifiers.length = new.modifiers.length ∧ old.keywords = new.keywords)
    .modifiersChanged

/-- Compare a component's only decorator, whose metadata is at `index`,
and its members. The answer is whether live fields changed. -/
def checkComponent (r : Revision) (old new : Class) (index : Nat) : Except Cause Bool := do
  ensure (old.decorators.length = new.decorators.length) .decoratorCount
  ensure (old.decorators.length ≤ 1) .severalDecorators
  let oldDecorator ← require old.decorators[index]? .noSuchDecorator
  let newDecorator ← require new.decorators[index]? .noSuchDecorator
  let oldCall ← require oldDecorator.call? .decoratorShape
  let newCall ← require newDecorator.call? .decoratorShape
  let oldProperties ← require oldCall.soleObject? .decoratorShape
  let newProperties ← require newCall.soleObject? .decoratorShape
  ensure (r.same oldCall.callee newCall.callee) .calleeChanged
  match Metadata.change ⟨r.old.text, oldProperties⟩ ⟨r.new.text, newProperties⟩ with
  | .blocked obstacle => throw (.metadata obstacle)
  | change =>
    ensure (r.same old.members.span new.members.span) .membersChanged
    return change = .live

/-- Compare the statements at one place. The answer is the class there, if
it is a component whose live fields changed. -/
def checkStatement (r : Revision) (metadataIndex? : Class → Option Nat)
    (old new : Statement) : Except Cause (Option ClassId) := do
  match old.declared, new.declared with
  | none, _ =>
    r.checkText old.span new.span
    return none
  | some _, none => throw .classReplaced
  | some oldClass, some newClass =>
    r.checkHeader oldClass newClass
    match metadataIndex? newClass with
    | none =>
      r.checkText old.span new.span
      return none
    | some index =>
      let swapped ← r.checkComponent oldClass newClass index
      return if swapped then some newClass.id else none

/-- Compare statements place by place, the first of them at `index`. -/
def checkStatements (r : Revision) (metadataIndex? : Class → Option Nat) (index : Nat) :
    List Statement → List Statement → Except Refusal (List ClassId)
  | old :: olds, new :: news =>
    match r.checkStatement metadataIndex? old new with
    | .error cause => .error ⟨some index, cause⟩
    | .ok swapped => do
      let rest ← r.checkStatements metadataIndex? (index + 1) olds news
      return swapped.toList ++ rest
  | _, _ => .ok []

/-- The components to swap, in statement order, or the first reason why
the edit cannot be swapped in. -/
def swaps (r : Revision) (metadataIndex? : Class → Option Nat) :
    Except Refusal (List ClassId) :=
  let (old, new) := (r.old.statements, r.new.statements)
  if old.length ≠ new.length then .error ⟨none, .statementCount old.length new.length⟩
  else r.checkStatements metadataIndex? 0 old new

end Revision

end HotSwap
