/-
HotSwap.Metadata.Change — what an edit did to a component's metadata.

Live fields are compared by name and last value (`HotSwap.Metadata.Latest`).
Fixed fields have to stay the same one for one and in order: the older
ones wait in a queue (`Pending`), and each newer one is matched with the
head. Both comparisons run in one pass over the newer literal, so the
first property that does not fit decides what is reported.
-/
import HotSwap.Metadata.Field
import HotSwap.Metadata.Latest

namespace HotSwap

/-- Why metadata cannot be swapped in a running program. -/
inductive Obstacle where
  /-- A property is not a plain assignment to a static name. -/
  | notAField
  /-- A fixed field differs from the older one at its place. -/
  | fixedChanged
  | fixedAdded
  | fixedRemoved
  deriving DecidableEq, Repr

/-- The phrase that names an obstacle. -/
def Obstacle.message : Obstacle → String
  | notAField => "metadata property is not a plain assignment"
  | fixedChanged => "unsupported metadata field changed"
  | fixedAdded => "unsupported metadata field added"
  | fixedRemoved => "unsupported metadata field removed"

/-! ## Fixed fields -/

/-- The older literal's fixed fields that are still to be matched, as
spans of its text. -/
structure Pending where
  text : String
  queue : List Span

namespace Pending

/-- No field waits. -/
def empty (text : String) : Pending := ⟨text, []⟩

/-- Let one more field wait. -/
def push (p : Pending) (field : Span) : Pending :=
  { p with queue := p.queue ++ [field] }

/-- Match a newer field with the head of the queue. The head leaves the
queue whether or not the two are the same. -/
def matchNext (p : Pending) (field : Excerpt) : Except Obstacle Unit × Pending :=
  match p.queue with
  | [] => (.error .fixedAdded, p)
  | head :: rest =>
    (if Excerpt.same ⟨p.text, head⟩ field then .ok () else .error .fixedChanged,
      { p with queue := rest })

/-- No field may be left waiting at the end. -/
def finish (p : Pending) : Except Obstacle Unit :=
  if p.queue.isEmpty then .ok () else .error .fixedRemoved

/-- One move in a comparison of fixed fields. -/
inductive Move where
  /-- An older field comes to wait. -/
  | push (field : Span)
  /-- A newer field is matched. -/
  | matchNext (field : Excerpt)
  deriving DecidableEq, Repr

/-- The fields that wait after a move. A match has an answer. -/
def step (p : Pending) : Move → Option (Except Obstacle Unit) × Pending
  | .push field => (none, p.push field)
  | .matchNext field =>
    let (matched, p) := p.matchNext field
    (some matched, p)

/-- Make moves one after another, and collect the answers of the
matches. -/
def run (p : Pending) : List Move → List (Except Obstacle Unit) × Pending
  | [] => ([], p)
  | move :: rest =>
    let (answer, p) := p.step move
    let (answers, p) := p.run rest
    (answer.toList ++ answers, p)

end Pending

/-! ## Both kinds together -/

/-- What an edit did to a metadata literal. -/
inductive Change where
  /-- The fields and their values are the same. -/
  | unchanged
  /-- Live fields changed, and nothing else did. -/
  | live
  | blocked (obstacle : Obstacle)
  deriving DecidableEq, Repr

namespace Metadata

/-- The property as a field, or the obstacle that it is none. -/
def fieldOf (property : Property) : Except Obstacle Field :=
  match property.field? with
  | some field => .ok field
  | none => .error .notAField

/-- Sort the older literal's fields into those that wait to be matched and
the last values of the live ones. -/
def sortOld (pending : Pending) (latest : Latest) :
    List Property → Except Obstacle (Pending × Latest)
  | [] => .ok (pending, latest)
  | property :: rest => do
    let field ← fieldOf property
    if field.isLive then sortOld pending (latest.record field.name field.value) rest
    else sortOld (pending.push field.span) latest rest

/-- Read the newer literal: each fixed field is matched with the next one
that waits, and the last values of the live ones are kept. -/
def matchNew (text : String) (pending : Pending) (latest : Latest) :
    List Property → Except Obstacle Latest
  | [] => do
    pending.finish
    return latest
  | property :: rest => do
    let field ← fieldOf property
    if field.isLive then matchNew text pending (latest.record field.name field.value) rest
    else
      let (matched, pending) := pending.matchNext ⟨text, field.span⟩
      matched
      matchNew text pending latest rest

/-- The last values of the live fields on both sides, if nothing but them
can differ. -/
def liveSides (old new : Metadata) : Except Obstacle (Latest × Latest) := do
  let (pending, oldValues) ← sortOld (.empty old.text) (.empty old.text) old.properties
  let newValues ← matchNew new.text pending (.empty new.text) new.properties
  return (oldValues, newValues)

/-- How the metadata changed from `old` to `new`. -/
def change (old new : Metadata) : Change :=
  match liveSides old new with
  | .error obstacle => .blocked obstacle
  | .ok (oldValues, newValues) => if oldValues.agree newValues then .unchanged else .live

end Metadata

end HotSwap
