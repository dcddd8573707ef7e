/-
HotSwap.Draft.Manuscript — a file as it is written, one step at a time.

A manuscript holds what has been written so far: the text, the statements
that stand in it, and the id that the next class will get. A step appends
one statement, and a step that declares a class answers with the id of the
class. When it is finished, a manuscript is checked like any other source.
-/
import HotSwap.Draft.Layout

namespace HotSwap.Draft

open HotSwap.Layout

/-- A file as far as it has been written. -/
structure Manuscript where
  path : String
  text : String
  statements : List HotSwap.Statement
  nextId : ClassId

namespace Manuscript

/-- A file of which nothing has been written. Its classes will be numbered
from `firstId` on. -/
def start (path : String) (firstId : ClassId) : Manuscript := ⟨path, "", [], firstId⟩

/-- What comes between the text so far and the next statement. Only
statements that have been written count, also if they have no text. -/
def separator (m : Manuscript) : String := if m.statements.isEmpty then "" else "\n"

/-- Write one statement at the end of the text. -/
def append (m : Manuscript) (l : Layout HotSwap.Statement) : Manuscript :=
  { m with
    text := m.text ++ m.separator ++ l.text
    statements := m.statements ++ [l.place (m.text ++ m.separator).utf8ByteSize] }

/-- Write a statement that is taken as it is. -/
def write (m : Manuscript) (piece : String) : Manuscript :=
  m.append ((⟨·, none⟩) <$> verbatim piece)

/-- Write a class and answer with its id. -/
def declare (m : Manuscript) (c : Class) : ClassId × Manuscript :=
  (m.nextId,
    { m.append ((fun c => ⟨c.span, some c⟩) <$> c.layout m.nextId) with nextId := m.nextId.next })

/-- Take one step. The answer is the id of the class, if it declares one. -/
def step (m : Manuscript) : Statement → Option ClassId × Manuscript
  | .verbatim piece => (none, m.write piece)
  | .declare c =>
    let (id, m) := m.declare c
    (some id, m)

/-- Take steps one after another, and collect their answers. -/
def run (m : Manuscript) : List Statement → List (Option ClassId) × Manuscript
  | [] => ([], m)
  | step :: rest =>
    let (answer, m) := m.step step
    let (answers, m) := m.run rest
    (answer :: answers, m)

/-- The file, unless its text is too large for offsets. -/
def finish (m : Manuscript) : Except Source.Defect Source :=
  Source.validated ⟨m.path, m.text, m.statements⟩

end Manuscript

end HotSwap.Draft
