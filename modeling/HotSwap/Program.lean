/-
HotSwap.Program — a program kept in tables: its files, the resource files
that its classes use, and the marks on its classes.

Marks belong to class ids and not to files. They stay when a file is
replaced or removed, and marking components by the name of a decorator
runs over all files that the program has at that time.
-/
import HotSwap.ClassSet
import HotSwap.SourceMap
import HotSwap.View

namespace HotSwap

/-- A program in tables. -/
structure Program where
  sources : SourceMap
  templates : Std.TreeMap String ClassSet
  styles : Std.TreeMap String ClassSet
  markings : Std.TreeMap ClassId Marking

/-- The class's first call decorator with the callee, as an index. The
callee is compared as a string of the class's own file. -/
def Class.callIndex? (c : Class) (source : Source) (callee : String) : Option Nat :=
  c.decorators.findIdx? fun decorator =>
    match decorator.call? with
    | some call => source.string? call.callee = some callee
    | none => false

/-- The classes of the file that have a call decorator with the callee,
each with the index of the first one. -/
def Source.callSites (s : Source) (callee : String) : List (ClassId × Nat) :=
  s.classes.filterMap fun c => (c.callIndex? s callee).map (c.id, ·)

namespace Program

/-- The program without files. -/
def empty : Program := ⟨∅, ∅, ∅, ∅⟩

instance : Inhabited Program := ⟨empty⟩

/-- Add a class to the users of a resource file. -/
def bind (users : Std.TreeMap String ClassSet) (path : String) (id : ClassId) :
    Std.TreeMap String ClassSet :=
  users.insert path ((users[path]?.getD ∅).insert id)

/-- Record that a class renders the template at a path. -/
def bindTemplate (p : Program) (path : String) (id : ClassId) : Program :=
  { p with templates := bind p.templates path id }

/-- Record that a class uses the style sheet at a path. -/
def bindStyle (p : Program) (path : String) (id : ClassId) : Program :=
  { p with styles := bind p.styles path id }

/-- Record what has been found out about a class. -/
def mark (p : Program) (id : ClassId) (marking : Marking) : Program :=
  { p with markings := p.markings.insert id marking }

/-- Mark each class as a component whose metadata is the decorator at the
index. -/
def markAll (p : Program) (sites : List (ClassId × Nat)) : Program :=
  sites.foldl (fun p (id, index) => p.mark id ⟨index, true⟩) p

/-- The classes of the program that have a call decorator with the callee,
each with the index of the first one. -/
def callSites (p : Program) (callee : String) : List (ClassId × Nat) :=
  p.sources.toList.flatMap (·.callSites callee)

/-- Mark every class that has a call decorator with the callee. -/
def markComponents (p : Program) (callee : String) : Program :=
  p.markAll (p.callSites callee)

/-- The program as a hot update sees it. -/
def view (p : Program) : View where
  templateUsers path := (p.templates[path]?.getD ∅).toList
  styleUsers path := (p.styles[path]?.getD ∅).toList
  source? := p.sources.get?
  marking? c := p.markings[c.id]?

end Program

end HotSwap
