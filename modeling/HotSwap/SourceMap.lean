/-
HotSwap.SourceMap — sources by their own path.

A map never holds a file under a path that is not its own: the type
carries the proof. Putting a file in replaces the version that was there,
so of several versions with one path the last one stays.
-/
import Std.Data.TreeMap
import HotSwap.Source

namespace HotSwap

/-- At most one version of each file, found by its path. -/
structure SourceMap where
  files : Std.TreeMap String Source
  path_eq : ∀ (path : String) (source : Source),
    files[path]? = some source → source.path = path

namespace SourceMap

/-- The map without files. -/
def empty : SourceMap := ⟨∅, by simp⟩

instance : EmptyCollection SourceMap := ⟨empty⟩

instance : Inhabited SourceMap := ⟨empty⟩

/-- The version at a path. -/
def get? (m : SourceMap) (path : String) : Option Source := m.files[path]?

/-- Whether the map has a version at a path. -/
def contains (m : SourceMap) (path : String) : Bool := m.files.contains path

/-- The number of files. -/
def size (m : SourceMap) : Nat := m.files.size

/-- The map has no files. -/
def isEmpty (m : SourceMap) : Bool := m.files.isEmpty

/-- The sources, in the order of their paths. -/
def toList (m : SourceMap) : List Source := m.files.values

/-- Add a source, in place of the version that its path has. -/
def insert (m : SourceMap) (source : Source) : SourceMap where
  files := m.files.insert source.path source
  path_eq := by
    intro path s h
    rw [Std.TreeMap.getElem?_insert] at h
    split at h
    · rename_i hp
      rw [← Option.some.inj h]
      exact Std.LawfulEqCmp.eq_of_compare hp
    · exact m.path_eq path s h

/-- Remove the version at a path, if there is one. -/
def erase (m : SourceMap) (path : String) : SourceMap where
  files := m.files.erase path
  path_eq := by
    intro p s h
    rw [Std.TreeMap.getElem?_erase] at h
    split at h
    · simp at h
    · exact m.path_eq p s h

/-- Add sources from the first to the last. -/
def insertMany (m : SourceMap) (sources : List Source) : SourceMap :=
  sources.foldl insert m

/-- The map of some sources; the last of each path counts. -/
def ofList (sources : List Source) : SourceMap := empty.insertMany sources

/-- Add a source and give out the version that it replaces. -/
def put (m : SourceMap) (source : Source) : Option Source × SourceMap :=
  (m.get? source.path, m.insert source)

/-- Remove the version at a path and give it out. -/
def take (m : SourceMap) (path : String) : Option Source × SourceMap :=
  (m.get? path, m.erase path)

/-! ## Lookup -/

theorem path_of_get? {m : SourceMap} {path : String} {source : Source}
    (h : m.get? path = some source) : source.path = path :=
  m.path_eq path source h

@[simp] theorem get?_empty (path : String) : empty.get? path = none := by
  simp [get?, empty]

theorem get?_insert (m : SourceMap) (source : Source) (path : String) :
    (m.insert source).get? path =
      if source.path = path then some source else m.get? path := by
  simp [get?, insert, Std.TreeMap.getElem?_insert]

theorem get?_erase (m : SourceMap) (gone path : String) :
    (m.erase gone).get? path = if gone = path then none else m.get? path := by
  simp [get?, erase, Std.TreeMap.getElem?_erase]

end SourceMap

end HotSwap
