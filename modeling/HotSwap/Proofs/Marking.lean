/-
HotSwap.Proofs.Marking — what marking components by the name of a
decorator leaves behind.

Marking goes through the places of a program, which are its classes with
their files. One place changes the mark of no id but its own
(`markings_markPlace`). So where ids are distinct, a class's mark is
decided at its own place, whatever the order of the places is
(`markings_markComponents`), and an id without a class keeps the mark that
it had.
-/
import HotSwap.Workspace

namespace HotSwap

/-! ## Classes with a call -/

/-- The class, which the file declares, has a call decorator with the
callee. -/
def Class.HasCall (c : Class) (s : Source) (callee : String) : Prop :=
  ∃ d ∈ c.decorators, ∃ call, d.call? = some call ∧ s.string? call.callee = some callee

theorem Class.callIndex?_eq_none_iff (c : Class) (s : Source) (callee : String) :
    c.callIndex? s callee = none ↔ ¬ c.HasCall s callee := by
  rw [callIndex?, List.findIdx?_eq_none_iff, HasCall]
  simp only [not_exists, not_and]
  refine forall₂_congr fun d _ => ?_
  cases d.call? with
  | none => simp
  | some call => simp

namespace Program

/-- The classes of the program with the files that declare them. -/
def places (p : Program) : List (Source × Class) :=
  p.sources.toList.flatMap fun s => s.classes.map (s, ·)

/-- Mark the class at a place if it has a call decorator with the
callee. -/
def markPlace (callee : String) (p : Program) (place : Source × Class) : Program :=
  match place.2.callIndex? place.1 callee with
  | some index => p.mark place.2.id ⟨index, true⟩
  | none => p

/-- The classes of some files, each with its file. -/
def placesIn (sources : List Source) : List (Source × Class) :=
  sources.flatMap fun s => s.classes.map (s, ·)

theorem flatMap_callSites (sources : List Source) (callee : String) :
    sources.flatMap (·.callSites callee) =
      (placesIn sources).filterMap fun place =>
        (place.2.callIndex? place.1 callee).map (place.2.id, ·) := by
  rw [placesIn, List.filterMap_flatMap]
  congr 1
  funext s
  rw [Source.callSites, List.filterMap_map]
  rfl

theorem markAll_flatMap_callSites (p : Program) (sources : List Source) (callee : String) :
    p.markAll (sources.flatMap (·.callSites callee)) =
      (placesIn sources).foldl (markPlace callee) p := by
  rw [flatMap_callSites, markAll, List.foldl_filterMap]
  congr 1
  funext q place
  rw [markPlace]
  cases place.2.callIndex? place.1 callee <;> rfl

theorem markComponents_eq (p : Program) (callee : String) :
    p.markComponents callee = p.places.foldl (markPlace callee) p :=
  p.markAll_flatMap_callSites p.sources.toList callee

/-- The mark that a place gives to its class, or else the mark that the
class had. -/
def markAt (callee : String) (place : Source × Class) (before : Option Marking) :
    Option Marking :=
  ((place.2.callIndex? place.1 callee).map (⟨·, true⟩)).or before

theorem markings_markPlace (callee : String) (p : Program) (place : Source × Class)
    (id : ClassId) :
    (p.markPlace callee place).markings[id]? =
      if place.2.id = id then markAt callee place p.markings[id]? else p.markings[id]? := by
  rw [markPlace, markAt]
  cases place.2.callIndex? place.1 callee with
  | none => simp
  | some index =>
    simp only [mark, Std.TreeMap.getElem?_insert, Std.LawfulEqCmp.compare_eq_iff_eq]
    split <;> rfl

/-- An id keeps its mark if no class with the id has a call decorator with
the callee. -/
theorem markings_foldl_of_no_call (callee : String) (p : Program)
    {places : List (Source × Class)} {id : ClassId}
    (h : ∀ place ∈ places, place.2.id = id → place.2.callIndex? place.1 callee = none) :
    (places.foldl (markPlace callee) p).markings[id]? = p.markings[id]? := by
  induction places generalizing p with
  | nil => rfl
  | cons place places ih =>
    rw [List.forall_mem_cons] at h
    obtain ⟨hplace, hplaces⟩ := h
    rw [List.foldl_cons, ih _ hplaces, markings_markPlace]
    split
    · rename_i hid
      simp [markAt, hplace hid]
    · rfl

theorem markings_foldl_of_not_mem (callee : String) (p : Program)
    {places : List (Source × Class)} {id : ClassId} (h : id ∉ places.map (·.2.id)) :
    (places.foldl (markPlace callee) p).markings[id]? = p.markings[id]? := by
  apply markings_foldl_of_no_call
  intro place hplace hid
  exact absurd (List.mem_map.2 ⟨place, hplace, hid⟩) h

theorem markings_foldl_of_mem (callee : String) (p : Program)
    {places : List (Source × Class)} (hnodup : (places.map (·.2.id)).Nodup)
    {place : Source × Class} (h : place ∈ places) :
    (places.foldl (markPlace callee) p).markings[place.2.id]? =
      markAt callee place p.markings[place.2.id]? := by
  induction places generalizing p with
  | nil => cases h
  | cons first places ih =>
    rw [List.map_cons, List.nodup_cons] at hnodup
    obtain ⟨hfirst, hrest⟩ := hnodup
    rw [List.foldl_cons]
    rcases List.mem_cons.1 h with rfl | h
    · rw [markings_foldl_of_not_mem callee _ hfirst, markings_markPlace, if_pos rfl]
    · have hne : first.2.id ≠ place.2.id := by
        intro heq
        rw [heq] at hfirst
        exact hfirst (List.mem_map_of_mem h)
      rw [ih _ hrest h, markings_markPlace, if_neg hne]

/-- Where ids are distinct, marking decides each class's mark at the
class's own place. -/
theorem markings_markComponents (p : Program) (callee : String)
    (hnodup : (p.places.map (·.2.id)).Nodup) {place : Source × Class} (h : place ∈ p.places) :
    (p.markComponents callee).markings[place.2.id]? =
      markAt callee place p.markings[place.2.id]? := by
  rw [markComponents_eq]
  exact markings_foldl_of_mem callee p hnodup h

end Program

/-! ## Places and their files -/

theorem SourceMap.mem_toList_iff (m : SourceMap) (s : Source) :
    s ∈ m.toList ↔ ∃ path, m.get? path = some s := by
  have hvalues : m.files.values = m.files.toList.map (·.2) := by
    have hfold : m.files.values = m.files.foldr (fun _ source rest => source :: rest) [] := rfl
    rw [hfold, Std.TreeMap.foldr_eq_foldr_toList, List.map_eq_foldr]
  simp only [toList, hvalues, List.mem_map, Prod.exists, exists_eq_right,
    Std.TreeMap.mem_toList_iff_getElem?_eq_some, get?]

theorem Program.mem_places_iff (p : Program) (s : Source) (c : Class) :
    (s, c) ∈ p.places ↔ (∃ path, p.sources.get? path = some s) ∧ c ∈ s.classes := by
  simp [places, ← SourceMap.mem_toList_iff]

theorem Program.mem_callSites_iff (p : Program) (callee : String) (id : ClassId) (index : Nat) :
    (id, index) ∈ p.callSites callee ↔ ∃ path s, p.sources.get? path = some s ∧
      ∃ c ∈ s.classes, c.callIndex? s callee = some index ∧ c.id = id := by
  simp only [callSites, Source.callSites, List.mem_flatMap, List.mem_filterMap,
    SourceMap.mem_toList_iff, Option.map_eq_some_iff, Prod.mk.injEq]
  constructor
  · intro h
    obtain ⟨s, ⟨path, hs⟩, c, hc, i, hi, hid, rfl⟩ := h
    exact ⟨path, s, hs, c, hc, hi, hid⟩
  · intro h
    obtain ⟨path, s, hs, c, hc, hi, hid⟩ := h
    exact ⟨s, ⟨path, hs⟩, c, hc, index, hi, hid, rfl⟩

/-- An id keeps its mark if no class with the id, in whatever file, has a
call decorator with the callee. -/
theorem Program.markings_markComponents_of_no_call (p : Program) (callee : String) {id : ClassId}
    (h : ∀ path s, p.sources.get? path = some s → ∀ c ∈ s.classes, c.HasCall s callee →
      c.id ≠ id) : (p.markComponents callee).markings[id]? = p.markings[id]? := by
  rw [markComponents_eq]
  apply markings_foldl_of_no_call
  intro place hplace hid
  obtain ⟨⟨path, hpath⟩, hc⟩ := (p.mem_places_iff place.1 place.2).1 hplace
  rw [Class.callIndex?_eq_none_iff]
  intro hcall
  exact h path place.1 hpath place.2 hc hcall hid

/-! ## A program of one file -/

/-- The program that holds one file and has marked its components by the
callee. -/
def Source.markedProgram (s : Source) (callee : String) : Program :=
  (Workspace.empty.run [.putSource s, .markComponents callee]).program

theorem SourceMap.toList_insert_empty (s : Source) :
    (SourceMap.empty.insert s).toList = [s] := rfl

/-- In the program of one file with distinct ids, the metadata of a class
is its first call decorator with the callee. -/
theorem Source.metadataIndex?_markedProgram (s : Source) (callee : String)
    (hnodup : (s.classes.map (·.id)).Nodup) {c : Class} (hc : c ∈ s.classes) :
    (s.markedProgram callee).view.metadataIndex? c = c.callIndex? s callee := by
  have hplaces : { Program.empty with sources := SourceMap.empty.insert s }.places =
      s.classes.map (s, ·) := by
    rw [Program.places, SourceMap.toList_insert_empty, List.flatMap_singleton]
  have hmarkings := Program.markings_markComponents
    { Program.empty with sources := SourceMap.empty.insert s } callee
    (by rwa [hplaces, List.map_map]) (by rw [hplaces]; exact List.mem_map_of_mem hc)
  have hempty : (∅ : Std.TreeMap ClassId Marking)[c.id]? = none := by simp
  have hmark : (s.markedProgram callee).view.marking? c =
      (c.callIndex? s callee).map (⟨·, true⟩) := by
    refine hmarkings.trans ?_
    rw [Program.markAt, Program.empty, hempty, Option.or_none]
  rw [View.metadataIndex?, hmark]
  cases c.callIndex? s callee <;> rfl

end HotSwap
