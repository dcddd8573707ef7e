/-
HotSwap.Proofs.MarkingOrder — marking components by the name of a
decorator, whatever the order in which the files are gone through.

`Program.Marks` leaves the order open, and `Program.markComponents` is one
of the runs that it allows (`marks_markComponents`). Where all ids are
distinct, the mark of a class is decided at its own place and no other id
is touched (`Marks.markings_place`, `Marks.markings_other`). So all orders
leave the same program behind, a second run finds nothing to change, and
runs for two decorators that no class has together can be exchanged
(`marks_regardless_of_order`).
-/
import Mathlib.Order.Bounds.Defs
import HotSwap.Draft.Layout
import HotSwap.Proofs.History
import HotSwap.Proofs.Marking

namespace HotSwap

/-! ## Classes with a call -/

/-- The class's decorator at the index is a call with the callee. -/
def Class.CallsAt (c : Class) (s : Source) (callee : String) (index : Nat) : Prop :=
  ∃ d, c.decorators[index]? = some d ∧
    ∃ call, d.call? = some call ∧ s.string? call.callee = some callee

/-- The call that counts is the first one. -/
theorem Class.isLeast_of_callIndex? {c : Class} {s : Source} {callee : String} {index : Nat}
    (h : c.callIndex? s callee = some index) : IsLeast {i | c.CallsAt s callee i} index := by
  obtain ⟨hlt, hcall, hbefore⟩ := List.findIdx?_eq_some_iff_getElem.1 h
  refine ⟨⟨_, List.getElem?_eq_getElem hlt, ?_⟩, fun j hj => ?_⟩
  · cases hd : c.decorators[index].call? with
    | none => simp [hd] at hcall
    | some call => exact ⟨call, rfl, by simpa [hd] using hcall⟩
  · obtain ⟨d, hd, call, hdcall, hcallee⟩ := hj
    obtain ⟨hj, rfl⟩ := List.getElem?_eq_some_iff.1 hd
    by_contra hlt'
    exact hbefore j (Nat.lt_of_not_le hlt') (by simp [hdcall, hcallee])

instance (c : Class) (s : Source) (callee : String) : Decidable (c.HasCall s callee) :=
  decidable_of_iff (c.callIndex? s callee ≠ none) (by
    rw [ne_eq, c.callIndex?_eq_none_iff, not_not])

namespace Program

/-! ## Marking in any order -/

/-- Marking by the callee may count `n` classes and leave the program `q`
behind. The files are gone through in some order, and the order is open. -/
def Marks (p : Program) (callee : String) (n : Nat) (q : Program) : Prop :=
  ∃ order : List Source, order.Perm p.sources.toList ∧
    n = (order.flatMap (·.callSites callee)).length ∧
    q = p.markAll (order.flatMap (·.callSites callee))

/-- The programs have the same files, the same users of each resource and
the same mark on each class. -/
structure Same (p q : Program) : Prop where
  sources : p.sources = q.sources
  templates : p.templates = q.templates
  styles : p.styles = q.styles
  markings : ∀ id : ClassId, p.markings[id]? = q.markings[id]?

theorem marks_markComponents (p : Program) (callee : String) :
    p.Marks callee (p.callSites callee).length (p.markComponents callee) :=
  ⟨p.sources.toList, .refl _, rfl, rfl⟩

variable {p q : Program} {callee : String} {n : Nat}

/-- Marks are all that changes. -/
theorem Marks.eq_markings (h : p.Marks callee n q) : q = { p with markings := q.markings } := by
  obtain ⟨order, -, -, rfl⟩ := h
  exact p.markAll_eq _

theorem Marks.sources_eq (h : p.Marks callee n q) : q.sources = p.sources := by
  rw [h.eq_markings]

theorem Marks.places_eq (h : p.Marks callee n q) : q.places = p.places := by
  rw [places, h.sources_eq, ← places]

/-- The program is marked place by place, in some order of the places. -/
theorem Marks.exists_places (h : p.Marks callee n q) :
    ∃ places : List (Source × Class), places.Perm p.places ∧
      n = places.countP (fun place => place.2.HasCall place.1 callee) ∧
      q = places.foldl (markPlace callee) p := by
  obtain ⟨order, horder, rfl, rfl⟩ := h
  refine ⟨placesIn order, horder.flatMap_right _, ?_, p.markAll_flatMap_callSites order callee⟩
  rw [flatMap_callSites, List.length_filterMap_eq_countP]
  refine List.countP_congr fun place _ => ?_
  rw [Option.isSome_map, decide_eq_true_iff, Option.isSome_iff_ne_none, ne_eq,
    Class.callIndex?_eq_none_iff, not_not]

theorem Marks.count_eq (h : p.Marks callee n q) :
    n = p.places.countP fun place => place.2.HasCall place.1 callee := by
  obtain ⟨places, hplaces, rfl, -⟩ := h.exists_places
  exact hplaces.countP_eq _

/-- The ids of all classes of the program are distinct. -/
def DistinctIds (p : Program) : Prop := (p.places.map (·.2.id)).Nodup

theorem Marks.distinctIds (h : p.Marks callee n q) (hdistinct : p.DistinctIds) :
    q.DistinctIds := by
  rwa [DistinctIds, h.places_eq]

theorem Marks.markings_place (h : p.Marks callee n q) (hdistinct : p.DistinctIds)
    {place : Source × Class} (hplace : place ∈ p.places) :
    q.markings[place.2.id]? = markAt callee place p.markings[place.2.id]? := by
  obtain ⟨places, hplaces, -, rfl⟩ := h.exists_places
  exact markings_foldl_of_mem callee p ((hplaces.map _).nodup_iff.2 hdistinct)
    (hplaces.mem_iff.2 hplace)

theorem Marks.markings_other (h : p.Marks callee n q) {id : ClassId}
    (hid : ∀ place ∈ p.places, place.2.HasCall place.1 callee → place.2.id ≠ id) :
    q.markings[id]? = p.markings[id]? := by
  obtain ⟨places, hplaces, -, rfl⟩ := h.exists_places
  refine markings_foldl_of_no_call callee p fun place hplace heq => ?_
  rw [Class.callIndex?_eq_none_iff]
  exact fun hcall => hid place (hplaces.mem_iff.1 hplace) hcall heq

/-- The mark that a place gives is not changed by giving it again. -/
theorem markAt_markAt (callee : String) (place : Source × Class) (before : Option Marking) :
    markAt callee place (markAt callee place before) = markAt callee place before := by
  rw [markAt, markAt, ← Option.or_assoc, Option.or_self]

/-- Two marks do not get into each other's way at a place that is given at
most one of them. -/
theorem markAt_comm {a b : String} {place : Source × Class}
    (h : ¬ (place.2.HasCall place.1 a ∧ place.2.HasCall place.1 b)) (before : Option Marking) :
    markAt a place (markAt b place before) = markAt b place (markAt a place before) := by
  rw [not_and_or, ← Class.callIndex?_eq_none_iff, ← Class.callIndex?_eq_none_iff] at h
  simp only [markAt]
  rcases h with h | h
  · simp [h]
  · simp [h]

/-- An id belongs to a place or to none. -/
theorem markings_cases (p : Program) {P : ClassId → Prop} (hplace : ∀ place ∈ p.places, P place.2.id)
    (hother : ∀ id, (∀ place ∈ p.places, place.2.id ≠ id) → P id) (id : ClassId) : P id := by
  by_cases h : ∃ place ∈ p.places, place.2.id = id
  · obtain ⟨place, hmem, rfl⟩ := h
    exact hplace place hmem
  · simp only [not_exists, not_and] at h
    exact hother id h

/-! ## Two runs -/

section

variable {q' r r' : Program} {other : String} {m n' m' : Nat}

/-- The order in which the files are gone through cannot be told from what
is left behind. -/
theorem Marks.same (h : p.Marks callee n q) (h' : p.Marks callee n' q')
    (hdistinct : p.DistinctIds) : n' = n ∧ q'.Same q := by
  refine ⟨h'.count_eq.trans h.count_eq.symm, ?_, ?_, ?_, ?_⟩
  · rw [h.sources_eq, h'.sources_eq]
  · rw [h.eq_markings, h'.eq_markings]
  · rw [h.eq_markings, h'.eq_markings]
  · refine p.markings_cases (fun place hplace => ?_) fun id hid => ?_
    · rw [h.markings_place hdistinct hplace, h'.markings_place hdistinct hplace]
    · rw [h.markings_other fun place hplace _ => hid place hplace,
        h'.markings_other fun place hplace _ => hid place hplace]

/-- A second run finds the same classes and changes nothing. -/
theorem Marks.again (h : p.Marks callee n q) (h' : q.Marks callee m r)
    (hdistinct : p.DistinctIds) : m = n ∧ r.Same q := by
  refine ⟨?_, h'.sources_eq, ?_, ?_, ?_⟩
  · rw [h'.count_eq, h.places_eq, h.count_eq]
  · rw [h'.eq_markings]
  · rw [h'.eq_markings]
  · refine q.markings_cases (fun place hplace => ?_) fun id hid => ?_
    · have hplace' : place ∈ p.places := h.places_eq ▸ hplace
      rw [h'.markings_place (h.distinctIds hdistinct) hplace,
        h.markings_place hdistinct hplace', markAt_markAt]
    · exact h'.markings_other fun place hplace _ => hid place hplace

/-- Runs for two decorators that no class has together can be exchanged. -/
theorem Marks.exchange (h : p.Marks callee n q) (hr : q.Marks other m r)
    (h' : p.Marks other m' q') (hr' : q'.Marks callee n' r') (hdistinct : p.DistinctIds)
    (hapart : ∀ place ∈ p.places,
      ¬ (place.2.HasCall place.1 callee ∧ place.2.HasCall place.1 other)) :
    m' = m ∧ n' = n ∧ r'.Same r := by
  refine ⟨?_, ?_, ?_, ?_, ?_, ?_⟩
  · rw [h'.count_eq, hr.count_eq, h.places_eq]
  · rw [hr'.count_eq, h.count_eq, h'.places_eq]
  · rw [hr'.sources_eq, h'.sources_eq, hr.sources_eq, h.sources_eq]
  · rw [hr'.eq_markings, h'.eq_markings, hr.eq_markings, h.eq_markings]
  · rw [hr'.eq_markings, h'.eq_markings, hr.eq_markings, h.eq_markings]
  · refine p.markings_cases (fun place hplace => ?_) fun id hid => ?_
    · rw [hr'.markings_place (h'.distinctIds hdistinct) (h'.places_eq ▸ hplace),
        h'.markings_place hdistinct hplace,
        hr.markings_place (h.distinctIds hdistinct) (h.places_eq ▸ hplace),
        h.markings_place hdistinct hplace, markAt_comm (hapart place hplace)]
    · rw [hr'.markings_other fun place hplace _ => hid place (h'.places_eq ▸ hplace),
        h'.markings_other fun place hplace _ => hid place hplace,
        hr.markings_other fun place hplace _ => hid place (h.places_eq ▸ hplace),
        h.markings_other fun place hplace _ => hid place hplace]

end

/-- **Marking does not depend on the order of the files.** In a program
whose ids are distinct, marking components by the name of a decorator, in
whatever order the files are gone through, counts the classes that have a
call decorator with that callee, marks each of them with the first such
decorator, and leaves the marks of all other ids alone. All orders leave
the same program behind. A second run counts the same classes and changes
nothing, and runs for two callees that no class calls together can be
exchanged. -/
theorem marks_regardless_of_order (p : Program) (hdistinct : p.DistinctIds) (callee : String) :
    p.Marks callee (p.callSites callee).length (p.markComponents callee) ∧
      ∀ n q, p.Marks callee n q →
        n = p.places.countP (fun place => place.2.HasCall place.1 callee) ∧
        (∀ place ∈ p.places, place.2.HasCall place.1 callee →
          ∃ index, IsLeast {i | place.2.CallsAt place.1 callee i} index ∧
            q.markings[place.2.id]? = some ⟨index, true⟩) ∧
        (∀ id : ClassId, (∀ place ∈ p.places, place.2.HasCall place.1 callee →
          place.2.id ≠ id) → q.markings[id]? = p.markings[id]?) ∧
        (∀ n' q', p.Marks callee n' q' → n' = n ∧ q'.Same q) ∧
        (∀ m r, q.Marks callee m r → m = n ∧ r.Same q) ∧
        ∀ other, (∀ place ∈ p.places,
            ¬ (place.2.HasCall place.1 callee ∧ place.2.HasCall place.1 other)) →
          ∀ m r, q.Marks other m r → ∀ m' q' n' r', p.Marks other m' q' →
            q'.Marks callee n' r' → m' = m ∧ n' = n ∧ r'.Same r := by
  refine ⟨p.marks_markComponents callee, fun n q h => ⟨h.count_eq, ?_,
    fun id hid => h.markings_other hid, fun n' q' h' => h.same h' hdistinct,
    fun m r h' => h.again h' hdistinct, ?_⟩⟩
  · intro place hplace hcall
    obtain ⟨index, hindex⟩ : ∃ index, place.2.callIndex? place.1 callee = some index := by
      rw [← Option.ne_none_iff_exists', ne_eq, Class.callIndex?_eq_none_iff, not_not]
      exact hcall
    refine ⟨index, Class.isLeast_of_callIndex? hindex, ?_⟩
    rw [h.markings_place hdistinct hplace, markAt, hindex]
    rfl
  · intro other hapart m r hr m' q' n' r' h' hr'
    exact h.exchange hr h' hr' hdistinct hapart

/-- A widget that names its decorator before it calls it, a pipe in another
file, and a mark on an id that no class has. -/
def stall : Program :=
  (Workspace.empty.run
    [.putSource (Draft.File.source { path := "widget.ts", firstId := ⟨1⟩, statements :=
        [.declare { name := some "Widget",
                    decorators := [.bare "Component", .call "Component" []] },
          .declare { name := some "Plain" }] }),
      .putSource (Draft.File.source { path := "pipe.ts", firstId := ⟨3⟩, statements :=
        [.declare { name := some "Pipe", decorators := [.call "Pipe" []] }] }),
      .mark ⟨7⟩ ⟨4, false⟩]).program

theorem marks_regardless_of_order_stall :
    stall.DistinctIds ∧ (stall.callSites "Component").length = 1 ∧
    (stall.markComponents "Component").markings[ClassId.mk 1]? = some ⟨1, true⟩ ∧
    (stall.markComponents "Component").markings[ClassId.mk 7]? = some ⟨4, false⟩ ∧
    ((stall.markComponents "Component").markComponents "Component").Same
      (stall.markComponents "Component") ∧
    ((stall.markComponents "Pipe").markComponents "Component").Same
      ((stall.markComponents "Component").markComponents "Pipe") := by
  have hdistinct : stall.DistinctIds := by
    rw [DistinctIds]
    decide
  have hseven : ∀ place ∈ stall.places, place.2.id ≠ ⟨7⟩ := by decide
  have hapart : ∀ place ∈ stall.places,
      ¬ (place.2.HasCall place.1 "Component" ∧ place.2.HasCall place.1 "Pipe") := by decide
  obtain ⟨hfirst, hruns⟩ := marks_regardless_of_order stall hdistinct "Component"
  obtain ⟨hcount, -, hother, -, hagain, hexchange⟩ := hruns _ _ hfirst
  refine ⟨hdistinct, ?_, rfl, ?_, ?_, ?_⟩
  · rw [hcount]
    decide
  · exact hother ⟨7⟩ fun place hplace _ => hseven place hplace
  · exact (hagain _ _ (marks_markComponents _ _)).2
  · exact (hexchange "Pipe" hapart _ _ (marks_markComponents _ _) _ _ _ _
      (marks_markComponents _ _) (marks_markComponents _ _)).2.2

end Program

end HotSwap
