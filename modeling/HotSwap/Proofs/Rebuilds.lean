/-
HotSwap.Proofs.Rebuilds — comparisons over several rebuilds of one file.

The previous build may lie several edits back. What is said of the oldest
and the newest version then has to agree with what was said of each edit.
It does, because every check of a comparison is symmetric and transitive,
from spans up to statements. None is reflexive: a span outside its text is
not even the same as itself, so nothing here asks for valid trees. The
file as a whole follows place by place (`swaps_compose`), for versions
that have the same classes at the same places (`Source.Aligned`).
-/
import Mathlib.Data.List.Zip
import HotSwap.Proofs.Relocation

namespace HotSwap

/-! ## Metadata -/

namespace Metadata

section Fields

variable {s t u : String} {fs gs hs : List Field}

theorem SameFixed.symm (h : SameFixed s t fs gs) : SameFixed t s gs fs := by
  refine List.Forall₂.flip (List.Forall₂.imp (fun f g hsame => ?_) h)
  rw [flip, Excerpt.same_comm]
  exact hsame

theorem SameFixed.trans (h : SameFixed s t fs gs) (h' : SameFixed t u gs hs) :
    SameFixed s u fs hs :=
  forall₂_trans h h' fun _ _ _ => Excerpt.same_trans

theorem SameLive.symm (h : SameLive s t fs gs) : SameLive t s gs fs := by
  intro name
  rw [Excerpt.sameOptional_comm]
  exact h name

theorem SameLive.trans (h : SameLive s t fs gs) (h' : SameLive t u gs hs) :
    SameLive s u fs hs := by
  intro name
  exact Excerpt.sameOptional_trans (h name) (h' name)

end Fields

variable {x y z : Metadata} {fs gs hs : List Field}

theorem Comparable.symm (h : Comparable x y fs gs) : Comparable y x gs fs :=
  ⟨h.2.1, h.1, h.2.2.symm⟩

theorem Comparable.trans (h : Comparable x y fs gs) (h' : Comparable y z gs hs) :
    Comparable x z fs hs :=
  ⟨h.1, h'.2.1, h.2.2.trans h'.2.2⟩

theorem Comparable.change_eq_live_iff (h : Comparable x y fs gs) :
    change x y = .live ↔ ¬ SameLive x.text y.text fs gs := by
  constructor
  · intro hlive hsame
    rw [(change_of_comparable h).1 hsame] at hlive
    cases hlive
  · exact (change_of_comparable h).2

theorem change_ne_blocked_symm (h : ∀ obstacle, change x y ≠ .blocked obstacle) :
    ∀ obstacle, change y x ≠ .blocked obstacle := by
  rw [change_ne_blocked_iff] at h ⊢
  obtain ⟨fs, gs, h⟩ := h
  exact ⟨gs, fs, h.symm⟩

theorem change_eq_live_symm (h : change x y = .live) : change y x = .live := by
  rw [Metadata.change_eq_live_iff] at h ⊢
  obtain ⟨fs, gs, h, hlive⟩ := h
  exact ⟨gs, fs, h.symm, fun hsame => hlive hsame.symm⟩

/-- Two edits that touch live fields at most make one such edit. It
touches live fields only if one of the two does, and surely if exactly one
does. Two that both do may cancel out. -/
theorem change_trans (hxy : ∀ obstacle, change x y ≠ .blocked obstacle)
    (hyz : ∀ obstacle, change y z ≠ .blocked obstacle) :
    (∀ obstacle, change x z ≠ .blocked obstacle) ∧
      (change x z = .live → change x y = .live ∨ change y z = .live) ∧
      (¬ (change x y = .live ↔ change y z = .live) → change x z = .live) := by
  rw [change_ne_blocked_iff] at hxy hyz ⊢
  obtain ⟨fs, gs, hxy⟩ := hxy
  obtain ⟨gs', hs, hyz⟩ := hyz
  have hgs : gs = gs' := Option.some.inj (hxy.2.1.symm.trans hyz.1)
  subst hgs
  have hxz := hxy.trans hyz
  refine ⟨⟨fs, hs, hxz⟩, ?_, ?_⟩
  · rw [hxy.change_eq_live_iff, hyz.change_eq_live_iff, hxz.change_eq_live_iff]
    intro hlive
    by_contra hneither
    rw [not_or, not_not, not_not] at hneither
    exact hlive (hneither.1.trans hneither.2)
  · rw [hxy.change_eq_live_iff, hyz.change_eq_live_iff, hxz.change_eq_live_iff, not_iff_not]
    -- Of the three, two that are the same make the third the same.
    intro hone hsame
    exact hone ⟨fun h => h.symm.trans hsame, fun h => hsame.trans h.symm⟩

end Metadata

/-! ## Statements with one class -/

/-- Both statements declare a class, with one id, or neither does. -/
def Statement.SameClass (x y : Statement) : Prop :=
  Option.Rel (fun c d : Class => c.id = d.id) x.declared y.declared

theorem Statement.SameClass.symm {x y : Statement} (h : x.SameClass y) : y.SameClass x := by
  unfold SameClass at *
  rcases rel_cases h with ⟨hx, hy⟩ | ⟨c, d, hx, hy, hid⟩
  · rw [hx, hy]
    exact .none
  · rw [hx, hy]
    exact .some hid.symm

namespace Revision

variable {a b c : Source}

/-! ## Headers and components -/

theorem same_symm {x y : Span} (h : (Revision.mk a b).same x y = true) :
    (Revision.mk b a).same y x = true := by
  rw [same, Excerpt.same_comm]
  exact h

theorem same_trans {x y z : Span} (h : (Revision.mk a b).same x y = true)
    (h' : (Revision.mk b c).same y z = true) : (Revision.mk a c).same x z = true :=
  Excerpt.same_trans h h'

theorem sameLists_symm {α : Type} {x y : Option (Delimited α)}
    (h : (Revision.mk a b).sameLists x y = true) : (Revision.mk b a).sameLists y x = true := by
  rw [sameLists, Excerpt.sameOptional_comm]
  exact h

theorem sameLists_trans {α : Type} {x y z : Option (Delimited α)}
    (h : (Revision.mk a b).sameLists x y = true)
    (h' : (Revision.mk b c).sameLists y z = true) : (Revision.mk a c).sameLists x z = true :=
  Excerpt.sameOptional_trans h h'

section Classes

variable {x y z : Class} {index : Nat}

theorem SameHeader.symm (h : (Revision.mk a b).SameHeader x y) :
    (Revision.mk b a).SameHeader y x where
  name := h.name.symm
  heritage := sameLists_symm h.heritage
  typeParams := sameLists_symm h.typeParams
  modifierCount := h.modifierCount.symm
  keywords k := (h.keywords k).symm

theorem SameHeader.trans (h : (Revision.mk a b).SameHeader x y)
    (h' : (Revision.mk b c).SameHeader y z) : (Revision.mk a c).SameHeader x z where
  name := h.name.trans h'.name
  heritage := sameLists_trans h.heritage h'.heritage
  typeParams := sameLists_trans h.typeParams h'.typeParams
  modifierCount := h.modifierCount.trans h'.modifierCount
  keywords k := (h.keywords k).trans (h'.keywords k)

theorem SoleDecorators.symm (h : SoleDecorators x y index) : SoleDecorators y x index :=
  ⟨h.new_length, h.old_length, h.index_eq⟩

theorem SoleDecorators.trans (h : SoleDecorators x y index) (h' : SoleDecorators y z index) :
    SoleDecorators x z index :=
  ⟨h.old_length, h'.new_length, h.index_eq⟩

theorem SameComponent.symm (h : (Revision.mk a b).SameComponent x y index) :
    (Revision.mk b a).SameComponent y x index := by
  obtain ⟨m, m', hm, hm', hcallee, hfree⟩ := h.calls
  exact ⟨h.sole.symm,
    ⟨m', m, hm', hm, same_symm hcallee, Metadata.change_ne_blocked_symm hfree⟩,
    same_symm h.members⟩

theorem SameComponent.trans (h : (Revision.mk a b).SameComponent x y index)
    (h' : (Revision.mk b c).SameComponent y z index) :
    (Revision.mk a c).SameComponent x z index := by
  obtain ⟨m, m', hm, hm', hcallee, hfree⟩ := h.calls
  obtain ⟨n, n', hn, hn', hcallee', hfree'⟩ := h'.calls
  have hnm : n = m' := Option.some.inj (hn.symm.trans hm')
  subst hnm
  exact ⟨h.sole.trans h'.sole,
    ⟨m, n', hm, hn', same_trans hcallee hcallee', (Metadata.change_trans hfree hfree').1⟩,
    same_trans h.members h'.members⟩

end Classes

/-! ## Places -/

section Places

variable {metadataIndex? : Class → Option Nat} {x y z : Statement}

theorem swapAt?_of_metadata (r : Revision) {d e : Class} {index : Nat} {m m' : MetadataCall}
    (hx : x.declared = some d) (hy : y.declared = some e)
    (hmarked : metadataIndex? e = some index) (hm : d.metadataCall? index = some m)
    (hm' : e.metadataCall? index = some m') :
    r.swapAt? metadataIndex? x y = if r.change m m' = .live then some e.id else none := by
  simp [swapAt?, hx, hy, hmarked, hm, hm']

theorem swapAt?_eq_none_of_plain (r : Revision) (hx : x.declared = none) :
    r.swapAt? metadataIndex? x y = none := by
  simp [swapAt?, hx]

theorem swapAt?_eq_none_of_unmarked (r : Revision) {e : Class} (hy : y.declared = some e)
    (hunmarked : metadataIndex? e = none) : r.swapAt? metadataIndex? x y = none := by
  cases hx : x.declared <;> simp [swapAt?, hx, hy, hunmarked]

variable (hids : ∀ c d : Class, c.id = d.id → metadataIndex? c = metadataIndex? d)
include hids

theorem accepts_symm (hxy : x.SameClass y) (h : (Revision.mk a b).Accepts metadataIndex? x y) :
    (Revision.mk b a).Accepts metadataIndex? y x := by
  rcases rel_cases hxy with ⟨hx, hy⟩ | ⟨d, e, hx, hy, hid⟩
  · rw [accepts_iff_of_plain _ _ hx] at h
    exact .plain hy (same_symm h)
  · rw [accepts_iff_of_classes _ _ hx hy] at h
    have hindex := hids d e hid
    rcases h with ⟨header, ⟨unmarked, text⟩ | ⟨index, marked, component⟩⟩
    · exact .unmarked e d hy hx header.symm (hindex.trans unmarked) (same_symm text)
    · exact .component e d index hy hx header.symm (hindex.trans marked) component.symm

theorem accepts_trans (hxy : x.SameClass y) (hyz : y.SameClass z)
    (h : (Revision.mk a b).Accepts metadataIndex? x y)
    (h' : (Revision.mk b c).Accepts metadataIndex? y z) :
    (Revision.mk a c).Accepts metadataIndex? x z := by
  rcases rel_cases hxy with ⟨hx, hy⟩ | ⟨d, e, hx, hy, hde⟩
  · rw [accepts_iff_of_plain _ _ hx] at h
    rw [accepts_iff_of_plain _ _ hy] at h'
    exact .plain hx (same_trans h h')
  rcases rel_cases hyz with ⟨hy', -⟩ | ⟨e', f, hy', hz, hef⟩
  · cases hy.symm.trans hy'
  cases hy.symm.trans hy'
  rw [accepts_iff_of_classes _ _ hx hy] at h
  rw [accepts_iff_of_classes _ _ hy hz] at h'
  have hindex := hids e f hef
  obtain ⟨header, h⟩ := h
  obtain ⟨header', h'⟩ := h'
  rcases h' with ⟨unmarked, text'⟩ | ⟨index, marked, component'⟩
  · rcases h with ⟨-, text⟩ | ⟨index, marked, -⟩
    · exact .unmarked d f hx hz (header.trans header') unmarked (same_trans text text')
    · cases marked.symm.trans (hindex.trans unmarked)
  · rcases h with ⟨unmarked, -⟩ | ⟨index', marked', component⟩
    · cases unmarked.symm.trans (hindex.trans marked)
    · cases marked'.symm.trans (hindex.trans marked)
      exact .component d f _ hx hz (header.trans header') marked (component.trans component')

theorem swapAt?_symm {id : ClassId} (hxy : x.SameClass y)
    (h : (Revision.mk a b).swapAt? metadataIndex? x y = some id) :
    (Revision.mk b a).swapAt? metadataIndex? y x = some id := by
  rw [swapAt?_eq_some_iff] at h ⊢
  obtain ⟨d, e, index, m, m', hx, hy, hmarked, hm, hm', hlive, hid⟩ := h
  rcases rel_cases hxy with ⟨hx', -⟩ | ⟨d', e', hx', hy', hde⟩
  · cases hx.symm.trans hx'
  cases hx.symm.trans hx'
  cases hy.symm.trans hy'
  exact ⟨e, d, index, m', m, hy, hx, (hids d e hde).trans hmarked, hm', hm,
    Metadata.change_eq_live_symm hlive, hde.trans hid⟩

/-- Over two accepted edits of a place, its class is swapped only if one
of the edits swaps it, and surely if exactly one does. -/
theorem swapAt?_trans (hxy : x.SameClass y) (hyz : y.SameClass z)
    (h : (Revision.mk a b).Accepts metadataIndex? x y)
    (h' : (Revision.mk b c).Accepts metadataIndex? y z) (id : ClassId) :
    ((Revision.mk a c).swapAt? metadataIndex? x z = some id →
        (Revision.mk a b).swapAt? metadataIndex? x y = some id ∨
          (Revision.mk b c).swapAt? metadataIndex? y z = some id) ∧
      (¬ ((Revision.mk a b).swapAt? metadataIndex? x y = some id ↔
          (Revision.mk b c).swapAt? metadataIndex? y z = some id) →
        (Revision.mk a c).swapAt? metadataIndex? x z = some id) := by
  rcases rel_cases hxy with ⟨hx, hy⟩ | ⟨d, e, hx, hy, hde⟩
  · simp [swapAt?_eq_none_of_plain _ hx, swapAt?_eq_none_of_plain _ hy]
  rcases rel_cases hyz with ⟨hy', -⟩ | ⟨e', f, hy', hz, hef⟩
  · cases hy.symm.trans hy'
  cases hy.symm.trans hy'
  rw [accepts_iff_of_classes _ _ hx hy] at h
  rw [accepts_iff_of_classes _ _ hy hz] at h'
  have hindex := hids e f hef
  rcases h'.2 with ⟨unmarked, -⟩ | ⟨index, marked, component'⟩
  · simp [swapAt?_eq_none_of_unmarked _ hz unmarked,
      swapAt?_eq_none_of_unmarked _ hy (hindex.trans unmarked)]
  rcases h.2 with ⟨unmarked, -⟩ | ⟨index', marked', component⟩
  · cases unmarked.symm.trans (hindex.trans marked)
  cases marked'.symm.trans (hindex.trans marked)
  obtain ⟨m, m', hm, hm', -, hfree⟩ := component.calls
  obtain ⟨n, n', hn, hn', -, hfree'⟩ := component'.calls
  cases hn.symm.trans hm'
  obtain ⟨-, honly, hsurely⟩ := Metadata.change_trans hfree hfree'
  rw [swapAt?_of_metadata _ hx hy marked' hm hm', swapAt?_of_metadata _ hy hz marked hn hn',
    swapAt?_of_metadata _ hx hz marked hm hn', hef]
  simp only [Option.ite_none_right_eq_some, Option.some.injEq]
  constructor
  · intro hlive
    exact (honly hlive.1).imp (⟨·, hlive.2⟩) (⟨·, hlive.2⟩)
  · intro hone
    by_cases hid : f.id = id
    · simp only [hid, and_true] at hone
      exact ⟨hsurely hone, hid⟩
    · simp [hid] at hone

end Places

end Revision

/-! ## Files -/

/-- At every place that both files have, either both declare a class, with
one id, or neither does. -/
def Source.Aligned (s t : Source) : Prop :=
  ∀ (i : Nat) (x y : Statement), s.statements[i]? = some x → t.statements[i]? = some y →
    x.SameClass y

/-- Files are aligned if the ids of their classes, place by place, are the
same. -/
theorem Source.aligned_of_classIds {s t : Source}
    (h : (s.statements.map fun x => x.declared.map (·.id)) =
      t.statements.map fun y => y.declared.map (·.id)) : s.Aligned t := by
  intro i x y hx hy
  have hplace := congrArg (fun ids => ids[i]?) h
  simp only [List.getElem?_map, hx, hy, Option.map_some, Option.some.injEq] at hplace
  unfold Statement.SameClass
  cases hc : x.declared <;> cases hd : y.declared <;> simp_all

theorem Source.Aligned.symm {s t : Source} (h : s.Aligned t) : t.Aligned s := by
  intro i y x hy hx
  exact (h i x y hx hy).symm

namespace Revision

variable {metadataIndex? : Class → Option Nat} {a b c : Source}

theorem swapsOf_comm (hids : ∀ c d : Class, c.id = d.id → metadataIndex? c = metadataIndex? d)
    (hab : a.Aligned b) :
    (Revision.mk a b).swapsOf metadataIndex? a.statements b.statements =
      (Revision.mk b a).swapsOf metadataIndex? b.statements a.statements := by
  have hplace : ∀ p ∈ a.statements.zip b.statements,
      (Revision.mk a b).swapAt? metadataIndex? p.1 p.2 =
        (Revision.mk b a).swapAt? metadataIndex? p.2 p.1 := by
    intro p hp
    obtain ⟨i, hi⟩ := List.mem_iff_getElem?.1 hp
    obtain ⟨hx, hy⟩ := List.getElem?_zip_eq_some.1 hi
    have hsame := hab i p.1 p.2 hx hy
    ext id
    exact ⟨swapAt?_symm hids hsame, swapAt?_symm hids hsame.symm⟩
  rw [swapsOf, swapsOf, ← List.zip_swap a.statements b.statements, List.filterMap_map]
  exact List.filterMap_congr hplace

theorem swaps_symm (hids : ∀ c d : Class, c.id = d.id → metadataIndex? c = metadataIndex? d)
    (hab : a.Aligned b) {ids : List ClassId}
    (h : (Revision.mk a b).swaps metadataIndex? = .ok ids) :
    (Revision.mk b a).swaps metadataIndex? = .ok ids := by
  rw [swaps_eq_ok_iff] at h ⊢
  obtain ⟨hlength, haccepts, rfl⟩ := h
  refine ⟨hlength.symm, ?_, swapsOf_comm hids hab⟩
  intro i y x hy hx
  exact accepts_symm hids (hab i x y hx hy) (haccepts i x y hx hy)

/-- Two accepted edits make one. A class is swapped over both only if one
of them swaps it, and surely if exactly one does. -/
theorem swaps_trans (hids : ∀ c d : Class, c.id = d.id → metadataIndex? c = metadataIndex? d)
    (hab : a.Aligned b) (hbc : b.Aligned c) {xs ys : List ClassId}
    (h : (Revision.mk a b).swaps metadataIndex? = .ok xs)
    (h' : (Revision.mk b c).swaps metadataIndex? = .ok ys) :
    ∃ zs, (Revision.mk a c).swaps metadataIndex? = .ok zs ∧
      (∀ id ∈ zs, id ∈ xs ∨ id ∈ ys) ∧ ∀ id, ¬ (id ∈ xs ↔ id ∈ ys) → id ∈ zs := by
  rw [swaps_eq_ok_iff] at h h'
  obtain ⟨hlength, haccepts, rfl⟩ := h
  obtain ⟨hlength', haccepts', rfl⟩ := h'
  simp only at hlength hlength' haccepts haccepts'
  have hplace := fun i x y z (hx : a.statements[i]? = some x) (hy : b.statements[i]? = some y)
      (hz : c.statements[i]? = some z) =>
    swapAt?_trans hids (hab i x y hx hy) (hbc i y z hy hz) (haccepts i x y hx hy)
      (haccepts' i y z hy hz)
  refine ⟨_, (swaps_eq_ok_iff _ _ _).2 ⟨hlength.trans hlength', ?_, rfl⟩, ?_, ?_⟩
  · intro i x z hx hz
    obtain ⟨y, hy⟩ := exists_getElem?_of_length_eq hlength hx
    exact accepts_trans hids (hab i x y hx hy) (hbc i y z hy hz) (haccepts i x y hx hy)
      (haccepts' i y z hy hz)
  · intro id hid
    simp only [mem_swapsOf] at hid ⊢
    obtain ⟨i, x, z, hx, hz, hswap⟩ := hid
    obtain ⟨y, hy⟩ := exists_getElem?_of_length_eq hlength hx
    rcases (hplace i x y z hx hy hz id).1 hswap with hswap | hswap
    · exact .inl ⟨i, x, y, hx, hy, hswap⟩
    · exact .inr ⟨i, y, z, hy, hz, hswap⟩
  · -- The edit that swaps the class gives the place; the other edit does
    -- not swap it there, as it does so nowhere.
    intro id hone
    by_cases hfirst : id ∈ (Revision.mk a b).swapsOf metadataIndex? a.statements b.statements
    · have hsecond : id ∉ (Revision.mk b c).swapsOf metadataIndex? b.statements c.statements :=
        fun h => hone ⟨fun _ => h, fun _ => hfirst⟩
      rw [mem_swapsOf] at hfirst hsecond ⊢
      obtain ⟨i, x, y, hx, hy, hswap⟩ := hfirst
      obtain ⟨z, hz⟩ := exists_getElem?_of_length_eq hlength' hy
      refine ⟨i, x, z, hx, hz, (hplace i x y z hx hy hz id).2 fun hiff => ?_⟩
      exact hsecond ⟨i, y, z, hy, hz, hiff.1 hswap⟩
    · have hsecond : id ∈ (Revision.mk b c).swapsOf metadataIndex? b.statements c.statements := by
        by_contra h
        exact hone (iff_of_false hfirst h)
      rw [mem_swapsOf] at hfirst hsecond ⊢
      obtain ⟨i, y, z, hy, hz, hswap⟩ := hsecond
      obtain ⟨x, hx⟩ := exists_getElem?_of_length_eq hlength.symm hy
      refine ⟨i, x, z, hx, hz, (hplace i x y z hx hy hz id).2 fun hiff => ?_⟩
      exact hfirst ⟨i, x, y, hx, hy, hiff.2 hswap⟩

/-- **Comparisons compose over several rebuilds.** Take a program whose
answer about a class depends on nothing but the class's id, and versions
of a file with the same classes at the same places. Spans may be anything,
and ids may repeat. An edit is swapped in exactly when its reversal is,
with the same classes. Two edits that are swapped in one after the other
are swapped in at once, with no class that neither of them swaps, and with
every class that exactly one of them swaps. -/
theorem swaps_compose (v : View)
    (hv : ∀ c d : Class, c.id = d.id → v.marking? c = v.marking? d) {a b c : Source}
    (hab : a.Aligned b) (hbc : b.Aligned c) :
    (∀ xs, (Revision.mk a b).swaps v.metadataIndex? = .ok xs ↔
        (Revision.mk b a).swaps v.metadataIndex? = .ok xs) ∧
      ∀ xs ys, (Revision.mk a b).swaps v.metadataIndex? = .ok xs →
        (Revision.mk b c).swaps v.metadataIndex? = .ok ys →
        ∃ zs, (Revision.mk a c).swaps v.metadataIndex? = .ok zs ∧
          (∀ id ∈ zs, id ∈ xs ∨ id ∈ ys) ∧
          ∀ id, (id ∈ xs ∧ id ∉ ys) ∨ (id ∈ ys ∧ id ∉ xs) → id ∈ zs := by
  have hids : ∀ c d : Class, c.id = d.id → v.metadataIndex? c = v.metadataIndex? d := by
    intro c d hid
    rw [View.metadataIndex?, View.metadataIndex?, hv c d hid]
  refine ⟨fun xs => ⟨swaps_symm hids hab, swaps_symm hids hab.symm⟩, ?_⟩
  intro xs ys hxs hys
  obtain ⟨zs, hzs, honly, hsurely⟩ := swaps_trans hids hab hbc hxs hys
  refine ⟨zs, hzs, honly, fun id hone => hsurely id fun hiff => ?_⟩
  rcases hone with ⟨hin, hout⟩ | ⟨hin, hout⟩
  · exact hout (hiff.1 hin)
  · exact hout (hiff.2 hin)

/-- A file of two cards with the given templates. -/
def deckFile (front back : String) : Draft.File where
  path := "deck.ts"
  statements := (Draft.cardFile front).statements ++ (Draft.cardFile back).statements

/-- The program that knows classes 0 and 1 as components. -/
def deckView : View := ((Program.empty.mark ⟨0⟩ ⟨0, true⟩).mark ⟨1⟩ ⟨0, true⟩).view

theorem swaps_compose_deck :
    (∀ c d : Class, c.id = d.id → deckView.marking? c = deckView.marking? d) ∧
    (deckFile "'a'" "'a'").source.Aligned (deckFile "'b'" "'a'").source ∧
    (deckFile "'b'" "'a'").source.Aligned (deckFile "'a'" "'b'").source ∧
    (Revision.mk (deckFile "'a'" "'a'").source (deckFile "'b'" "'a'").source).swaps
      deckView.metadataIndex? = .ok [⟨0⟩] ∧
    (Revision.mk (deckFile "'b'" "'a'").source (deckFile "'a'" "'b'").source).swaps
      deckView.metadataIndex? = .ok [⟨0⟩, ⟨1⟩] ∧
    ∃ zs, (Revision.mk (deckFile "'a'" "'a'").source (deckFile "'a'" "'b'").source).swaps
      deckView.metadataIndex? = .ok zs ∧ ⟨1⟩ ∈ zs := by
  have hv : ∀ c d : Class, c.id = d.id → deckView.marking? c = deckView.marking? d := by
    intro c d h
    simp only [deckView, Program.view, h]
  have hab : (deckFile "'a'" "'a'").source.Aligned (deckFile "'b'" "'a'").source :=
    Source.aligned_of_classIds (by decide)
  have hbc : (deckFile "'b'" "'a'").source.Aligned (deckFile "'a'" "'b'").source :=
    Source.aligned_of_classIds (by decide)
  have hxs : (Revision.mk (deckFile "'a'" "'a'").source (deckFile "'b'" "'a'").source).swaps
      deckView.metadataIndex? = .ok [⟨0⟩] := by decide
  have hys : (Revision.mk (deckFile "'b'" "'a'").source (deckFile "'a'" "'b'").source).swaps
      deckView.metadataIndex? = .ok [⟨0⟩, ⟨1⟩] := by decide
  obtain ⟨zs, hzs, -, hsurely⟩ := (swaps_compose deckView hv hab hbc).2 _ _ hxs hys
  exact ⟨hv, hab, hbc, hxs, hys, zs, hzs, hsurely ⟨1⟩ (.inr (by decide))⟩

end Revision

end HotSwap
