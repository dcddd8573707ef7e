/-
HotSwap.Proofs.DraftMetadata — the metadata of drafted components.

A drafted field is a name and two texts: the whole property's and its
value's. Where a tree depicts a draft, the fields of the tree's literal
have the names of the drafted ones, and their spans cover the drafted
texts (`depictsFields`). So whether two laid out literals can be compared,
and whether live fields changed, is a matter of the drafted texts.
-/
import HotSwap.Proofs.Depiction
import HotSwap.Proofs.FileDiff
import HotSwap.Proofs.Related

namespace HotSwap

open Excerpt (Covers)

/-! ## Spans that cover pieces -/

namespace Revision

variable (r : Revision)

/-- Two spans that cover pieces cover the same bytes exactly when the
pieces are equal. -/
theorem same_iff_of_covers {a b : Span} {piece piece' : String}
    (ha : Covers ⟨r.old.text, a⟩ piece) (hb : Covers ⟨r.new.text, b⟩ piece') :
    r.same a b = true ↔ piece = piece' :=
  Excerpt.same_iff_of_covers ha hb

end Revision

namespace Draft

/-! ## Drafted fields -/

/-- A field of a drafted literal, by its name and texts. -/
structure Field where
  name : String
  /-- The whole property. -/
  text : String
  value : String
  deriving DecidableEq

def Field.isLive (f : Field) : Bool := isLiveField f.name

/-- The property as a field, if it assigns to a name that is not
computed. -/
def Property.field? (depth : Nat) : Property → Option Field
  | .assign key value =>
    key.name?.map (⟨·, Property.text depth (.assign key value), value.text depth⟩)
  | .shorthand _ | .spread _ | .method .. => none

/-- The fields of a decorator's literal, if each property is one. -/
def fields? (properties : List Property) : Option (List Field) :=
  properties.mapM (Property.field? 1)

/-- The texts of the fixed fields, in order. -/
def fixedTexts (fields : List Field) : List String :=
  (fields.filter (!·.isLive)).map (·.text)

/-- What the last live field of a name has for its value. -/
def lastValue? (fields : List Field) (name : String) : Option String :=
  (fields.reverse.find? fun f => f.isLive ∧ f.name = name).map (·.value)

/-- Each live name has the same last value on both sides, or none on
either. -/
def SameLive (old new : List Field) : Prop :=
  ∀ name ∈ liveFields, lastValue? old name = lastValue? new name

instance (old new : List Field) : Decidable (SameLive old new) :=
  inferInstanceAs (Decidable (∀ name ∈ liveFields, _))

theorem lastValue?_of_not_live (fields : List Field) {name : String} (h : name ∉ liveFields) :
    lastValue? fields name = none := by
  rw [lastValue?, Option.map_eq_none_iff, List.find?_eq_none]
  intro f _ hf
  simp only [decide_eq_true_eq] at hf
  obtain ⟨hlive, rfl⟩ := hf
  exact h (List.contains_iff_mem.1 hlive)

theorem sameLive_iff (old new : List Field) :
    SameLive old new ↔ ∀ name, lastValue? old name = lastValue? new name := by
  refine ⟨fun h name => ?_, fun h name _ => h name⟩
  by_cases hname : name ∈ liveFields
  · exact h name hname
  · rw [lastValue?_of_not_live old hname, lastValue?_of_not_live new hname]

/-! ## Fields of a tree that depicts a draft -/

variable {text : String}

/-- The field has the drafted name, and its spans cover the drafted
texts. -/
structure Field.Depicts (text : String) (f : Field) (g : Metadata.Field) : Prop where
  name : g.name = f.name
  span : Covers ⟨text, g.span⟩ f.text
  value : Covers ⟨text, g.value⟩ f.value

theorem Field.Depicts.isLive_eq {f : Field} {g : Metadata.Field} (h : f.Depicts text g) :
    f.isLive = g.isLive := by
  rw [isLive, Metadata.Field.isLive, h.name]

theorem Key.Depicts.text?_eq {k : Key} {l : HotSwap.Key} (h : k.Depicts text l) :
    l.text? = k.name? := by
  cases k <;> cases l <;> simp only [Key.Depicts, DepictsName] at h <;>
    simp [Key.name?, HotSwap.Key.text?, h]

theorem Expr.Depicts.covers {depth : Nat} {e : Expr} {x : HotSwap.Expr}
    (h : e.Depicts text depth x) : Covers ⟨text, x.span⟩ (e.text depth) := by
  cases e <;> cases x <;> simp only [Expr.Depicts] at h
  · rwa [Expr.text]
  · exact h.1

theorem Property.Depicts.field? {depth : Nat} {p : Property} {q : HotSwap.Property}
    (h : p.Depicts text depth q) :
    Option.Rel (Field.Depicts text) (p.field? depth) q.field? := by
  cases p <;> cases q <;> try simp only [Property.Depicts] at h
  case assign.assign key value span key' value' =>
    obtain ⟨hspan, hkey, hvalue⟩ := h
    rw [Property.field?, HotSwap.Property.field?, hkey.text?_eq]
    cases key.name? with
    | none => exact .none
    | some name => exact .some ⟨rfl, hspan, hvalue.covers⟩
  all_goals exact .none

/-- The fields of a literal that depicts drafted properties depict the
drafted fields. -/
theorem depictsFields {ps : List Property} {qs : List HotSwap.Property}
    (h : List.Forall₂ (Property.Depicts text 1) ps qs) :
    Option.Rel (List.Forall₂ (Field.Depicts text)) (fields? ps) (Metadata.fields? qs) :=
  rel_mapM h fun _ _ hproperty => hproperty.field?

theorem depicts_fixed {fs : List Field} {gs : List Metadata.Field}
    (h : List.Forall₂ (Field.Depicts text) fs gs) :
    List.Forall₂ (fun piece g => Covers ⟨text, g.span⟩ piece) (fixedTexts fs)
      (Metadata.fixed gs) := by
  have hfixed : List.Forall₂ (Field.Depicts text) (fs.filter (!·.isLive))
      (gs.filter (!·.isLive)) := by
    refine List.rel_filter (fun f g hfg => ?_) h
    simp only [hfg.isLive_eq]
  rw [fixedTexts, List.forall₂_map_left_iff]
  exact hfixed.imp fun f g hfg => hfg.span

theorem depicts_lastValue? {fs : List Field} {gs : List Metadata.Field}
    (h : List.Forall₂ (Field.Depicts text) fs gs) (name : String) :
    Option.Rel (fun piece value => Covers ⟨text, value⟩ piece) (lastValue? fs name)
      (Metadata.lastValue? gs name) := by
  refine rel_map (rel_find? (List.rel_reverse h) fun f g hfg => ?_) fun f g hfg => hfg.value
  simp only [hfg.isLive_eq, hfg.name]

/-! ## Comparing laid out literals -/

variable {r : Revision}

theorem sameFixed_iff {fs gs : List Field} {fs' gs' : List Metadata.Field}
    (hf : List.Forall₂ (Field.Depicts r.old.text) fs fs')
    (hg : List.Forall₂ (Field.Depicts r.new.text) gs gs') :
    Metadata.SameFixed r.old.text r.new.text fs' gs' ↔ fixedTexts fs = fixedTexts gs := by
  rw [← List.forall₂_eq_eq_eq]
  exact forall₂_iff_of_related (depicts_fixed hf) (depicts_fixed hg)
    fun piece piece' f g hpiece hpiece' => r.same_iff_of_covers hpiece hpiece'

theorem metadataSameLive_iff {fs gs : List Field} {fs' gs' : List Metadata.Field}
    (hf : List.Forall₂ (Field.Depicts r.old.text) fs fs')
    (hg : List.Forall₂ (Field.Depicts r.new.text) gs gs') :
    Metadata.SameLive r.old.text r.new.text fs' gs' ↔ SameLive fs gs := by
  rw [sameLive_iff]
  refine forall_congr' fun name => Excerpt.sameOptional_iff_of_covers ?_ ?_
  · exact rel_map_right (depicts_lastValue? hf name) fun piece value hvalue => hvalue
  · exact rel_map_right (depicts_lastValue? hg name) fun piece value hvalue => hvalue

/-- Two drafted literals whose properties are all fields, the fixed ones
of the same texts. -/
def Comparable (old new : List Property) (fs gs : List Field) : Prop :=
  fields? old = some fs ∧ fields? new = some gs ∧ fixedTexts fs = fixedTexts gs

variable {ps qs : List Property} {ps' qs' : List HotSwap.Property}

/-- The fields of literals are determined by the literals. -/
theorem Comparable.exists_iff {fs gs : List Field} (h : Comparable ps qs fs gs)
    {Q : List Field → List Field → Prop} :
    (∃ fs' gs', Comparable ps qs fs' gs' ∧ Q fs' gs') ↔ Q fs gs := by
  constructor
  · intro h
    obtain ⟨fs', gs', h', hQ⟩ := h
    cases h.1.symm.trans h'.1
    cases h.2.1.symm.trans h'.2.1
    exact hQ
  · intro hQ
    exact ⟨fs, gs, h, hQ⟩

/-- The literals can be compared, with fields of a kind, exactly when the
drafts can, with drafted fields of that kind. -/
theorem exists_comparable_iff (hp : List.Forall₂ (Property.Depicts r.old.text 1) ps ps')
    (hq : List.Forall₂ (Property.Depicts r.new.text 1) qs qs')
    {P : List Metadata.Field → List Metadata.Field → Prop} {Q : List Field → List Field → Prop}
    (hkind : ∀ fs gs fs' gs', List.Forall₂ (Field.Depicts r.old.text) fs fs' →
      List.Forall₂ (Field.Depicts r.new.text) gs gs' → (P fs' gs' ↔ Q fs gs)) :
    (∃ fs' gs', Metadata.Comparable ⟨r.old.text, ps'⟩ ⟨r.new.text, qs'⟩ fs' gs' ∧ P fs' gs') ↔
      ∃ fs gs, Comparable ps qs fs gs ∧ Q fs gs := by
  rcases rel_cases (depictsFields hp) with ⟨hfs, hfs'⟩ | ⟨fs, fs', hfs, hfs', hf⟩
  · simp [Metadata.Comparable, Comparable, hfs, hfs']
  rcases rel_cases (depictsFields hq) with ⟨hgs, hgs'⟩ | ⟨gs, gs', hgs, hgs', hg⟩
  · simp [Metadata.Comparable, Comparable, hgs, hgs']
  constructor
  · intro h
    obtain ⟨xs, ys, ⟨hxs, hys, hfixed⟩, hP⟩ := h
    cases hfs'.symm.trans hxs
    cases hgs'.symm.trans hys
    exact ⟨fs, gs, ⟨hfs, hgs, (sameFixed_iff hf hg).1 hfixed⟩, (hkind _ _ _ _ hf hg).1 hP⟩
  · intro h
    obtain ⟨xs, ys, ⟨hxs, hys, hfixed⟩, hQ⟩ := h
    cases hfs.symm.trans hxs
    cases hgs.symm.trans hys
    exact ⟨fs', gs', ⟨hfs', hgs', (sameFixed_iff hf hg).2 hfixed⟩, (hkind _ _ _ _ hf hg).2 hQ⟩

theorem change_ne_blocked_iff (hp : List.Forall₂ (Property.Depicts r.old.text 1) ps ps')
    (hq : List.Forall₂ (Property.Depicts r.new.text 1) qs qs') :
    (∀ obstacle, Metadata.change ⟨r.old.text, ps'⟩ ⟨r.new.text, qs'⟩ ≠ .blocked obstacle) ↔
      ∃ fs gs, Comparable ps qs fs gs := by
  have h := exists_comparable_iff hp hq (P := fun _ _ => True) (Q := fun _ _ => True)
    fun _ _ _ _ _ _ => Iff.rfl
  simp only [and_true] at h
  rw [Metadata.change_ne_blocked_iff, h]

theorem change_eq_live_iff (hp : List.Forall₂ (Property.Depicts r.old.text 1) ps ps')
    (hq : List.Forall₂ (Property.Depicts r.new.text 1) qs qs') :
    Metadata.change ⟨r.old.text, ps'⟩ ⟨r.new.text, qs'⟩ = .live ↔
      ∃ fs gs, Comparable ps qs fs gs ∧ ¬ SameLive fs gs := by
  rw [Metadata.change_eq_live_iff]
  exact exists_comparable_iff hp hq fun _ _ _ _ hf hg => not_congr (metadataSameLive_iff hf hg)

end Draft

end HotSwap
