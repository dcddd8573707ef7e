/-
HotSwap.Proofs.Unedited — a file that is compared with itself.

A file that was touched but not edited is never refused for a difference
and never has a class to swap, as each span of a valid tree is the same as
itself (`Source.Valid.same_self`). What remains are the demands on how a
component's metadata is written. `Class.WellMarked` says what they are,
`Class.IllMarked` which of them is the first that a class does not meet,
and a file without edits is refused for nothing else
(`swaps_unedited`).
-/
import HotSwap.Proofs.Relocation

namespace HotSwap

/-! ## Metadata that can be compared -/

/-- An assignment to a name that is not computed. -/
def Property.IsPlain : Property → Prop
  | .assign _ key _ => ∀ span, key ≠ .computed span
  | .shorthand .. | .spread .. | .method .. => False

/-- The decorator is a call with one argument, a literal of the given
properties. -/
def Decorator.HoldsLiteral (d : Decorator) (properties : List Property) : Prop :=
  ∃ span call literal, d = .call span call ∧
    call.arguments.items = [.object literal properties]

/-- The class has one decorator, which the index is the index of, and it
is a call with one literal of plain assignments. Names may repeat. -/
structure Class.WellMarked (c : Class) (index : Nat) : Prop where
  index_eq : index = 0
  literal : ∃ d properties, c.decorators = [d] ∧ d.HoldsLiteral properties ∧
    ∀ p ∈ properties, p.IsPlain

/-- The first thing that is amiss with a class whose metadata is said to
be at the index. -/
inductive Class.IllMarked (c : Class) (index : Nat) : Cause → Prop where
  | several (h : 2 ≤ c.decorators.length) : IllMarked c index .severalDecorators
  | noSuch (sole : c.decorators.length ≤ 1) (h : c.decorators.length ≤ index) :
      IllMarked c index .noSuchDecorator
  | shape (d : Decorator) (sole : c.decorators = [d]) (index_eq : index = 0)
      (h : ∀ properties, ¬ d.HoldsLiteral properties) : IllMarked c index .decoratorShape
  | notAField (d : Decorator) (sole : c.decorators = [d]) (index_eq : index = 0)
      (properties : List Property) (literal : d.HoldsLiteral properties) (p : Property)
      (hp : p ∈ properties) (h : ¬ p.IsPlain) : IllMarked c index (.metadata .notAField)

theorem Property.isPlain_iff (p : Property) : p.IsPlain ↔ ∃ f, p.field? = some f := by
  cases p with
  | assign span key value => cases key <;> simp [IsPlain, field?, Key.text?]
  | shorthand span name => simp [IsPlain, field?]
  | spread span value => simp [IsPlain, field?]
  | method span key => simp [IsPlain, field?]

theorem Metadata.fields?_isSome_iff (ps : List Property) :
    (∃ fs, fields? ps = some fs) ↔ ∀ p ∈ ps, p.IsPlain := by
  induction ps with
  | nil => simp [fields?_nil]
  | cons p ps ih =>
    rw [List.forall_mem_cons, ← ih, p.isPlain_iff]
    cases hp : p.field? with
    | none => simp [fields?_cons_of_none hp]
    | some f => simp [fields?_cons_of_some hp]

theorem Class.metadataCall?_eq_some_iff_holdsLiteral {c : Class} {d : Decorator}
    (hc : c.decorators = [d]) (properties : List Property) :
    (∃ callee, c.metadataCall? 0 = some ⟨callee, properties⟩) ↔ d.HoldsLiteral properties := by
  simp only [metadataCall?_eq_some_iff, hc, List.getElem?_cons_zero, Option.some.injEq]
  constructor
  · rintro ⟨callee, span, call, literal, rfl, -, hitems⟩
    exact ⟨span, call, literal, rfl, hitems⟩
  · rintro ⟨span, call, literal, rfl, hitems⟩
    exact ⟨call.callee, span, call, literal, rfl, rfl, hitems⟩

/-- The demands on a class as a test. -/
theorem Class.wellMarked_iff (c : Class) (index : Nat) :
    c.WellMarked index ↔ index = 0 ∧ c.decorators.length = 1 ∧
      ((c.metadataCall? 0).bind (Metadata.fields? ·.properties)).isSome = true := by
  constructor
  · rintro ⟨hindex, d, properties, hd, hliteral, hplain⟩
    obtain ⟨callee, hm⟩ := (metadataCall?_eq_some_iff_holdsLiteral hd properties).2 hliteral
    obtain ⟨fs, hfs⟩ := (Metadata.fields?_isSome_iff properties).2 hplain
    simp [hindex, hd, hm, hfs]
  · rintro ⟨hindex, hlength, hfields⟩
    obtain ⟨d, hd⟩ := List.length_eq_one_iff.1 hlength
    obtain ⟨fs, hfs⟩ := Option.isSome_iff_exists.1 hfields
    obtain ⟨⟨callee, properties⟩, hm, hfs⟩ := Option.bind_eq_some_iff.1 hfs
    exact ⟨hindex, d, properties, hd,
      (metadataCall?_eq_some_iff_holdsLiteral hd properties).1 ⟨callee, hm⟩,
      (Metadata.fields?_isSome_iff properties).1 ⟨fs, hfs⟩⟩

theorem Class.wellMarked_or_illMarked (c : Class) (index : Nat) :
    c.WellMarked index ∨ ∃ cause, c.IllMarked index cause := by
  by_cases hseveral : 2 ≤ c.decorators.length
  case pos => exact .inr ⟨_, .several hseveral⟩
  by_cases hindex : c.decorators.length ≤ index
  case pos => exact .inr ⟨_, .noSuch (by omega) hindex⟩
  have hzero : index = 0 := by omega
  obtain ⟨d, hd⟩ := List.length_eq_one_iff.1 (show c.decorators.length = 1 by omega)
  by_cases hliteral : ∃ properties, d.HoldsLiteral properties
  case neg => exact .inr ⟨_, .shape d hd hzero (not_exists.1 hliteral)⟩
  obtain ⟨properties, hliteral⟩ := hliteral
  by_cases hplain : ∀ p ∈ properties, p.IsPlain
  · exact .inl ⟨hzero, d, properties, hd, hliteral, hplain⟩
  · simp only [not_forall] at hplain
    obtain ⟨p, hp, hnot⟩ := hplain
    exact .inr ⟨_, .notAField d hd hzero properties hliteral p hp hnot⟩

/-! ## Spans of the parts of a tree -/

theorem Expr.span_mem_spans (e : Expr) : e.span ∈ e.spans := by
  cases e <;> simp [span, spans]

theorem Property.mem_spans_of_field? {p : Property} {f : Metadata.Field}
    (h : p.field? = some f) : f.span ∈ p.spans ∧ f.value ∈ p.spans := by
  cases p with
  | assign span key value =>
    obtain ⟨name, -, rfl⟩ := Option.map_eq_some_iff.1 h
    simp [spans, value.span_mem_spans]
  | shorthand span name => cases h
  | spread span value => cases h
  | method span key => cases h

theorem Decorator.mem_spans_of_callee (span : Span) (call : Call) :
    call.callee ∈ (Decorator.call span call).spans := by
  simp [spans, Call.spans]

/-- The spans in a literal's properties are spans of the decorator that
holds the literal. -/
theorem Decorator.mem_spans_of_property {span literal : Span} {call : Call}
    {properties : List Property} (hitems : call.arguments.items = [.object literal properties])
    {p : Property} (hp : p ∈ properties) {inner : Span} (h : inner ∈ p.spans) :
    inner ∈ (Decorator.call span call).spans := by
  have hmem : inner ∈ Property.spansOfList properties := by
    rw [Property.spansOfList_eq]
    exact List.mem_flatMap.2 ⟨p, hp, h⟩
  simp [spans, Call.spans, Delimited.spans, hitems, Expr.spans, hmem]

theorem Class.mem_spans_of_decorator {c : Class} {d : Decorator} (hd : d ∈ c.decorators)
    {span : Span} (h : span ∈ d.spans) : span ∈ c.spans := by
  have hmem : span ∈ c.decorators.flatMap Decorator.spans := List.mem_flatMap.2 ⟨d, hd, h⟩
  simp only [spans, List.mem_cons, List.mem_append]
  simp [hmem]

theorem Statement.mem_spans_of_declared {a : Statement} {c : Class} (h : a.declared = some c)
    {span : Span} (hspan : span ∈ c.spans) : span ∈ a.spans := by
  simp [spans, h, hspan]

/-! ## Nothing differs from itself -/

theorem Source.Valid.same_self {s : Source} (hs : s.Valid) {span : Span} (h : span ∈ s.spans) :
    (Revision.mk s s).same span span = true := by
  obtain ⟨piece, hcovers⟩ := hs span h
  exact (Excerpt.same_iff_of_covers hcovers hcovers).2 rfl

theorem Source.Valid.same_self_of_getElem? {s : Source} (hs : s.Valid) {i : Nat} {a : Statement}
    (ha : s.statements[i]? = some a) :
    ∀ span ∈ a.spans, (Revision.mk s s).same span span = true := by
  intro span hspan
  exact hs.same_self (List.mem_flatMap.2 ⟨a, List.mem_of_getElem? ha, hspan⟩)

namespace Metadata

/-- A literal whose properties are not all fields is not compared at
all. -/
theorem change_of_fields?_eq_none {old new : Metadata} (h : fields? old.properties = none) :
    change old new = .blocked .notAField := by
  rw [change, liveSides, sortOld_eq, h]
  rfl

/-- A literal of fields with sound spans is unchanged against itself, also
if it gives a name more than one value. -/
theorem change_self {text : String} {ps : List Property} {fs : List Field}
    (hfs : fields? ps = some fs)
    (hsame : ∀ p ∈ ps, ∀ span ∈ p.spans, Excerpt.same ⟨text, span⟩ ⟨text, span⟩ = true) :
    change ⟨text, ps⟩ ⟨text, ps⟩ = .unchanged := by
  have hfield : ∀ f ∈ fs, Excerpt.same ⟨text, f.span⟩ ⟨text, f.span⟩ = true ∧
      Excerpt.same ⟨text, f.value⟩ ⟨text, f.value⟩ = true := by
    intro f hf
    obtain ⟨p, hp, hpf⟩ := exists_mem_of_forall₂_right ((fields?_eq_some_iff ps fs).1 hfs) hf
    obtain ⟨hspan, hvalue⟩ := Property.mem_spans_of_field? hpf
    exact ⟨hsame p hp _ hspan, hsame p hp _ hvalue⟩
  have hfixed : SameFixed text text fs fs := by
    refine List.forall₂_same.2 fun f hf => ?_
    exact (hfield f (List.mem_of_mem_filter hf)).1
  have hlive : SameLive text text fs fs := by
    intro name
    cases hvalue : lastValue? fs name with
    | none => rfl
    | some value =>
      obtain ⟨f, hf, rfl⟩ := Option.map_eq_some_iff.1 hvalue
      exact (hfield f (List.mem_reverse.1 (List.mem_of_find?_eq_some hf))).2
  exact (change_of_comparable ⟨hfs, hfs, hfixed⟩).1 hlive

end Metadata

namespace Revision

variable {s : Source} {c : Class} {index : Nat}

theorem sameHeader_self (hs : ∀ span ∈ c.spans, (Revision.mk s s).same span span = true) :
    (Revision.mk s s).SameHeader c c where
  name := rfl
  heritage := by
    cases h : c.heritage with
    | none => rfl
    | some list => exact hs list.span (by simp [Class.spans, Delimited.spans, h])
  typeParams := by
    cases h : c.typeParams with
    | none => rfl
    | some list => exact hs list.span (by simp [Class.spans, Delimited.spans, h])
  modifierCount := rfl
  keywords _ := Iff.rfl

/-- The metadata of a class in a valid tree is unchanged against itself if
its properties are plain, and else no field. -/
theorem change_self (hs : ∀ span ∈ c.spans, (Revision.mk s s).same span span = true)
    {m : MetadataCall} (hm : c.metadataCall? index = some m) :
    (Revision.mk s s).same m.callee m.callee = true ∧
      ((∀ p ∈ m.properties, p.IsPlain) → (Revision.mk s s).change m m = .unchanged) ∧
      (¬ (∀ p ∈ m.properties, p.IsPlain) →
        (Revision.mk s s).change m m = .blocked .notAField) := by
  obtain ⟨span, call, literal, hd, hcallee, hitems⟩ :=
    (Class.metadataCall?_eq_some_iff c index m).1 hm
  have hmem := List.mem_of_getElem? hd
  refine ⟨?_, fun hplain => ?_, fun hplain => ?_⟩
  · rw [← hcallee]
    exact hs _ (Class.mem_spans_of_decorator hmem (Decorator.mem_spans_of_callee span call))
  · obtain ⟨fs, hfs⟩ := (Metadata.fields?_isSome_iff m.properties).2 hplain
    refine Metadata.change_self hfs fun p hp inner hinner => ?_
    exact hs inner
      (Class.mem_spans_of_decorator hmem (Decorator.mem_spans_of_property hitems hp hinner))
  · rw [← Metadata.fields?_isSome_iff, ← Option.isSome_iff_exists, Option.not_isSome_iff_eq_none]
      at hplain
    exact Metadata.change_of_fields?_eq_none hplain

theorem sameComponent_self (hs : ∀ span ∈ c.spans, (Revision.mk s s).same span span = true)
    (h : c.WellMarked index) : (Revision.mk s s).SameComponent c c index := by
  obtain ⟨rfl, d, properties, hd, hliteral, hplain⟩ := h
  obtain ⟨callee, hm⟩ := (Class.metadataCall?_eq_some_iff_holdsLiteral hd properties).2 hliteral
  obtain ⟨hcallee, hunchanged, -⟩ := change_self hs hm
  have hlength : c.decorators.length = 1 := by rw [hd]; rfl
  refine ⟨⟨hlength, hlength, rfl⟩, ⟨_, _, hm, hm, hcallee, ?_⟩, ?_⟩
  · rw [hunchanged hplain]
    simp
  · exact hs _ (by simp [Class.spans, Delimited.spans])

theorem componentFault_self (hs : ∀ span ∈ c.spans, (Revision.mk s s).same span span = true)
    {cause : Cause} (h : c.IllMarked index cause) :
    (Revision.mk s s).ComponentFault c c index cause := by
  cases h with
  | several h => exact .several rfl h
  | noSuch sole h => exact .noSuch rfl sole h
  | shape d hd hindex h =>
    subst hindex
    have hlength : c.decorators.length = 1 := by rw [hd]; rfl
    have hnone : c.metadataCall? 0 = none := by
      rw [Option.eq_none_iff_forall_ne_some]
      rintro ⟨callee, properties⟩ hm
      exact h properties
        ((Class.metadataCall?_eq_some_iff_holdsLiteral hd properties).1 ⟨callee, hm⟩)
    exact .shape ⟨hlength, hlength, rfl⟩ (.inl hnone)
  | notAField d hd hindex properties hliteral p hp h =>
    subst hindex
    have hlength : c.decorators.length = 1 := by rw [hd]; rfl
    obtain ⟨callee, hm⟩ := (Class.metadataCall?_eq_some_iff_holdsLiteral hd properties).2 hliteral
    obtain ⟨hcallee, -, hblocked⟩ := change_self hs hm
    exact .metadata ⟨hlength, hlength, rfl⟩ _ _ .notAField hm hm hcallee
      (hblocked fun hplain => h (hplain p hp))

/-! ## Places -/

section Places

variable {metadataIndex? : Class → Option Nat} {a : Statement}
variable (hs : ∀ span ∈ a.spans, (Revision.mk s s).same span span = true)
include hs

theorem accepts_of_wellMarked (h : ∀ c index, a.declared = some c →
    metadataIndex? c = some index → c.WellMarked index) :
    (Revision.mk s s).Accepts metadataIndex? a a := by
  have htext : (Revision.mk s s).same a.span a.span = true := hs _ (by simp [Statement.spans])
  cases hdeclared : a.declared with
  | none => exact .plain hdeclared htext
  | some c =>
    have hc : ∀ span ∈ c.spans, (Revision.mk s s).same span span = true :=
      fun span hspan => hs span (Statement.mem_spans_of_declared hdeclared hspan)
    have header := sameHeader_self hc
    cases hmarked : metadataIndex? c with
    | none => exact .unmarked c c hdeclared hdeclared header hmarked htext
    | some index =>
      exact .component c c index hdeclared hdeclared header hmarked
        (sameComponent_self hc (h c index hdeclared hmarked))

theorem rejects_of_illMarked (hdeclared : a.declared = some c)
    (hmarked : metadataIndex? c = some index) {cause : Cause} (h : c.IllMarked index cause) :
    (Revision.mk s s).Rejects metadataIndex? a a cause := by
  have hc : ∀ span ∈ c.spans, (Revision.mk s s).same span span = true :=
    fun span hspan => hs span (Statement.mem_spans_of_declared hdeclared hspan)
  exact .component c c index hdeclared hdeclared (sameHeader_self hc) hmarked cause
    (componentFault_self hc h)

theorem accepts_self_iff : (Revision.mk s s).Accepts metadataIndex? a a ↔
    ∀ c index, a.declared = some c → metadataIndex? c = some index → c.WellMarked index := by
  refine ⟨fun haccepts c index hdeclared hmarked => ?_, accepts_of_wellMarked hs⟩
  rcases c.wellMarked_or_illMarked index with hwell | ⟨cause, hill⟩
  · exact hwell
  · have hrejects := rejects_of_illMarked hs hdeclared hmarked hill
    exact absurd haccepts (not_accepts_of_rejects _ _ hrejects)

theorem rejects_self_iff (cause : Cause) : (Revision.mk s s).Rejects metadataIndex? a a cause ↔
    ∃ c index, a.declared = some c ∧ metadataIndex? c = some index ∧ c.IllMarked index cause := by
  constructor
  · intro hrejects
    have hnot := not_accepts_of_rejects _ _ hrejects
    rw [accepts_self_iff hs] at hnot
    simp only [not_forall] at hnot
    obtain ⟨c, index, hdeclared, hmarked, hnot⟩ := hnot
    obtain ⟨cause', hill⟩ := (c.wellMarked_or_illMarked index).resolve_left hnot
    -- A place is rejected for one cause only.
    have hcause := checkStatement_of_rejects _ _ (rejects_of_illMarked hs hdeclared hmarked hill)
    rw [checkStatement_of_rejects _ _ hrejects, Except.error.injEq] at hcause
    exact ⟨c, index, hdeclared, hmarked, hcause ▸ hill⟩
  · rintro ⟨c, index, hdeclared, hmarked, hill⟩
    exact rejects_of_illMarked hs hdeclared hmarked hill

theorem swapAt?_self : (Revision.mk s s).swapAt? metadataIndex? a a = none := by
  rw [Option.eq_none_iff_forall_ne_some]
  intro id hid
  obtain ⟨c, d, index, m, m', hc, hd, -, hm, hm', hlive, -⟩ := (swapAt?_eq_some_iff _ _ _ _ _).1 hid
  cases hc.symm.trans hd
  cases hm.symm.trans hm'
  obtain ⟨-, hunchanged, hblocked⟩ := change_self
    (fun span hspan => hs span (Statement.mem_spans_of_declared hc hspan)) hm
  by_cases hplain : ∀ p ∈ m.properties, p.IsPlain
  · cases (hunchanged hplain).symm.trans hlive
  · cases (hblocked hplain).symm.trans hlive

end Places

end Revision

/-! ## Files -/

/-- The class that the statement at an index declares. -/
def Source.classAt? (s : Source) (i : Nat) : Option Class := s.statements[i]?.bind (·.declared)

theorem Source.classAt?_eq_some_iff (s : Source) (i : Nat) (c : Class) :
    s.classAt? i = some c ↔ ∃ a, s.statements[i]? = some a ∧ a.declared = some c :=
  Option.bind_eq_some_iff

theorem Source.mem_classes_iff (s : Source) (c : Class) :
    c ∈ s.classes ↔ ∃ i, s.classAt? i = some c := by
  rw [classes, List.mem_filterMap]
  simp only [List.mem_iff_getElem?, classAt?_eq_some_iff]
  constructor
  · rintro ⟨a, ⟨i, ha⟩, hc⟩
    exact ⟨i, a, ha, hc⟩
  · rintro ⟨i, a, ha, hc⟩
    exact ⟨a, ⟨i, ha⟩, hc⟩

namespace Revision

open Draft (cardFile)

variable {s : Source} (metadataIndex? : Class → Option Nat)

theorem acceptsAt_self_iff (hs : s.Valid) (i : Nat) :
    (Revision.mk s s).AcceptsAt metadataIndex? s.statements s.statements i ↔
      ∀ c index, s.classAt? i = some c → metadataIndex? c = some index →
        c.WellMarked index := by
  constructor
  · intro h c index hc hmarked
    obtain ⟨a, ha, hdeclared⟩ := (s.classAt?_eq_some_iff i c).1 hc
    have hsame := hs.same_self_of_getElem? ha
    exact (accepts_self_iff hsame).1 (h a a ha ha) c index hdeclared hmarked
  · intro h a b ha hb
    cases ha.symm.trans hb
    have hsame := hs.same_self_of_getElem? ha
    refine (accepts_self_iff hsame).2 fun c index hdeclared hmarked => ?_
    exact h c index ((s.classAt?_eq_some_iff i c).2 ⟨a, ha, hdeclared⟩) hmarked

theorem rejectsAt_self_iff (hs : s.Valid) (i : Nat) (cause : Cause) :
    (Revision.mk s s).RejectsAt metadataIndex? s.statements s.statements i cause ↔
      ∃ c index, s.classAt? i = some c ∧ metadataIndex? c = some index ∧
        c.IllMarked index cause := by
  constructor
  · rintro ⟨a, b, ha, hb, hrejects⟩
    cases ha.symm.trans hb
    have hsame := hs.same_self_of_getElem? ha
    obtain ⟨c, index, hdeclared, hmarked, hill⟩ := (rejects_self_iff hsame cause).1 hrejects
    exact ⟨c, index, (s.classAt?_eq_some_iff i c).2 ⟨a, ha, hdeclared⟩, hmarked, hill⟩
  · rintro ⟨c, index, hc, hmarked, hill⟩
    obtain ⟨a, ha, hdeclared⟩ := (s.classAt?_eq_some_iff i c).1 hc
    have hsame := hs.same_self_of_getElem? ha
    exact ⟨a, a, ha, ha, (rejects_self_iff hsame cause).2 ⟨c, index, hdeclared, hmarked, hill⟩⟩

theorem swapsOf_self (hs : s.Valid) :
    (Revision.mk s s).swapsOf metadataIndex? s.statements s.statements = [] := by
  rw [List.eq_nil_iff_forall_not_mem]
  intro id hid
  obtain ⟨i, a, b, ha, hb, hswap⟩ := (mem_swapsOf _ _ _ _ _).1 hid
  cases ha.symm.trans hb
  have hsame := hs.same_self_of_getElem? ha
  rw [swapAt?_self hsame] at hswap
  cases hswap

/-- **A file without edits.** Comparing a valid source with itself gives
no class to swap. It is accepted exactly when each class that the program
knows as a component has its metadata in a form that can be compared, and
otherwise refused at the first class that has not, for the first thing
that is amiss there. -/
theorem swaps_unedited (s : Source) (h : s.validated = .ok s) (v : View) :
    (∀ ids, (Revision.mk s s).swaps v.metadataIndex? = .ok ids → ids = []) ∧
      ((Revision.mk s s).swaps v.metadataIndex? = .ok [] ↔
        ∀ c ∈ s.classes, ∀ index, v.metadataIndex? c = some index → c.WellMarked index) ∧
      ∀ refusal, (Revision.mk s s).swaps v.metadataIndex? = .error refusal ↔
        ∃ i c index cause, refusal = ⟨some i, cause⟩ ∧ s.classAt? i = some c ∧
          v.metadataIndex? c = some index ∧ c.IllMarked index cause ∧
          ∀ j < i, ∀ d k, s.classAt? j = some d → v.metadataIndex? d = some k →
            d.WellMarked k := by
  obtain ⟨-, -, hs⟩ := (Source.validated_eq_ok_iff s s).1 h
  refine ⟨fun ids hids => ?_, ?_, fun refusal => ?_⟩
  · obtain ⟨-, -, rfl⟩ := (swaps_eq_ok_iff _ _ _).1 hids
    exact swapsOf_self v.metadataIndex? hs
  · rw [swaps_eq_ok_iff]
    simp only [swapsOf_self v.metadataIndex? hs, acceptsAt_self_iff v.metadataIndex? hs,
      Source.mem_classes_iff, true_and, and_true]
    exact ⟨fun h c ⟨i, hc⟩ index => h i c index hc, fun h i c index hc => h c ⟨i, hc⟩ index⟩
  · rw [swaps_eq_error_iff]
    simp only [rejectsAt_self_iff v.metadataIndex? hs, acceptsAt_self_iff v.metadataIndex? hs,
      ne_eq, not_true_eq_false, false_and, true_and, false_or]
    constructor
    · rintro ⟨i, cause, rfl, ⟨c, index, hc, hmarked, hill⟩, hbefore⟩
      exact ⟨i, c, index, cause, rfl, hc, hmarked, hill, hbefore⟩
    · rintro ⟨i, c, index, cause, rfl, hc, hmarked, hill, hbefore⟩
      exact ⟨i, cause, rfl, ⟨c, index, hc, hmarked, hill⟩, hbefore⟩

/-- A file with a component that gives its template twice, and a class
without decorators. -/
def repeatingFile : Draft.File where
  path := "card.ts"
  statements :=
    [.declare { name := some "Card", decorators :=
      [.call "Component" [.object [.assign (.identifier "template") (.verbatim "'Hi'"),
        .assign (.quoted "template") (.verbatim "'Ho'")]]] },
      .declare { name := some "Plain" }]

/-- The program that looks for the metadata of class 1 where no decorator
is. -/
def misledView : View := (Program.empty.mark ⟨1⟩ ⟨2, true⟩).view

theorem swaps_unedited_repeating :
    repeatingFile.source.validated = .ok repeatingFile.source ∧
    (Revision.mk repeatingFile.source repeatingFile.source).swaps
      cardView.metadataIndex? = .ok [] ∧
    (Revision.mk repeatingFile.source repeatingFile.source).swaps
      misledView.metadataIndex? = .error ⟨some 1, .noSuchDecorator⟩ := by
  have hvalid : repeatingFile.source.validated = .ok repeatingFile.source :=
    repeatingFile.build_eq_ok (by decide)
  obtain ⟨-, hok, -⟩ := swaps_unedited _ hvalid cardView
  obtain ⟨-, -, herror⟩ := swaps_unedited _ hvalid misledView
  refine ⟨hvalid, hok.2 ?_, (herror _).2 ?_⟩
  · have hmarked : ∀ c ∈ repeatingFile.source.classes, ∀ index ∈ cardView.metadataIndex? c,
        index = 0 ∧ c.decorators.length = 1 ∧
          ((c.metadataCall? 0).bind (Metadata.fields? ·.properties)).isSome = true := by
      decide
    exact fun c hc index hindex => (c.wellMarked_iff index).2 (hmarked c hc index hindex)
  · have hsome : (repeatingFile.source.classAt? 1).isSome = true := by decide
    have hplain : ∀ c ∈ repeatingFile.source.classAt? 1,
        misledView.metadataIndex? c = some 2 ∧ c.decorators.length = 0 := by decide
    have hbefore : ∀ j < 1, ∀ d ∈ repeatingFile.source.classAt? j,
        misledView.metadataIndex? d = none := by decide
    obtain ⟨c, hc⟩ := Option.isSome_iff_exists.1 hsome
    obtain ⟨hmarked, hlength⟩ := hplain c hc
    refine ⟨1, c, 2, _, rfl, hc, hmarked, .noSuch (by omega) (by omega), ?_⟩
    intro j hj d k hd hk
    cases (hbefore j hj d hd).symm.trans hk

end Revision

end HotSwap
