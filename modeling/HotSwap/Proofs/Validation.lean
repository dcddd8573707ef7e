/-
HotSwap.Proofs.Validation — which trees describe their text, and what is
reported of those that do not.

A tree stores spans in many places, and `Source.HasSpan` has a case for
each of them. Validation looks at exactly these spans
(`Source.mem_spans_iff`), and it finds no fault with a span exactly when
the span can be read as a string. So a source is let through just when all
its spans can be read, and otherwise the first one in reading order that
cannot is reported, with what is wrong with it
(`Source.validated_span_by_span`).
-/
import HotSwap.Proofs.Excerpt

namespace HotSwap

/-! ## Places of spans -/

mutual
/-- The span is stored in the expression or below it. -/
inductive Expr.HasSpan : Expr → Span → Prop where
  | verbatim (span : Span) : Expr.HasSpan (.verbatim span) span
  | object (span : Span) (properties : List Property) :
      Expr.HasSpan (.object span properties) span
  | property {span : Span} {properties : List Property} {p : Property} {inner : Span}
      (hp : p ∈ properties) (h : Property.HasSpan p inner) :
      Expr.HasSpan (.object span properties) inner
/-- The span is stored in the property or below it. -/
inductive Property.HasSpan : Property → Span → Prop where
  | assign (span : Span) (key : Key) (value : Expr) :
      Property.HasSpan (.assign span key value) span
  | assignKey (span : Span) (key : Key) (value : Expr) :
      Property.HasSpan (.assign span key value) key.span
  | assignValue {span : Span} {key : Key} {value : Expr} {inner : Span}
      (h : Expr.HasSpan value inner) : Property.HasSpan (.assign span key value) inner
  | shorthand (span : Span) (name : Name) : Property.HasSpan (.shorthand span name) span
  | shorthandName (span : Span) (name : Name) :
      Property.HasSpan (.shorthand span name) name.span
  | spread (span : Span) (value : Expr) : Property.HasSpan (.spread span value) span
  | spreadValue {span : Span} {value : Expr} {inner : Span} (h : Expr.HasSpan value inner) :
      Property.HasSpan (.spread span value) inner
  | method (span : Span) (key : Key) : Property.HasSpan (.method span key) span
  | methodKey (span : Span) (key : Key) : Property.HasSpan (.method span key) key.span
end

/-- The span is stored in the decorator or below it. -/
inductive Decorator.HasSpan : Decorator → Span → Prop where
  | call (span : Span) (c : Call) : HasSpan (.call span c) span
  | callSpan (span : Span) (c : Call) : HasSpan (.call span c) c.span
  | callee (span : Span) (c : Call) : HasSpan (.call span c) c.callee
  | arguments (span : Span) (c : Call) : HasSpan (.call span c) c.arguments.span
  | argument {span : Span} {c : Call} {e : Expr} {inner : Span} (he : e ∈ c.arguments.items)
      (h : e.HasSpan inner) : HasSpan (.call span c) inner
  | bare (span target : Span) : HasSpan (.bare span target) span
  | target (span target : Span) : HasSpan (.bare span target) target

/-- The span is stored in the class or below it. -/
inductive Class.HasSpan (c : Class) : Span → Prop where
  | whole : HasSpan c c.span
  | name {n : Name} (h : c.name = some n) : HasSpan c n.span
  | decorator {d : Decorator} {inner : Span} (hd : d ∈ c.decorators) (h : d.HasSpan inner) :
      HasSpan c inner
  | modifier {m : Modifier} (hm : m ∈ c.modifiers) : HasSpan c m.span
  | typeParams {list : Delimited Span} (h : c.typeParams = some list) : HasSpan c list.span
  | typeParam {list : Delimited Span} {param : Span} (h : c.typeParams = some list)
      (hp : param ∈ list.items) : HasSpan c param
  | heritage {list : Delimited HeritageClause} (h : c.heritage = some list) :
      HasSpan c list.span
  | clause {list : Delimited HeritageClause} {clause : HeritageClause}
      (h : c.heritage = some list) (hc : clause ∈ list.items) : HasSpan c clause.span
  | members : HasSpan c c.members.span
  | member {m : Span} (hm : m ∈ c.members.items) : HasSpan c m

/-- The span is stored in the statement or below it. -/
inductive Statement.HasSpan (a : Statement) : Span → Prop where
  | whole : HasSpan a a.span
  | declared {c : Class} {inner : Span} (hc : a.declared = some c) (h : c.HasSpan inner) :
      HasSpan a inner

/-- The span is stored somewhere in the source's tree. -/
def Source.HasSpan (s : Source) (span : Span) : Prop := ∃ a ∈ s.statements, a.HasSpan span

/-! ## Every place is read -/

mutual
theorem Expr.mem_spans_iff : ∀ (e : Expr) (inner : Span), inner ∈ e.spans ↔ e.HasSpan inner
  | .verbatim span, inner => by
    rw [Expr.spans, List.mem_singleton]
    constructor
    · rintro rfl
      exact .verbatim _
    · intro h
      cases h
      rfl
  | .object span ps, inner => by
    rw [Expr.spans, List.mem_cons, Property.mem_spansOfList_iff ps]
    constructor
    · rintro (rfl | ⟨p, hp, h⟩)
      · exact .object _ _
      · exact .property hp h
    · intro h
      cases h with
      | object => exact .inl rfl
      | property hp h => exact .inr ⟨_, hp, h⟩
theorem Property.mem_spans_iff : ∀ (p : Property) (inner : Span),
    inner ∈ p.spans ↔ p.HasSpan inner
  | .assign span key value, inner => by
    rw [Property.spans, List.mem_cons, List.mem_cons, Expr.mem_spans_iff value]
    constructor
    · rintro (rfl | rfl | h)
      · exact .assign _ _ _
      · exact .assignKey _ _ _
      · exact .assignValue h
    · intro h
      cases h with
      | assign => exact .inl rfl
      | assignKey => exact .inr (.inl rfl)
      | assignValue h => exact .inr (.inr h)
  | .shorthand span name, inner => by
    rw [Property.spans, List.mem_cons, List.mem_singleton]
    constructor
    · rintro (rfl | rfl)
      · exact .shorthand _ _
      · exact .shorthandName _ _
    · intro h
      cases h with
      | shorthand => exact .inl rfl
      | shorthandName => exact .inr rfl
  | .spread span value, inner => by
    rw [Property.spans, List.mem_cons, Expr.mem_spans_iff value]
    constructor
    · rintro (rfl | h)
      · exact .spread _ _
      · exact .spreadValue h
    · intro h
      cases h with
      | spread => exact .inl rfl
      | spreadValue h => exact .inr h
  | .method span key, inner => by
    rw [Property.spans, List.mem_cons, List.mem_singleton]
    constructor
    · rintro (rfl | rfl)
      · exact .method _ _
      · exact .methodKey _ _
    · intro h
      cases h with
      | method => exact .inl rfl
      | methodKey => exact .inr rfl
theorem Property.mem_spansOfList_iff : ∀ (ps : List Property) (inner : Span),
    inner ∈ Property.spansOfList ps ↔ ∃ p ∈ ps, p.HasSpan inner
  | [], inner => by simp [Property.spansOfList]
  | p :: ps, inner => by
    rw [Property.spansOfList, List.mem_append, Property.mem_spans_iff p,
      Property.mem_spansOfList_iff ps]
    simp only [List.mem_cons, exists_eq_or_imp]
end

theorem Decorator.mem_spans_iff (d : Decorator) (inner : Span) :
    inner ∈ d.spans ↔ d.HasSpan inner := by
  cases d with
  | bare span target =>
    rw [spans, List.mem_cons, List.mem_singleton]
    constructor
    · rintro (rfl | rfl)
      · exact .bare _ _
      · exact .target _ _
    · intro h
      cases h with
      | bare => exact .inl rfl
      | target => exact .inr rfl
  | call span c =>
    simp only [spans, Call.spans, Delimited.spans, List.mem_cons, List.mem_flatMap,
      Expr.mem_spans_iff]
    constructor
    · rintro (rfl | rfl | rfl | rfl | ⟨e, he, h⟩)
      · exact .call _ _
      · exact .callSpan _ _
      · exact .callee _ _
      · exact .arguments _ _
      · exact .argument he h
    · intro h
      cases h with
      | call => exact .inl rfl
      | callSpan => exact .inr (.inl rfl)
      | callee => exact .inr (.inr (.inl rfl))
      | arguments => exact .inr (.inr (.inr (.inl rfl)))
      | argument he h => exact .inr (.inr (.inr (.inr ⟨_, he, h⟩)))

theorem Class.mem_spans_iff (c : Class) (inner : Span) : inner ∈ c.spans ↔ c.HasSpan inner := by
  simp only [spans, Delimited.spans, List.mem_cons, List.mem_append, List.mem_map,
    List.mem_flatMap, Option.mem_toList, Decorator.mem_spans_iff,
    List.not_mem_nil, or_false]
  constructor
  · rintro (rfl | (((((⟨n, hn, rfl⟩ | ⟨d, hd, h⟩) | ⟨m, hm, rfl⟩) |
      ⟨list, hlist, rfl | ⟨param, hparam, rfl⟩⟩) |
      ⟨list, hlist, rfl | ⟨clause, hclause, rfl⟩⟩) | rfl | ⟨m, hm, rfl⟩))
    · exact .whole
    · exact .name hn
    · exact .decorator hd h
    · exact .modifier hm
    · exact .typeParams hlist
    · exact .typeParam hlist hparam
    · exact .heritage hlist
    · exact .clause hlist hclause
    · exact .members
    · exact .member hm
  · intro h
    cases h with
    | whole => simp
    | name h => simp [h]
    | decorator hd h => exact .inr (.inl (.inl (.inl (.inl (.inr ⟨_, hd, h⟩)))))
    | modifier hm => exact .inr (.inl (.inl (.inl (.inr ⟨_, hm, rfl⟩))))
    | typeParams h => simp [h]
    | typeParam h hp => simp [h, hp]
    | heritage h => simp [h]
    | clause h hc => exact .inr (.inl (.inr ⟨_, h, .inr ⟨_, hc, rfl⟩⟩))
    | members => simp
    | member hm => simp [hm]

theorem Statement.mem_spans_iff (a : Statement) (inner : Span) :
    inner ∈ a.spans ↔ a.HasSpan inner := by
  simp only [spans, List.mem_cons, List.mem_flatMap, Option.mem_toList,
    Class.mem_spans_iff]
  constructor
  · rintro (rfl | ⟨c, hc, h⟩)
    · exact .whole
    · exact .declared hc h
  · intro h
    cases h with
    | whole => exact .inl rfl
    | declared hc h => exact .inr ⟨_, hc, h⟩

/-- The spans in reading order are the spans at all places of the tree. -/
theorem Source.mem_spans_iff (s : Source) (span : Span) : span ∈ s.spans ↔ s.HasSpan span := by
  simp only [spans, HasSpan, List.mem_flatMap, Statement.mem_spans_iff]

/-! ## Faults -/

namespace Excerpt

/-- There is a byte at the offset, and it is not the first one of a
character. -/
def CutsCharacter (text : String) (offset : UInt32) : Prop :=
  ∃ h : String.Pos.Raw.mk offset.toNat < text.rawEndPos,
    ¬ (text.getUTF8Byte ⟨offset.toNat⟩ h).IsUTF8FirstByte

/-- The first thing that is wrong with the excerpt's span. -/
inductive HasFault (e : Excerpt) : Fault → Prop where
  | inverted (h : e.span.stop < e.span.start) : HasFault e (.inverted e.span)
  | outOfBounds (forwards : e.span.start ≤ e.span.stop)
      (h : e.text.utf8ByteSize < e.span.stop.toNat) :
      HasFault e (.outOfBounds e.span e.text.utf8ByteSize)
  | cutsCharacter (forwards : e.span.start ≤ e.span.stop)
      (inside : e.span.stop.toNat ≤ e.text.utf8ByteSize)
      (h : CutsCharacter e.text e.span.start ∨ CutsCharacter e.text e.span.stop) :
      HasFault e (.cutsCharacter e.span)

/-- Up to the end of a text, the offsets that cut no character are those
between characters. -/
theorem not_isValid_iff_cutsCharacter {text : String} {offset : UInt32}
    (h : offset.toNat ≤ text.utf8ByteSize) :
    ¬ (String.Pos.Raw.mk offset.toNat).IsValid text ↔ CutsCharacter text offset := by
  rw [String.Pos.Raw.isValid_iff_isUTF8FirstByte, CutsCharacter, not_or, not_exists]
  constructor
  · rintro ⟨hne, hfirst⟩
    have hlt : String.Pos.Raw.mk offset.toNat < text.rawEndPos := by
      rw [String.Pos.Raw.lt_iff, String.byteIdx_rawEndPos]
      refine Nat.lt_of_le_of_ne h fun heq => hne (String.Pos.Raw.ext heq)
    exact ⟨hlt, hfirst hlt⟩
  · rintro ⟨hlt, hfirst⟩
    refine ⟨?_, fun _ => hfirst⟩
    rintro heq
    rw [heq] at hlt
    exact Nat.lt_irrefl _ hlt

theorem fault?_eq_some_iff (e : Excerpt) (fault : Fault) :
    e.fault? = some fault ↔ e.HasFault fault := by
  have hboundary : e.span.start.toNat ≤ e.text.utf8ByteSize →
      e.span.stop.toNat ≤ e.text.utf8ByteSize →
      (¬ (e.startPos.IsValid e.text ∧ e.stopPos.IsValid e.text) ↔
        CutsCharacter e.text e.span.start ∨ CutsCharacter e.text e.span.stop) := by
    intro hstart hstop
    rw [← not_isValid_iff_cutsCharacter hstart, ← not_isValid_iff_cutsCharacter hstop,
      Decidable.not_and_iff_not_or_not]
    rfl
  constructor
  · intro h
    unfold fault? at h
    split at h
    · rename_i hinverted
      cases h
      exact .inverted (by simpa [Span.isInverted] using hinverted)
    rename_i hforwards
    have hle : e.span.start ≤ e.span.stop := by
      simpa [Span.isInverted] using hforwards
    split at h
    · rename_i hout
      cases h
      exact .outOfBounds hle hout
    rename_i hinside
    rw [Nat.not_lt] at hinside
    split at h
    · cases h
    · rename_i hcut
      cases h
      have hstart := Nat.le_trans (UInt32.le_iff_toNat_le.1 hle) hinside
      exact .cutsCharacter hle hinside ((hboundary hstart hinside).1 hcut)
  · intro h
    cases h with
    | inverted h => simp [fault?, Span.isInverted, h]
    | outOfBounds forwards h =>
      have hinverted : e.span.isInverted = false := by simpa [Span.isInverted] using forwards
      simp [fault?, hinverted, h]
    | cutsCharacter forwards inside h =>
      have hinverted : e.span.isInverted = false := by simpa [Span.isInverted] using forwards
      have hstart := Nat.le_trans (UInt32.le_iff_toNat_le.1 forwards) inside
      have hcut := (hboundary hstart inside).2 h
      simp [fault?, hinverted, Nat.not_lt.2 inside, hcut]

theorem HasFault.string?_eq_none {e : Excerpt} {fault : Fault} (h : e.HasFault fault) :
    e.string? = none := by
  rw [Option.eq_none_iff_forall_ne_some]
  intro piece hpiece
  have hnone : e.fault? = none := (fault?_eq_none_iff e).2 ⟨piece, covers_of_string? hpiece⟩
  rw [(fault?_eq_some_iff e fault).2 h] at hnone
  cases hnone

/-- A span without a fault is one that can be read. -/
theorem fault?_eq_none_iff_string? (e : Excerpt) :
    e.fault? = none ↔ ∃ piece, e.string? = some piece := by
  simp only [fault?_eq_none_iff, string?_eq_some_iff]

end Excerpt

/-! ## Validation -/

namespace Source

/-- What is reported of a text that is short enough is the fault of the
first span, in reading order, that has one. -/
theorem validated_eq_error_iff (s : Source) (hsize : s.text.utf8ByteSize ≤ Span.maxOffset)
    (defect : Defect) : s.validated = .error defect ↔
      ∃ before span after fault, s.spans = before ++ span :: after ∧
        (∀ a ∈ before, (s.excerpt a).fault? = none) ∧ (s.excerpt span).fault? = some fault ∧
        defect = .badSpan fault := by
  have hdefect : s.validated = .error defect ↔ s.defect? = some defect := by
    rw [validated]
    split
    · rename_i found hfound
      rw [hfound, Except.error.injEq, Option.some.injEq]
    · rename_i hnone
      simp [hnone]
  rw [hdefect, defect?, if_neg (Nat.not_lt.2 hsize), Option.map_eq_some_iff]
  simp only [List.findSome?_eq_some_iff]
  constructor
  · rintro ⟨fault, ⟨before, span, after, hspans, hfault, hbefore⟩, rfl⟩
    exact ⟨before, span, after, fault, hspans, hbefore, hfault, rfl⟩
  · rintro ⟨before, span, after, fault, hspans, hbefore, hfault, rfl⟩
    exact ⟨fault, ⟨before, span, after, hspans, hfault, hbefore⟩, rfl⟩

/-- **Validation, span by span.** A source whose text is short enough for
offsets is let through, as it is, exactly when each span at any place of
its tree can be read as a string. Otherwise the first span in reading
order that cannot be read is reported: as backwards, else as out of
bounds, else as cutting a character. -/
theorem validated_span_by_span (s : Source) (hsize : s.text.utf8ByteSize ≤ Span.maxOffset) :
    ((∃ t, s.validated = .ok t) ↔
        ∀ span, s.HasSpan span → ∃ piece, s.string? span = some piece) ∧
      (∀ t, s.validated = .ok t → t = s) ∧
      ∀ defect, s.validated = .error defect ↔
        ∃ before span after fault, s.spans = before ++ span :: after ∧
          (∀ a ∈ before, ∃ piece, s.string? a = some piece) ∧ s.string? span = none ∧
          (s.excerpt span).HasFault fault ∧ defect = .badSpan fault := by
  refine ⟨?_, fun t ht => ((validated_eq_ok_iff s t).1 ht).1, fun defect => ?_⟩
  · simp only [validated_eq_ok_iff, hsize, true_and, exists_eq_left, Valid,
      ← Excerpt.string?_eq_some_iff, mem_spans_iff, string?]
  · simp only [validated_eq_error_iff s hsize, Excerpt.fault?_eq_none_iff_string?,
      Excerpt.fault?_eq_some_iff, string?]
    constructor
    · rintro ⟨before, span, after, fault, hspans, hbefore, hfault, hdefect⟩
      exact ⟨before, span, after, fault, hspans, hbefore, hfault.string?_eq_none, hfault, hdefect⟩
    · rintro ⟨before, span, after, fault, hspans, hbefore, -, hfault, hdefect⟩
      exact ⟨before, span, after, fault, hspans, hbefore, hfault, hdefect⟩

/-- A label of three bytes, the last two of which are one character. Its
class holds a literal with a value that cuts the character. -/
def cutLabel (value : Span) : Source where
  path := "label.ts"
  text := "aé"
  statements := [⟨⟨0, 3⟩, some {
    id := ⟨0⟩
    span := ⟨0, 3⟩
    name := none
    decorators := [.call ⟨0, 3⟩ ⟨⟨0, 3⟩, ⟨0, 1⟩, ⟨⟨1, 3⟩, [.object ⟨1, 3⟩
      [.spread ⟨1, 3⟩ (.object ⟨1, 3⟩ [.assign ⟨0, 3⟩ (.computed ⟨0, 1⟩) (.verbatim value)])]]⟩⟩]
    modifiers := []
    typeParams := none
    heritage := none
    members := ⟨⟨5, 4⟩, []⟩ }⟩]

theorem validated_span_by_span_cutLabel :
    (cutLabel ⟨1, 2⟩).text.utf8ByteSize ≤ Span.maxOffset ∧
    (cutLabel ⟨1, 2⟩).validated = .error (.badSpan (.cutsCharacter ⟨1, 2⟩)) ∧
    (cutLabel ⟨1, 3⟩).validated = .error (.badSpan (.inverted ⟨5, 4⟩)) := by
  have hcut : ∀ a ∈ (cutLabel ⟨1, 2⟩).spans.take 11,
      ((cutLabel ⟨1, 2⟩).string? a).isSome = true := by decide
  have hinverted : ∀ a ∈ (cutLabel ⟨1, 3⟩).spans.take 12,
      ((cutLabel ⟨1, 3⟩).string? a).isSome = true := by decide
  obtain ⟨-, -, herror⟩ := validated_span_by_span (cutLabel ⟨1, 2⟩) (by decide)
  obtain ⟨-, -, herror'⟩ := validated_span_by_span (cutLabel ⟨1, 3⟩) (by decide)
  refine ⟨by decide,
    (herror _).2 ⟨(cutLabel ⟨1, 2⟩).spans.take 11, ⟨1, 2⟩, [⟨5, 4⟩], _, rfl, ?_, by decide, ?_,
      rfl⟩,
    (herror' _).2 ⟨(cutLabel ⟨1, 3⟩).spans.take 12, ⟨5, 4⟩, [], _, rfl, ?_, by decide,
      .inverted (by decide), rfl⟩⟩
  · exact fun a ha => Option.isSome_iff_exists.1 (hcut a ha)
  · exact .cutsCharacter (by decide) (by decide) (.inr ⟨by decide, by decide⟩)
  · exact fun a ha => Option.isSome_iff_exists.1 (hinverted a ha)

end Source

end HotSwap
