/-
HotSwap.Proofs.Metadata — when two metadata literals can be compared, and
what the comparison answers then.

Both passes over a literal are folds over its fields. So a literal counts
for no more than the list of its fixed fields and the last value of each
live name: `liveSides_eq_ok_iff` gives the condition under which the
comparison is not blocked, and `change_eq_live_iff` tells the two answers
apart.
-/
import Mathlib.Data.List.Forall2
import HotSwap.Metadata.Change

namespace HotSwap

@[simp] theorem ok_bind {ε α β : Type} (a : α) (next : α → Except ε β) :
    (Except.ok a >>= next) = next a := rfl

@[simp] theorem error_bind {ε α β : Type} (e : ε) (next : α → Except ε β) :
    (Except.error e >>= next) = .error e := rfl

@[simp] theorem throw_eq_error {ε α : Type} (e : ε) : (throw e : Except ε α) = .error e := rfl

@[simp] theorem pure_eq_ok {ε α : Type} (a : α) : (pure a : Except ε α) = .ok a := rfl

theorem bind_eq_ok_iff {ε α β : Type} (x : Except ε α) (next : α → Except ε β) (b : β) :
    (x >>= next) = .ok b ↔ ∃ a, x = .ok a ∧ next a = .ok b := by
  cases x <;> simp

/-! ## The fields of a literal -/

namespace Metadata

/-- The fields of a literal, if each of its properties is one. -/
def fields? (properties : List Property) : Option (List Field) :=
  properties.mapM (·.field?)

/-- The fields that have to stay the same, in order. -/
def fixed (fields : List Field) : List Field := fields.filter (!·.isLive)

/-- The value of the last live field of a name. -/
def lastValue? (fields : List Field) (name : String) : Option Span :=
  (fields.reverse.find? fun f => f.isLive ∧ f.name = name).map (·.value)

/-- Fixed fields on both sides cover the same bytes, one for one. -/
def SameFixed (oldText newText : String) (old new : List Field) : Prop :=
  List.Forall₂ (fun f g => Excerpt.same ⟨oldText, f.span⟩ ⟨newText, g.span⟩ = true)
    (fixed old) (fixed new)

theorem fields?_nil : fields? [] = some [] := rfl

theorem fields?_cons_of_none {p : Property} (h : p.field? = none) (ps : List Property) :
    fields? (p :: ps) = none := by
  simp [fields?, List.mapM_cons, h]

theorem fields?_cons_of_some {p : Property} {f : Field} (h : p.field? = some f)
    (ps : List Property) : fields? (p :: ps) = (fields? ps).map (f :: ·) := by
  cases hps : ps.mapM (·.field?) <;> simp [fields?, List.mapM_cons, h, hps]

/-- The fields of a literal are those of its properties, one for one. -/
theorem fields?_eq_some_iff (ps : List Property) (fs : List Field) :
    fields? ps = some fs ↔ List.Forall₂ (fun p f => p.field? = some f) ps fs := by
  induction ps generalizing fs with
  | nil => simp [fields?_nil, eq_comm]
  | cons p ps ih =>
    rw [List.forall₂_cons_left_iff]
    cases hp : p.field? with
    | none => simp [fields?_cons_of_none hp]
    | some f =>
      rw [fields?_cons_of_some hp, Option.map_eq_some_iff]
      constructor
      · rintro ⟨gs, hgs, rfl⟩
        exact ⟨f, gs, rfl, (ih gs).1 hgs, rfl⟩
      · rintro ⟨g, gs, hg, hgs, rfl⟩
        cases hg
        exact ⟨gs, (ih gs).2 hgs, rfl⟩

theorem fieldOf_of_some {p : Property} {f : Field} (h : p.field? = some f) :
    fieldOf p = .ok f := by
  simp [fieldOf, h]

theorem fieldOf_of_none {p : Property} (h : p.field? = none) :
    fieldOf p = .error .notAField := by
  simp [fieldOf, h]

theorem fixed_cons_of_live {f : Field} (h : f.isLive = true) (fs : List Field) :
    fixed (f :: fs) = fixed fs := by
  simp [fixed, h]

theorem fixed_cons_of_not_live {f : Field} (h : f.isLive = false) (fs : List Field) :
    fixed (f :: fs) = f :: fixed fs := by
  simp [fixed, h]

end Metadata

/-! ## Last values -/

namespace Latest

open Metadata

/-- The last values after the live fields of a literal are recorded. -/
def recordAll (l : Latest) (fields : List Field) : Latest :=
  (fields.filter (·.isLive)).foldl (fun l f => l.record f.name f.value) l

theorem recordAll_cons_of_live {f : Field} (h : f.isLive = true) (l : Latest)
    (fs : List Field) : l.recordAll (f :: fs) = (l.record f.name f.value).recordAll fs := by
  simp [recordAll, h]

theorem recordAll_cons_of_not_live {f : Field} (h : f.isLive = false) (l : Latest)
    (fs : List Field) : l.recordAll (f :: fs) = l.recordAll fs := by
  simp [recordAll, h]

@[simp] theorem text_record (l : Latest) (name : String) (value : Span) :
    (l.record name value).text = l.text := rfl

/-- A name has the value of its last live field, or else the value that it
had before. -/
theorem value?_recordAll (l : Latest) (fs : List Field) (name : String) :
    (l.recordAll fs).value? name =
      ((lastValue? fs name).map (⟨l.text, ·⟩)).or (l.value? name) := by
  induction fs generalizing l with
  | nil => simp [recordAll, lastValue?]
  | cons f fs ih =>
    have hlast : lastValue? (f :: fs) name =
        (lastValue? fs name).or (if f.isLive ∧ f.name = name then some f.value else none) := by
      simp only [lastValue?, List.reverse_cons, List.find?_append, Option.map_or]
      congr 1
      by_cases h : f.isLive = true ∧ f.name = name <;> simp [List.find?, h]
    cases hlive : f.isLive with
    | false => simp [recordAll_cons_of_not_live hlive, ih, hlast, hlive]
    | true =>
      rw [recordAll_cons_of_live hlive, ih, hlast, value?_record, text_record]
      cases lastValue? fs name <;> by_cases hname : f.name = name <;> simp [hlive, hname]

theorem value?_recordAll_empty (text : String) (fs : List Field) (name : String) :
    ((empty text).recordAll fs).value? name = (lastValue? fs name).map (⟨text, ·⟩) := by
  rw [value?_recordAll, value?_empty, Option.or_none]
  rfl

end Latest

/-! ## The two passes -/

namespace Metadata

/-- The older literal's fixed fields are queued and its live ones
recorded, unless a property is no field. -/
theorem sortOld_eq (pending : Pending) (latest : Latest) (ps : List Property) :
    sortOld pending latest ps =
      match fields? ps with
      | none => .error .notAField
      | some fs =>
        .ok (⟨pending.text, pending.queue ++ (fixed fs).map (·.span)⟩, latest.recordAll fs) := by
  induction ps generalizing pending latest with
  | nil => simp [sortOld, fields?_nil, fixed, Latest.recordAll]
  | cons p ps ih =>
    cases hp : p.field? with
    | none => rw [sortOld, fieldOf_of_none hp, fields?_cons_of_none hp]; rfl
    | some f =>
      rw [sortOld, fieldOf_of_some hp, fields?_cons_of_some hp, ok_bind, ih, ih]
      cases hlive : f.isLive <;> cases fields? ps <;>
        simp [fixed_cons_of_live, fixed_cons_of_not_live, Latest.recordAll_cons_of_live,
          Latest.recordAll_cons_of_not_live, Pending.push, hlive]

/-- The newer literal passes exactly when each property is a field and the
fixed ones cover the same bytes as the queue, one for one. -/
theorem matchNew_eq_ok_iff (text : String) (pending : Pending) (latest l : Latest)
    (qs : List Property) :
    matchNew text pending latest qs = .ok l ↔
      ∃ gs, fields? qs = some gs ∧ l = latest.recordAll gs ∧
        List.Forall₂ (fun span g => Excerpt.same ⟨pending.text, span⟩ ⟨text, g.span⟩ = true)
          pending.queue (fixed gs) := by
  induction qs generalizing pending latest with
  | nil =>
    cases hqueue : pending.queue with
    | nil =>
      have hfinish : matchNew text pending latest [] = .ok latest := by
        simp [matchNew, Pending.finish, hqueue, pure, Except.pure]
      rw [hfinish, Except.ok.injEq, eq_comm]
      simp [fields?_nil, fixed, Latest.recordAll]
    | cons head rest => simp [matchNew, Pending.finish, hqueue, fields?_nil, fixed]
  | cons q qs ih =>
    cases hq : q.field? with
    | none => simp [matchNew, fieldOf_of_none hq, fields?_cons_of_none hq]
    | some g =>
      rw [matchNew, fieldOf_of_some hq, fields?_cons_of_some hq, ok_bind]
      cases hlive : g.isLive with
      | true =>
        simp [ih, Latest.recordAll_cons_of_live hlive, fixed_cons_of_live hlive]
      | false =>
        cases hqueue : pending.queue with
        | nil =>
          simp [Pending.matchNext, hqueue, fixed_cons_of_not_live hlive]
        | cons head rest =>
          cases hsame : Excerpt.same ⟨pending.text, head⟩ ⟨text, g.span⟩ with
          | false =>
            simp [Pending.matchNext, hqueue, hsame, fixed_cons_of_not_live hlive]
          | true =>
            simp [Pending.matchNext, hqueue, hsame, ih, fixed_cons_of_not_live hlive,
              Latest.recordAll_cons_of_not_live hlive]

/-- Two literals can be compared exactly when all their properties are
fields and their fixed fields are the same. -/
theorem liveSides_eq_ok_iff (old new : Metadata) (a b : Latest) :
    liveSides old new = .ok (a, b) ↔
      ∃ fs gs, fields? old.properties = some fs ∧ fields? new.properties = some gs ∧
        SameFixed old.text new.text fs gs ∧ a = (Latest.empty old.text).recordAll fs ∧
        b = (Latest.empty new.text).recordAll gs := by
  constructor
  · intro h
    rw [liveSides, sortOld_eq] at h
    cases hfs : fields? old.properties with
    | none => simp [hfs] at h
    | some fs =>
      simp only [hfs, ok_bind] at h
      obtain ⟨l, hl, hab⟩ := (bind_eq_ok_iff _ _ _).1 h
      obtain ⟨gs, hgs, rfl, hfixed⟩ := (matchNew_eq_ok_iff _ _ _ _ _).1 hl
      cases hab
      exact ⟨fs, gs, rfl, hgs, List.forall₂_map_left_iff.1 hfixed, rfl, rfl⟩
  · intro h
    obtain ⟨fs, gs, hfs, hgs, hfixed, rfl, rfl⟩ := h
    have hl : matchNew new.text ⟨old.text, (fixed fs).map (·.span)⟩ (.empty new.text)
        new.properties = .ok ((Latest.empty new.text).recordAll gs) :=
      (matchNew_eq_ok_iff _ _ _ _ _).2 ⟨gs, hgs, rfl, List.forall₂_map_left_iff.2 hfixed⟩
    rw [liveSides, sortOld_eq, hfs]
    simp only [ok_bind, Pending.empty, List.nil_append, hl]
    rfl

/-! ## The answer -/

/-- Each live name has the same last value on both sides, or none on
either. -/
def SameLive (oldText newText : String) (old new : List Field) : Prop :=
  ∀ name, Excerpt.sameOptional ((lastValue? old name).map (⟨oldText, ·⟩))
    ((lastValue? new name).map (⟨newText, ·⟩)) = true

theorem agree_recordAll_iff (oldText newText : String) (fs gs : List Field) :
    ((Latest.empty oldText).recordAll fs).agree ((Latest.empty newText).recordAll gs) = true ↔
      SameLive oldText newText fs gs := by
  rw [Latest.agree_iff, SameLive]
  simp only [Latest.value?_recordAll_empty]

/-- The literals differ in live fields at most. -/
def Comparable (old new : Metadata) (fs gs : List Field) : Prop :=
  fields? old.properties = some fs ∧ fields? new.properties = some gs ∧
    SameFixed old.text new.text fs gs

/-- The answer on literals that can be compared. -/
theorem change_of_comparable {old new : Metadata} {fs gs : List Field}
    (h : Comparable old new fs gs) :
    (SameLive old.text new.text fs gs → change old new = .unchanged) ∧
      (¬ SameLive old.text new.text fs gs → change old new = .live) := by
  obtain ⟨hfs, hgs, hfixed⟩ := h
  have hsides := (liveSides_eq_ok_iff old new _ _).2 ⟨fs, gs, hfs, hgs, hfixed, rfl, rfl⟩
  rw [change, hsides, ← agree_recordAll_iff]
  constructor
  · intro hagree
    simp [hagree]
  · intro hagree
    simp [hagree]

/-- The comparison is blocked unless the literals differ in live fields at
most. -/
theorem change_ne_blocked_iff (old new : Metadata) :
    (∀ obstacle, change old new ≠ .blocked obstacle) ↔ ∃ fs gs, Comparable old new fs gs := by
  constructor
  · intro h
    cases hsides : liveSides old new with
    | error obstacle => exact absurd (by rw [change, hsides]) (h obstacle)
    | ok sides =>
      obtain ⟨fs, gs, hfs, hgs, hfixed, -⟩ := (liveSides_eq_ok_iff old new _ _).1 hsides
      exact ⟨fs, gs, hfs, hgs, hfixed⟩
  · rintro ⟨fs, gs, h⟩ obstacle
    by_cases hlive : SameLive old.text new.text fs gs
    · simp [(change_of_comparable h).1 hlive]
    · simp [(change_of_comparable h).2 hlive]

/-- The edit is in live fields exactly when the literals can be compared
and some live name has another last value. -/
theorem change_eq_live_iff (old new : Metadata) :
    change old new = .live ↔
      ∃ fs gs, Comparable old new fs gs ∧ ¬ SameLive old.text new.text fs gs := by
  constructor
  · intro h
    obtain ⟨fs, gs, hcomp⟩ := (change_ne_blocked_iff old new).1 (by simp [h])
    refine ⟨fs, gs, hcomp, ?_⟩
    intro hlive
    rw [(change_of_comparable hcomp).1 hlive] at h
    cases h
  · intro h
    obtain ⟨fs, gs, hcomp, hlive⟩ := h
    exact (change_of_comparable hcomp).2 hlive

end Metadata

end HotSwap
