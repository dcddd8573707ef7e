/-
HotSwap.Proofs.FileDiff — what the comparison of two versions of a file
accepts, what it answers, and what it reports otherwise.

`Revision.Accepts` says when the statements at one place fit, and
`Revision.Rejects` gives the cause that is reported when they do not. The
two are exhaustive (`accepts_or_rejects`), and the check of one place
follows them (`checkStatement_of_accepts`, `checkStatement_of_rejects`).
Both speak of byte ranges, so they apply to trees with any spans at all. A
whole file is the list of its places: it is accepted when every place is,
and otherwise the first place that is rejected is reported
(`swaps_eq_ok_iff`, `swaps_eq_error_iff`).
-/
import HotSwap.FileDiff
import HotSwap.Proofs.Metadata

namespace HotSwap

/-- A decorator that calls `callee` with one object literal. -/
structure MetadataCall where
  callee : Span
  properties : List Property

/-- The call with one object literal that the decorator at an index is, if
it is one. -/
def Class.metadataCall? (c : Class) (index : Nat) : Option MetadataCall := do
  let decorator ← c.decorators[index]?
  let call ← decorator.call?
  let properties ← call.soleObject?
  return ⟨call.callee, properties⟩

theorem Call.soleObject?_eq_some_iff (call : Call) (properties : List Property) :
    call.soleObject? = some properties ↔
      ∃ span, call.arguments.items = [.object span properties] := by
  unfold soleObject?
  split
  · rename_i argument h
    rw [h]
    cases argument <;> simp [Expr.properties?]
  · rename_i h
    simp only [reduceCtorEq, false_iff, not_exists]
    intro span hitems
    exact h _ hitems

theorem Class.metadataCall?_eq_some_iff (c : Class) (index : Nat) (m : MetadataCall) :
    c.metadataCall? index = some m ↔
      ∃ span call literal, c.decorators[index]? = some (.call span call) ∧
        call.callee = m.callee ∧ call.arguments.items = [.object literal m.properties] := by
  constructor
  · intro h
    simp only [metadataCall?, Option.bind_eq_bind, Option.bind_eq_some_iff, Option.pure_def,
      Option.some.injEq] at h
    obtain ⟨decorator, hd, call, hcall, properties, hproperties, rfl⟩ := h
    obtain ⟨literal, hitems⟩ := (Call.soleObject?_eq_some_iff call properties).1 hproperties
    cases decorator with
    | bare span target => simp [Decorator.call?] at hcall
    | call span inner =>
      cases hcall
      exact ⟨span, call, literal, hd, rfl, hitems⟩
  · intro h
    obtain ⟨span, call, literal, hd, hcallee, hitems⟩ := h
    have hproperties := (Call.soleObject?_eq_some_iff call m.properties).2 ⟨literal, hitems⟩
    simp [metadataCall?, hd, Decorator.call?, hproperties, hcallee]

namespace Revision

/-- How the metadata changed, from a literal of the old tree to one of the
new tree. -/
def change (r : Revision) (old new : MetadataCall) : Change :=
  Metadata.change ⟨r.old.text, old.properties⟩ ⟨r.new.text, new.properties⟩

/-! ## What fits -/

/-- What the headers of two classes have to share. -/
structure SameHeader (r : Revision) (old new : Class) : Prop where
  name : old.nameText? = new.nameText?
  heritage : r.sameLists old.heritage new.heritage = true
  typeParams : r.sameLists old.typeParams new.typeParams = true
  modifierCount : old.modifiers.length = new.modifiers.length
  keywords : ∀ k, k ∈ old.modifiers.map (·.keyword) ↔ k ∈ new.modifiers.map (·.keyword)

/-- Each class has one decorator, and the index is its index. -/
structure SoleDecorators (old new : Class) (index : Nat) : Prop where
  old_length : old.decorators.length = 1
  new_length : new.decorators.length = 1
  index_eq : index = 0

/-- What two versions of a component have to share behind their headers if
the metadata is at `index`: everything but the live fields. -/
structure SameComponent (r : Revision) (old new : Class) (index : Nat) : Prop where
  sole : SoleDecorators old new index
  calls : ∃ m m', old.metadataCall? index = some m ∧ new.metadataCall? index = some m' ∧
    r.same m.callee m'.callee = true ∧ ∀ obstacle, r.change m m' ≠ .blocked obstacle
  members : r.same old.members.span new.members.span = true

variable (r : Revision) (metadataIndex? : Class → Option Nat)

/-- The statements at one place fit. -/
inductive Accepts (old new : Statement) : Prop where
  | plain (hold : old.declared = none) (text : r.same old.span new.span = true)
  | unmarked (c d : Class) (hold : old.declared = some c) (hnew : new.declared = some d)
      (header : r.SameHeader c d) (unmarked : metadataIndex? d = none)
      (text : r.same old.span new.span = true)
  | component (c d : Class) (index : Nat) (hold : old.declared = some c)
      (hnew : new.declared = some d) (header : r.SameHeader c d)
      (marked : metadataIndex? d = some index) (component : r.SameComponent c d index)

/-- The class at one place, if both statements are classes, the newer one
is a component and its metadata changed in live fields only. -/
def swapAt? (old new : Statement) : Option ClassId := do
  let c ← old.declared
  let d ← new.declared
  let index ← metadataIndex? d
  let m ← c.metadataCall? index
  let m' ← d.metadataCall? index
  if r.change m m' = .live then some d.id else none

/-! ## What does not fit -/

/-- The first thing in which two headers differ. -/
inductive HeaderFault (old new : Class) : Cause → Prop where
  | name (h : old.nameText? ≠ new.nameText?) : HeaderFault old new .renamed
  | heritage (name : old.nameText? = new.nameText?)
      (h : r.sameLists old.heritage new.heritage = false) :
      HeaderFault old new .heritageChanged
  | typeParams (name : old.nameText? = new.nameText?)
      (heritage : r.sameLists old.heritage new.heritage = true)
      (h : r.sameLists old.typeParams new.typeParams = false) :
      HeaderFault old new .typeParamsChanged
  | modifiers (name : old.nameText? = new.nameText?)
      (heritage : r.sameLists old.heritage new.heritage = true)
      (typeParams : r.sameLists old.typeParams new.typeParams = true)
      (h : ¬ (old.modifiers.length = new.modifiers.length ∧
        ∀ k, k ∈ old.modifiers.map (·.keyword) ↔ k ∈ new.modifiers.map (·.keyword))) :
      HeaderFault old new .modifiersChanged

/-- The first thing, other than live fields, in which two versions of a
component differ behind their headers. -/
inductive ComponentFault (old new : Class) (index : Nat) : Cause → Prop where
  | count (h : old.decorators.length ≠ new.decorators.length) :
      ComponentFault old new index .decoratorCount
  | several (count : old.decorators.length = new.decorators.length)
      (h : 1 < old.decorators.length) : ComponentFault old new index .severalDecorators
  | noSuch (count : old.decorators.length = new.decorators.length)
      (sole : old.decorators.length ≤ 1) (h : old.decorators.length ≤ index) :
      ComponentFault old new index .noSuchDecorator
  | shape (sole : SoleDecorators old new index)
      (h : old.metadataCall? index = none ∨ new.metadataCall? index = none) :
      ComponentFault old new index .decoratorShape
  | callee (sole : SoleDecorators old new index) (m m' : MetadataCall)
      (hold : old.metadataCall? index = some m) (hnew : new.metadataCall? index = some m')
      (h : r.same m.callee m'.callee = false) : ComponentFault old new index .calleeChanged
  | metadata (sole : SoleDecorators old new index) (m m' : MetadataCall)
      (obstacle : Obstacle) (hold : old.metadataCall? index = some m)
      (hnew : new.metadataCall? index = some m') (callee : r.same m.callee m'.callee = true)
      (h : r.change m m' = .blocked obstacle) :
      ComponentFault old new index (.metadata obstacle)
  | members (sole : SoleDecorators old new index) (m m' : MetadataCall)
      (hold : old.metadataCall? index = some m) (hnew : new.metadataCall? index = some m')
      (callee : r.same m.callee m'.callee = true)
      (change : ∀ obstacle, r.change m m' ≠ .blocked obstacle)
      (h : r.same old.members.span new.members.span = false) :
      ComponentFault old new index .membersChanged

/-- The statements at one place do not fit, and why. -/
inductive Rejects (old new : Statement) : Cause → Prop where
  | plain (hold : old.declared = none) (text : r.same old.span new.span = false) :
      Rejects old new .textChanged
  | replaced (c : Class) (hold : old.declared = some c) (hnew : new.declared = none) :
      Rejects old new .classReplaced
  | header (c d : Class) (hold : old.declared = some c) (hnew : new.declared = some d)
      (cause : Cause) (h : r.HeaderFault c d cause) : Rejects old new cause
  | unmarked (c d : Class) (hold : old.declared = some c) (hnew : new.declared = some d)
      (header : r.SameHeader c d) (unmarked : metadataIndex? d = none)
      (text : r.same old.span new.span = false) : Rejects old new .textChanged
  | component (c d : Class) (index : Nat) (hold : old.declared = some c)
      (hnew : new.declared = some d) (header : r.SameHeader c d)
      (marked : metadataIndex? d = some index) (cause : Cause)
      (h : r.ComponentFault c d index cause) : Rejects old new cause

/-! ## Headers -/

@[simp] theorem ensure_true (cause : Cause) : ensure true cause = .ok () := rfl

@[simp] theorem ensure_false (cause : Cause) : ensure false cause = .error cause := rfl

@[simp] theorem require_some {α : Type} (a : α) (cause : Cause) :
    require (some a) cause = .ok a := rfl

@[simp] theorem require_none {α : Type} (cause : Cause) :
    require (none : Option α) cause = .error cause := rfl

theorem keywords_eq_iff (old new : Class) :
    old.keywords = new.keywords ↔
      ∀ k, k ∈ old.modifiers.map (·.keyword) ↔ k ∈ new.modifiers.map (·.keyword) :=
  Keyword.Set.ofList_eq_iff _ _

theorem sameHeader_or_fault (old new : Class) :
    r.SameHeader old new ∨ ∃ cause, r.HeaderFault old new cause := by
  by_cases hname : old.nameText? = new.nameText?
  case neg => exact .inr ⟨_, .name hname⟩
  cases hheritage : r.sameLists old.heritage new.heritage with
  | false => exact .inr ⟨_, .heritage hname hheritage⟩
  | true =>
    cases hparams : r.sameLists old.typeParams new.typeParams with
    | false => exact .inr ⟨_, .typeParams hname hheritage hparams⟩
    | true =>
      by_cases hmodifiers : old.modifiers.length = new.modifiers.length ∧
          ∀ k, k ∈ old.modifiers.map (·.keyword) ↔ k ∈ new.modifiers.map (·.keyword)
      · exact .inl ⟨hname, hheritage, hparams, hmodifiers.1, hmodifiers.2⟩
      · exact .inr ⟨_, .modifiers hname hheritage hparams hmodifiers⟩

theorem checkHeader_of_same {old new : Class} (h : r.SameHeader old new) :
    r.checkHeader old new = .ok () := by
  obtain ⟨hname, hheritage, hparams, hcount, hkeywords⟩ := h
  rw [← keywords_eq_iff] at hkeywords
  simp [checkHeader, hname, hheritage, hparams, hcount, hkeywords]

theorem checkHeader_of_fault {old new : Class} {cause : Cause}
    (h : r.HeaderFault old new cause) : r.checkHeader old new = .error cause := by
  cases h with
  | name h => simp [checkHeader, h]
  | heritage hname h => simp [checkHeader, hname, h]
  | typeParams hname hheritage h => simp [checkHeader, hname, hheritage, h]
  | modifiers hname hheritage hparams h =>
    rw [← keywords_eq_iff] at h
    simp [checkHeader, hname, hheritage, hparams, h]

/-! ## Components -/

theorem sameComponent_or_fault (old new : Class) (index : Nat) :
    r.SameComponent old new index ∨ ∃ cause, r.ComponentFault old new index cause := by
  by_cases hcount : old.decorators.length = new.decorators.length
  case neg => exact .inr ⟨_, .count hcount⟩
  by_cases hone : old.decorators.length ≤ 1
  case neg => exact .inr ⟨_, .several hcount (by omega)⟩
  by_cases hindex : old.decorators.length ≤ index
  case pos => exact .inr ⟨_, .noSuch hcount hone hindex⟩
  have hsole : SoleDecorators old new index := ⟨by omega, by omega, by omega⟩
  cases hm : old.metadataCall? index with
  | none => exact .inr ⟨_, .shape hsole (.inl hm)⟩
  | some m =>
    cases hm' : new.metadataCall? index with
    | none => exact .inr ⟨_, .shape hsole (.inr hm')⟩
    | some m' =>
      cases hcallee : r.same m.callee m'.callee with
      | false => exact .inr ⟨_, .callee hsole m m' hm hm' hcallee⟩
      | true =>
        by_cases hfree : ∀ obstacle, r.change m m' ≠ .blocked obstacle
        · cases hmembers : r.same old.members.span new.members.span with
          | false => exact .inr ⟨_, .members hsole m m' hm hm' hcallee hfree hmembers⟩
          | true => exact .inl ⟨hsole, ⟨m, m', hm, hm', hcallee, hfree⟩, hmembers⟩
        · simp only [ne_eq, not_forall, Decidable.not_not] at hfree
          obtain ⟨obstacle, h⟩ := hfree
          exact .inr ⟨_, .metadata hsole m m' obstacle hm hm' hcallee h⟩

theorem metadataCall?_of_bare {c : Class} {index : Nat} {d : Decorator}
    (hd : c.decorators[index]? = some d) (h : d.call? = none) :
    c.metadataCall? index = none := by
  simp [Class.metadataCall?, hd, h]

theorem metadataCall?_of_call {c : Class} {index : Nat} {d : Decorator} {call : Call}
    (hd : c.decorators[index]? = some d) (h : d.call? = some call) :
    c.metadataCall? index = call.soleObject?.map (⟨call.callee, ·⟩) := by
  cases hs : call.soleObject? <;> simp [Class.metadataCall?, hd, h, hs]

/-- With the metadata in the only decorator of each class, what is left to
do is to read the two calls and to compare them and the members. -/
theorem checkComponent_of_sole {old new : Class} {index : Nat}
    (hsole : SoleDecorators old new index) :
    r.checkComponent old new index =
      match old.metadataCall? index, new.metadataCall? index with
      | some m, some m' => do
        ensure (r.same m.callee m'.callee) .calleeChanged
        match r.change m m' with
        | .blocked obstacle => throw (.metadata obstacle)
        | change =>
          ensure (r.same old.members.span new.members.span) .membersChanged
          return change = .live
      | _, _ => .error .decoratorShape := by
  obtain ⟨hold, hnew, rfl⟩ := hsole
  obtain ⟨d, hd⟩ := List.length_eq_one_iff.1 hold
  obtain ⟨d', hd'⟩ := List.length_eq_one_iff.1 hnew
  have hget : old.decorators[0]? = some d := by rw [hd]; rfl
  have hget' : new.decorators[0]? = some d' := by rw [hd']; rfl
  cases hcall : d.call? with
  | none =>
    rw [metadataCall?_of_bare hget hcall]
    simp [checkComponent, hd, hd', hcall]
  | some call =>
    cases hcall' : d'.call? with
    | none =>
      rw [metadataCall?_of_bare hget' hcall']
      simp [checkComponent, hd, hd', hcall, hcall']
    | some call' =>
      rw [metadataCall?_of_call hget hcall, metadataCall?_of_call hget' hcall']
      cases hs : call.soleObject? with
      | none => simp [checkComponent, hd, hd', hcall, hcall', hs]
      | some properties =>
        cases hs' : call'.soleObject? with
        | none => simp [checkComponent, hd, hd', hcall, hcall', hs, hs']
        | some properties' =>
          cases hchange : Metadata.change ⟨r.old.text, properties⟩ ⟨r.new.text, properties'⟩ <;>
            simp [checkComponent, hd, hd', hcall, hcall', hs, hs', change, hchange]

theorem checkComponent_of_same {old new : Class} {index : Nat} {m m' : MetadataCall}
    (h : r.SameComponent old new index) (hm : old.metadataCall? index = some m)
    (hm' : new.metadataCall? index = some m') :
    r.checkComponent old new index = .ok (decide (r.change m m' = .live)) := by
  obtain ⟨hsole, ⟨m₁, m₁', hm₁, hm₁', hcallee, hfree⟩, hmembers⟩ := h
  cases hm.symm.trans hm₁
  cases hm'.symm.trans hm₁'
  rw [r.checkComponent_of_sole hsole, hm, hm']
  cases hchange : r.change m m' with
  | blocked obstacle => exact absurd hchange (hfree obstacle)
  | _ => simp [hcallee, hchange, hmembers]

theorem checkComponent_of_fault {old new : Class} {index : Nat} {cause : Cause}
    (h : r.ComponentFault old new index cause) :
    r.checkComponent old new index = .error cause := by
  cases h with
  | count h => simp [checkComponent, h]
  | several hcount h => simp [checkComponent, ← hcount, Nat.not_le.2 h]
  | noSuch hcount hone h =>
    have hnone : old.decorators[index]? = none := List.getElem?_eq_none h
    simp [checkComponent, ← hcount, hone, hnone]
  | shape hsole h =>
    rw [r.checkComponent_of_sole hsole]
    rcases h with h | h
    · rw [h]
    · rw [h]
      split <;> simp_all
  | callee hsole m m' hm hm' h =>
    rw [r.checkComponent_of_sole hsole, hm, hm']
    simp [h]
  | metadata hsole m m' obstacle hm hm' hcallee h =>
    rw [r.checkComponent_of_sole hsole, hm, hm']
    simp [hcallee, h]
  | members hsole m m' hm hm' hcallee hfree h =>
    rw [r.checkComponent_of_sole hsole, hm, hm']
    cases hchange : r.change m m' with
    | blocked obstacle => exact absurd hchange (hfree obstacle)
    | _ => simp [hcallee, hchange, h]

/-! ## One place -/

theorem accepts_or_rejects (old new : Statement) :
    r.Accepts metadataIndex? old new ∨ ∃ cause, r.Rejects metadataIndex? old new cause := by
  cases hold : old.declared with
  | none =>
    cases htext : r.same old.span new.span with
    | false => exact .inr ⟨_, .plain hold htext⟩
    | true => exact .inl (.plain hold htext)
  | some c =>
    cases hnew : new.declared with
    | none => exact .inr ⟨_, .replaced c hold hnew⟩
    | some d =>
      rcases r.sameHeader_or_fault c d with header | ⟨cause, hfault⟩
      case inr => exact .inr ⟨cause, .header c d hold hnew cause hfault⟩
      cases hmarked : metadataIndex? d with
      | none =>
        cases htext : r.same old.span new.span with
        | false => exact .inr ⟨_, .unmarked c d hold hnew header hmarked htext⟩
        | true => exact .inl (.unmarked c d hold hnew header hmarked htext)
      | some index =>
        rcases r.sameComponent_or_fault c d index with hsame | ⟨cause, hfault⟩
        · exact .inl (.component c d index hold hnew header hmarked hsame)
        · exact .inr ⟨cause, .component c d index hold hnew header hmarked cause hfault⟩

theorem checkStatement_of_accepts {old new : Statement}
    (h : r.Accepts metadataIndex? old new) :
    r.checkStatement metadataIndex? old new = .ok (r.swapAt? metadataIndex? old new) := by
  cases h with
  | plain hold htext => simp [checkStatement, checkText, swapAt?, hold, htext]
  | unmarked c d hold hnew header hmarked htext =>
    have hheader := r.checkHeader_of_same header
    simp [checkStatement, checkText, swapAt?, hold, hnew, hheader, hmarked, htext]
  | component c d index hold hnew header hmarked hsame =>
    have hheader := r.checkHeader_of_same header
    obtain ⟨m, m', hm, hm', -, -⟩ := hsame.calls
    have hcomponent := r.checkComponent_of_same hsame hm hm'
    simp [checkStatement, swapAt?, hold, hnew, hheader, hmarked, hcomponent, hm, hm']

theorem checkStatement_of_rejects {old new : Statement} {cause : Cause}
    (h : r.Rejects metadataIndex? old new cause) :
    r.checkStatement metadataIndex? old new = .error cause := by
  cases h with
  | plain hold htext => simp [checkStatement, checkText, hold, htext]
  | replaced c hold hnew => simp [checkStatement, hold, hnew]
  | header c d hold hnew cause hfault =>
    have hheader := r.checkHeader_of_fault hfault
    simp [checkStatement, hold, hnew, hheader]
  | unmarked c d hold hnew header hmarked htext =>
    have hheader := r.checkHeader_of_same header
    simp [checkStatement, checkText, hold, hnew, hheader, hmarked, htext]
  | component c d index hold hnew header hmarked cause hfault =>
    have hheader := r.checkHeader_of_same header
    have hcomponent := r.checkComponent_of_fault hfault
    simp [checkStatement, hold, hnew, hheader, hmarked, hcomponent]

theorem not_accepts_of_rejects {old new : Statement} {cause : Cause}
    (h : r.Rejects metadataIndex? old new cause) : ¬ r.Accepts metadataIndex? old new := by
  intro haccepts
  have hok := r.checkStatement_of_accepts metadataIndex? haccepts
  rw [r.checkStatement_of_rejects metadataIndex? h] at hok
  cases hok

/-! ## Acceptance by the kind of the statements -/

theorem accepts_iff_of_plain {old new : Statement} (hold : old.declared = none) :
    r.Accepts metadataIndex? old new ↔ r.same old.span new.span = true := by
  constructor
  · intro h
    cases h with
    | plain _ text => exact text
    | unmarked _ _ hclass _ _ _ _ => cases hold.symm.trans hclass
    | component _ _ _ hclass _ _ _ _ => cases hold.symm.trans hclass
  · exact fun text => .plain hold text

theorem not_accepts_of_replaced {old new : Statement} {c : Class} (hold : old.declared = some c)
    (hnew : new.declared = none) : ¬ r.Accepts metadataIndex? old new := by
  intro h
  cases h with
  | plain hplain _ => cases hold.symm.trans hplain
  | unmarked _ _ _ hclass _ _ _ => cases hnew.symm.trans hclass
  | component _ _ _ _ hclass _ _ _ => cases hnew.symm.trans hclass

theorem accepts_iff_of_classes {old new : Statement} {c d : Class} (hold : old.declared = some c)
    (hnew : new.declared = some d) :
    r.Accepts metadataIndex? old new ↔
      r.SameHeader c d ∧ ((metadataIndex? d = none ∧ r.same old.span new.span = true) ∨
        ∃ index, metadataIndex? d = some index ∧ r.SameComponent c d index) := by
  constructor
  · intro h
    cases h with
    | plain hplain _ => cases hold.symm.trans hplain
    | unmarked _ _ hclass hclass' header unmarked text =>
      cases hold.symm.trans hclass
      cases hnew.symm.trans hclass'
      exact ⟨header, .inl ⟨unmarked, text⟩⟩
    | component _ _ index hclass hclass' header marked component =>
      cases hold.symm.trans hclass
      cases hnew.symm.trans hclass'
      exact ⟨header, .inr ⟨index, marked, component⟩⟩
  · intro h
    rcases h with ⟨header, ⟨unmarked, text⟩ | ⟨index, marked, component⟩⟩
    · exact .unmarked c d hold hnew header unmarked text
    · exact .component c d index hold hnew header marked component

/-! ## All places -/

/-- The pair of statements at an index is accepted, if there is one. -/
def AcceptsAt (olds news : List Statement) (i : Nat) : Prop :=
  ∀ old new, olds[i]? = some old → news[i]? = some new → r.Accepts metadataIndex? old new

/-- The pair of statements at an index is rejected for a cause. -/
def RejectsAt (olds news : List Statement) (i : Nat) (cause : Cause) : Prop :=
  ∃ old new, olds[i]? = some old ∧ news[i]? = some new ∧ r.Rejects metadataIndex? old new cause

/-- The classes to swap, one for each place that has one. -/
def swapsOf (olds news : List Statement) : List ClassId :=
  (olds.zip news).filterMap fun p => r.swapAt? metadataIndex? p.1 p.2

theorem swapAt?_eq_some_iff (old new : Statement) (id : ClassId) :
    r.swapAt? metadataIndex? old new = some id ↔
      ∃ c d index m m', old.declared = some c ∧ new.declared = some d ∧
        metadataIndex? d = some index ∧ c.metadataCall? index = some m ∧
        d.metadataCall? index = some m' ∧ r.change m m' = .live ∧ d.id = id := by
  simp only [swapAt?, Option.bind_eq_bind, Option.bind_eq_some_iff, Option.ite_none_right_eq_some,
    Option.some.injEq]
  constructor
  · intro h
    obtain ⟨c, hc, d, hd, index, hindex, m, hm, m', hm', hlive, hid⟩ := h
    exact ⟨c, d, index, m, m', hc, hd, hindex, hm, hm', hlive, hid⟩
  · intro h
    obtain ⟨c, d, index, m, m', hc, hd, hindex, hm, hm', hlive, hid⟩ := h
    exact ⟨c, hc, d, hd, index, hindex, m, hm, m', hm', hlive, hid⟩

theorem mem_swapsOf (olds news : List Statement) (id : ClassId) :
    id ∈ r.swapsOf metadataIndex? olds news ↔
      ∃ (i : Nat) (old new : Statement), olds[i]? = some old ∧ news[i]? = some new ∧
        r.swapAt? metadataIndex? old new = some id := by
  rw [swapsOf, List.mem_filterMap]
  constructor
  · intro h
    obtain ⟨⟨old, new⟩, hmem, hid⟩ := h
    obtain ⟨i, hi⟩ := List.mem_iff_getElem?.1 hmem
    obtain ⟨hold, hnew⟩ := List.getElem?_zip_eq_some.1 hi
    exact ⟨i, old, new, hold, hnew, hid⟩
  · intro h
    obtain ⟨i, old, new, hold, hnew, hid⟩ := h
    have hi : (olds.zip news)[i]? = some (old, new) :=
      List.getElem?_zip_eq_some.2 ⟨hold, hnew⟩
    exact ⟨(old, new), List.mem_of_getElem? hi, hid⟩

/-- Either every place is accepted or there is a first that is not. -/
theorem accepted_or_first_rejected (olds news : List Statement) :
    (∀ i, r.AcceptsAt metadataIndex? olds news i) ∨
      ∃ i cause, r.RejectsAt metadataIndex? olds news i cause ∧
        ∀ j < i, r.AcceptsAt metadataIndex? olds news j := by
  induction olds generalizing news with
  | nil => exact .inl (by simp [AcceptsAt])
  | cons old olds ih =>
    cases news with
    | nil => exact .inl (by simp [AcceptsAt])
    | cons new news =>
      rcases r.accepts_or_rejects metadataIndex? old new with haccepts | ⟨cause, hrejects⟩
      case inr => exact .inr ⟨0, cause, ⟨old, new, rfl, rfl, hrejects⟩, by simp⟩
      have hzero : r.AcceptsAt metadataIndex? (old :: olds) (new :: news) 0 := by
        intro o n ho hn
        cases ho
        cases hn
        exact haccepts
      rcases ih news with hall | ⟨i, cause, hrejects, hbefore⟩
      · refine .inl fun i => ?_
        cases i with
        | zero => exact hzero
        | succ i => exact hall i
      · refine .inr ⟨i + 1, cause, hrejects, fun j hj => ?_⟩
        cases j with
        | zero => exact hzero
        | succ j => exact hbefore j (by omega)

theorem checkStatements_of_accepts (index : Nat) {olds news : List Statement}
    (h : ∀ i, r.AcceptsAt metadataIndex? olds news i) :
    r.checkStatements metadataIndex? index olds news =
      .ok (r.swapsOf metadataIndex? olds news) := by
  induction olds generalizing index news with
  | nil => rfl
  | cons old olds ih =>
    cases news with
    | nil => rfl
    | cons new news =>
      have hfirst := r.checkStatement_of_accepts metadataIndex? (h 0 old new rfl rfl)
      have hrest := ih (index + 1) (fun i => h (i + 1))
      rw [checkStatements, hfirst, hrest]
      cases hswap : r.swapAt? metadataIndex? old new <;> simp [swapsOf, hswap]

theorem checkStatements_of_rejects (index : Nat) {olds news : List Statement} {i : Nat}
    {cause : Cause} (h : r.RejectsAt metadataIndex? olds news i cause)
    (hbefore : ∀ j < i, r.AcceptsAt metadataIndex? olds news j) :
    r.checkStatements metadataIndex? index olds news = .error ⟨some (index + i), cause⟩ := by
  induction olds generalizing index news i with
  | nil =>
    obtain ⟨old, new, hold, -⟩ := h
    simp at hold
  | cons old olds ih =>
    obtain ⟨o, n, ho, hn, hrejects⟩ := h
    cases news with
    | nil => simp at hn
    | cons new news =>
      cases i with
      | zero =>
        cases ho
        cases hn
        rw [checkStatements, r.checkStatement_of_rejects metadataIndex? hrejects]
        rfl
      | succ i =>
        have hfirst := r.checkStatement_of_accepts metadataIndex?
          (hbefore 0 (by omega) old new rfl rfl)
        have hrest := ih (index + 1) ⟨o, n, ho, hn, hrejects⟩
          (fun j hj => hbefore (j + 1) (by omega))
        rw [checkStatements, hfirst, hrest, Nat.add_assoc, Nat.add_comm 1 i]
        rfl

/-! ## Whole files -/

theorem swaps_of_length_ne (h : r.old.statements.length ≠ r.new.statements.length) :
    r.swaps metadataIndex? =
      .error ⟨none, .statementCount r.old.statements.length r.new.statements.length⟩ := by
  simp [swaps, h]

theorem swaps_of_length_eq (h : r.old.statements.length = r.new.statements.length) :
    r.swaps metadataIndex? =
      r.checkStatements metadataIndex? 0 r.old.statements r.new.statements := by
  simp [swaps, h]

/-- A file is swapped in exactly when it has as many statements as before
and all places fit. -/
theorem swaps_eq_ok_iff (ids : List ClassId) :
    r.swaps metadataIndex? = .ok ids ↔
      r.old.statements.length = r.new.statements.length ∧
        (∀ i, r.AcceptsAt metadataIndex? r.old.statements r.new.statements i) ∧
        ids = r.swapsOf metadataIndex? r.old.statements r.new.statements := by
  by_cases hlength : r.old.statements.length = r.new.statements.length
  case neg => simp [r.swaps_of_length_ne metadataIndex? hlength, hlength]
  rw [r.swaps_of_length_eq metadataIndex? hlength]
  obtain hall | ⟨i, cause, hrejects, hbefore⟩ :=
    r.accepted_or_first_rejected metadataIndex? r.old.statements r.new.statements
  · rw [r.checkStatements_of_accepts metadataIndex? 0 hall, Except.ok.injEq]
    exact ⟨fun h => ⟨hlength, hall, h.symm⟩, fun h => h.2.2.symm⟩
  · rw [r.checkStatements_of_rejects metadataIndex? 0 hrejects hbefore]
    simp only [reduceCtorEq, false_iff]
    rintro ⟨-, hall, -⟩
    obtain ⟨old, new, hold, hnew, hplace⟩ := hrejects
    exact r.not_accepts_of_rejects metadataIndex? hplace (hall i old new hold hnew)

/-- All places fit exactly when the statements do, one for one. -/
theorem forall₂_accepts_iff (olds news : List Statement) :
    List.Forall₂ (r.Accepts metadataIndex?) olds news ↔
      olds.length = news.length ∧ ∀ i, r.AcceptsAt metadataIndex? olds news i := by
  rw [List.forall₂_iff_get]
  refine and_congr_right fun _ => ⟨fun h i old new hold hnew => ?_, fun h i hi hi' => ?_⟩
  · obtain ⟨hi, rfl⟩ := List.getElem?_eq_some_iff.1 hold
    obtain ⟨hi', rfl⟩ := List.getElem?_eq_some_iff.1 hnew
    exact h i hi hi'
  · exact h i _ _ (List.getElem?_eq_getElem hi) (List.getElem?_eq_getElem hi')

theorem swaps_eq_ok_iff_forall₂ (ids : List ClassId) :
    r.swaps metadataIndex? = .ok ids ↔
      List.Forall₂ (r.Accepts metadataIndex?) r.old.statements r.new.statements ∧
        ids = r.swapsOf metadataIndex? r.old.statements r.new.statements := by
  rw [swaps_eq_ok_iff, forall₂_accepts_iff, and_assoc]

theorem checkStatements_congr_metadataIndex? {metadataIndex?' : Class → Option Nat}
    (index : Nat) (olds : List Statement) {news : List Statement}
    (h : ∀ new ∈ news, ∀ d, new.declared = some d → metadataIndex? d = metadataIndex?' d) :
    r.checkStatements metadataIndex? index olds news =
      r.checkStatements metadataIndex?' index olds news := by
  induction olds generalizing index news with
  | nil => rfl
  | cons old olds ih =>
    cases news with
    | nil => rfl
    | cons new news =>
      rw [List.forall_mem_cons] at h
      have hfirst : r.checkStatement metadataIndex? old new =
          r.checkStatement metadataIndex?' old new := by
        unfold checkStatement
        cases hnew : new.declared with
        | none => cases old.declared <;> rfl
        | some d =>
          cases old.declared with
          | none => rfl
          | some c => simp only [h.1 d hnew]
      rw [checkStatements, checkStatements, hfirst, ih (index + 1) h.2]

/-- Of the program only the answers about the classes of the newer version
count. -/
theorem swaps_congr_metadataIndex? {metadataIndex?' : Class → Option Nat}
    (h : ∀ d ∈ r.new.classes, metadataIndex? d = metadataIndex?' d) :
    r.swaps metadataIndex? = r.swaps metadataIndex?' := by
  have hnews : ∀ new ∈ r.new.statements, ∀ d, new.declared = some d →
      metadataIndex? d = metadataIndex?' d :=
    fun new hmem d hd => h d (List.mem_filterMap.2 ⟨new, hmem, hd⟩)
  simp only [swaps, r.checkStatements_congr_metadataIndex? metadataIndex? 0 _ hnews]

/-- A refusal names the first place that does not fit, and why, or the two
numbers of statements. -/
theorem swaps_eq_error_iff (refusal : Refusal) :
    r.swaps metadataIndex? = .error refusal ↔
      (r.old.statements.length ≠ r.new.statements.length ∧
        refusal = ⟨none, .statementCount r.old.statements.length r.new.statements.length⟩) ∨
      (r.old.statements.length = r.new.statements.length ∧ ∃ i cause,
        refusal = ⟨some i, cause⟩ ∧
        r.RejectsAt metadataIndex? r.old.statements r.new.statements i cause ∧
        ∀ j < i, r.AcceptsAt metadataIndex? r.old.statements r.new.statements j) := by
  by_cases hlength : r.old.statements.length = r.new.statements.length
  case neg =>
    rw [r.swaps_of_length_ne metadataIndex? hlength, Except.error.injEq, eq_comm]
    simp [hlength]
  constructor
  · intro h
    rw [r.swaps_of_length_eq metadataIndex? hlength] at h
    obtain hall | ⟨i, cause, hrejects, hbefore⟩ :=
      r.accepted_or_first_rejected metadataIndex? r.old.statements r.new.statements
    · rw [r.checkStatements_of_accepts metadataIndex? 0 hall] at h
      cases h
    · rw [r.checkStatements_of_rejects metadataIndex? 0 hrejects hbefore, Nat.zero_add,
        Except.error.injEq] at h
      exact .inr ⟨hlength, i, cause, h.symm, hrejects, hbefore⟩
  · intro h
    rcases h with ⟨hne, -⟩ | ⟨-, i, cause, rfl, hrejects, hbefore⟩
    · exact absurd hlength hne
    · rw [r.swaps_of_length_eq metadataIndex? hlength,
        r.checkStatements_of_rejects metadataIndex? 0 hrejects hbefore, Nat.zero_add]

/-- **The comparison of a file, place by place.** Whatever the spans of the
two trees and whatever is asked of the program, an edit is swapped in
exactly when the two versions have equally many statements and all places
fit, and then the answer is the list of the classes to swap, in statement
order. Otherwise the refusal names the two numbers of statements and no
place, or the first place that does not fit with the first check that it
fails. -/
theorem swaps_place_by_place (r : Revision) (v : View) :
    (∀ ids, r.swaps v.metadataIndex? = .ok ids ↔
        r.old.statements.length = r.new.statements.length ∧
          (∀ i, r.AcceptsAt v.metadataIndex? r.old.statements r.new.statements i) ∧
          ids = r.swapsOf v.metadataIndex? r.old.statements r.new.statements) ∧
      ∀ refusal, r.swaps v.metadataIndex? = .error refusal ↔
        (r.old.statements.length ≠ r.new.statements.length ∧
          refusal = ⟨none, .statementCount r.old.statements.length r.new.statements.length⟩) ∨
        (r.old.statements.length = r.new.statements.length ∧ ∃ i cause,
          refusal = ⟨some i, cause⟩ ∧
          r.RejectsAt v.metadataIndex? r.old.statements r.new.statements i cause ∧
          ∀ j < i, r.AcceptsAt v.metadataIndex? r.old.statements r.new.statements j) :=
  ⟨r.swaps_eq_ok_iff v.metadataIndex?, r.swaps_eq_error_iff v.metadataIndex?⟩

end Revision

end HotSwap
