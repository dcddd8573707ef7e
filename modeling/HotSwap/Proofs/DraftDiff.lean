/-
HotSwap.Proofs.DraftDiff — the comparison of two laid out files, said of
their drafts.

`Agrees` says when two steps fit at one place, and `swapsOf` which classes
are swapped. Both speak of names, keywords and drafted texts only. For
files that were laid out, with a program that has marked the components of
the newer one, this is exactly what the comparison of the sources finds
(`swaps_of_drafts`): no span covers a piece other than its own, and no
piece is left out of the comparison.
-/
import HotSwap.Proofs.DraftMetadata
import HotSwap.Proofs.Marking

namespace HotSwap

open Excerpt (Covers)

namespace Draft

/-! ## When drafts agree -/

/-- The class has a call decorator with the callee. -/
def Class.Calls (c : Class) (callee : String) : Prop :=
  ∃ arguments, Decorator.call callee arguments ∈ c.decorators

/-- The properties of the literal, if the only decorator of the class calls
the callee with one literal. -/
def Class.metadata? (c : Class) (callee : String) : Option (List Property) :=
  match c.decorators with
  | [.call name [.object properties]] => if name = callee then some properties else none
  | _ => none

/-- What the headers of two drafted classes have to share. -/
structure SameHeader (old new : Class) : Prop where
  name : old.name = new.name
  heritage : old.heritageText? = new.heritageText?
  typeParams : old.typeParamsText? = new.typeParamsText?
  modifierCount : old.modifiers.length = new.modifiers.length
  keywords : ∀ k, k ∈ old.modifiers ↔ k ∈ new.modifiers

/-- What two drafts of a component have to share behind their headers:
everything but the live fields. -/
structure SameComponent (callee : String) (old new : Class) : Prop where
  literals : ∃ ps qs fs gs, old.metadata? callee = some ps ∧ new.metadata? callee = some qs ∧
    Comparable ps qs fs gs
  members : old.membersText = new.membersText

/-- The steps at one place fit. -/
inductive Agrees (callee : String) : Statement → Statement → Prop where
  | plain (piece : String) (new : Statement) (text : piece = new.text) :
      Agrees callee (.verbatim piece) new
  | unmarked (c d : Class) (header : SameHeader c d) (unmarked : ¬ d.Calls callee)
      (text : c.text = d.text) : Agrees callee (.declare c) (.declare d)
  | component (c d : Class) (header : SameHeader c d) (marked : d.Calls callee)
      (component : SameComponent callee c d) : Agrees callee (.declare c) (.declare d)

/-- The class at one place, if it is a component whose live fields have
other last values than before. -/
def swapAt? (callee : String) (old : Statement) (new : ClassId × Statement) :
    Option ClassId := do
  let c ← old.class?
  let d ← new.2.class?
  let fs ← (c.metadata? callee).bind fields?
  let gs ← (d.metadata? callee).bind fields?
  if SameLive fs gs then none else some new.1

/-- The classes to swap, in the order of the steps. -/
def swapsOf (callee : String) (old new : File) : List ClassId :=
  (old.statements.zip (numbered new.firstId new.statements)).filterMap fun p =>
    swapAt? callee p.1 p.2

theorem Class.metadata?_eq_some_iff (c : Class) (callee : String) (ps : List Property) :
    c.metadata? callee = some ps ↔ c.decorators = [.call callee [.object ps]] := by
  rw [metadata?]
  split
  · rename_i name properties h
    rw [h]
    simp only [Option.ite_none_right_eq_some, Option.some.injEq, List.cons.injEq,
      Decorator.call.injEq, Expr.object.injEq, and_true]
  · rename_i h
    simp only [reduceCtorEq, false_iff]
    exact fun hc => h _ _ hc

/-! ## Headers of a tree that depicts a draft -/

variable {r : Revision} {c d : Class} {i j : ClassId} {x y : HotSwap.Class} {text : String}

theorem Class.Depicts.nameText?_eq (h : c.Depicts text i x) : x.nameText? = c.name := by
  rw [HotSwap.Class.nameText?]
  rcases rel_cases h.name with ⟨hnone, hnone'⟩ | ⟨value, name, hsome, hsome', hname⟩
  · rw [hnone, hnone']
    rfl
  · rw [hsome, hsome']
    exact congrArg some hname.1

theorem Class.Depicts.keywords_eq (h : c.Depicts text i x) :
    x.modifiers.map (·.keyword) = c.modifiers := by
  rw [← List.forall₂_eq_eq_eq, List.forall₂_map_left_iff]
  exact h.modifiers.flip.imp fun m k hm => hm.1

theorem sameHeader_iff (hc : c.Depicts r.old.text i x) (hd : d.Depicts r.new.text j y) :
    r.SameHeader x y ↔ SameHeader c d := by
  have hheritage : r.sameLists x.heritage y.heritage = true ↔
      c.heritageText? = d.heritageText? :=
    Excerpt.sameOptional_iff_of_covers
      (rel_map_right hc.heritage fun _ _ hlist => hlist.span)
      (rel_map_right hd.heritage fun _ _ hlist => hlist.span)
  have hparams : r.sameLists x.typeParams y.typeParams = true ↔
      c.typeParamsText? = d.typeParamsText? :=
    Excerpt.sameOptional_iff_of_covers
      (rel_map_right hc.typeParams fun _ _ hlist => hlist.span)
      (rel_map_right hd.typeParams fun _ _ hlist => hlist.span)
  have hcount : x.modifiers.length = c.modifiers.length := hc.modifiers.length_eq.symm
  have hcount' : y.modifiers.length = d.modifiers.length := hd.modifiers.length_eq.symm
  constructor
  · intro h
    obtain ⟨hname, hsame, hsame', hlength, hkeywords⟩ := h
    rw [hc.nameText?_eq, hd.nameText?_eq] at hname
    rw [hcount, hcount'] at hlength
    rw [hc.keywords_eq, hd.keywords_eq] at hkeywords
    exact ⟨hname, hheritage.1 hsame, hparams.1 hsame', hlength, hkeywords⟩
  · intro h
    obtain ⟨hname, hsame, hsame', hlength, hkeywords⟩ := h
    rw [← hc.nameText?_eq, ← hd.nameText?_eq] at hname
    rw [← hcount, ← hcount'] at hlength
    rw [← hc.keywords_eq, ← hd.keywords_eq] at hkeywords
    exact ⟨hname, hheritage.2 hsame, hparams.2 hsame', hlength, hkeywords⟩

/-! ## Components of a tree that depicts a draft -/

/-- The decorator calls the callee. -/
def Decorator.calls (callee : String) : Decorator → Bool
  | call name _ => name = callee
  | bare _ => false

theorem Class.calls_iff (c : Class) (callee : String) :
    c.Calls callee ↔ ∃ d ∈ c.decorators, d.calls callee = true := by
  constructor
  · intro h
    obtain ⟨arguments, hmem⟩ := h
    exact ⟨_, hmem, by simp [Decorator.calls]⟩
  · intro h
    obtain ⟨d, hmem, hcalls⟩ := h
    cases d with
    | bare piece => simp [Decorator.calls] at hcalls
    | call name arguments =>
      simp only [Decorator.calls, decide_eq_true_eq] at hcalls
      exact ⟨arguments, hcalls ▸ hmem⟩

/-- The first call decorator with the callee is found at its drafted
place. -/
theorem Class.Depicts.callIndex?_eq {s : Source} (h : c.Depicts s.text i x) (callee : String) :
    x.callIndex? s callee = c.decorators.findIdx? (Decorator.calls callee) := by
  rw [HotSwap.Class.callIndex?]
  refine (findIdx?_eq_of_related h.decorators fun d e hd => ?_).symm
  cases d <;> cases e <;> simp only [Decorator.Depicts] at hd
  case call.call name arguments span application =>
    have hcallee : s.string? application.callee = some name :=
      Excerpt.string?_of_covers hd.2.2.1
    simp [Decorator.calls, HotSwap.Decorator.call?, hcallee]
  case bare.bare => rfl

theorem Class.Depicts.callIndex?_eq_none_iff {s : Source} (h : c.Depicts s.text i x)
    (callee : String) : x.callIndex? s callee = none ↔ ¬ c.Calls callee := by
  rw [h.callIndex?_eq, List.findIdx?_eq_none_iff, Class.calls_iff]
  simp

/-- The call and its literal depict the drafted ones. -/
structure DepictsMetadata (text : String) (name : String) (ps : List Property)
    (m : MetadataCall) : Prop where
  callee : Covers ⟨text, m.callee⟩ name
  properties : List.Forall₂ (Property.Depicts text 1) ps m.properties

/-- A tree has a metadata call in its only decorator only if the draft
has. -/
theorem Class.Depicts.decorators_eq (h : c.Depicts text i x) (hsole : x.decorators.length = 1)
    {m : MetadataCall} (hm : x.metadataCall? 0 = some m) :
    ∃ name ps, c.decorators = [.call name [.object ps]] ∧ DepictsMetadata text name ps m := by
  obtain ⟨span, call, literal, hcall, hcallee, hitems⟩ :=
    (HotSwap.Class.metadataCall?_eq_some_iff x 0 m).1 hm
  obtain ⟨e, he⟩ := List.length_eq_one_iff.1 hsole
  rw [he] at hcall
  cases hcall
  have hdecorators := h.decorators
  rw [he, List.forall₂_cons_right_iff] at hdecorators
  obtain ⟨d, rest, hd, hrest, hc⟩ := hdecorators
  cases hrest
  cases d with
  | bare piece => cases hd
  | call name arguments =>
    obtain ⟨-, -, hname, harguments⟩ := hd
    have hargument := harguments.items
    rw [hitems, List.forall₂_cons_right_iff] at hargument
    obtain ⟨argument, rest, hargument, hrest, rfl⟩ := hargument
    cases hrest
    cases argument with
    | verbatim piece => cases hargument
    | object ps =>
      refine ⟨name, ps, hc, ?_, (Property.depictsAll_iff _ _ _).1 hargument.2⟩
      rwa [← hcallee]

/-- A drafted metadata call is found in the tree. -/
theorem Class.Depicts.metadataCall? (h : c.Depicts text i x) {name : String}
    {ps : List Property} (hc : c.decorators = [.call name [.object ps]]) :
    x.decorators.length = 1 ∧ ∃ m, x.metadataCall? 0 = some m ∧ DepictsMetadata text name ps m := by
  have hdecorators := h.decorators
  rw [hc, List.forall₂_cons_left_iff] at hdecorators
  obtain ⟨e, rest, he, hrest, hx⟩ := hdecorators
  cases hrest
  refine ⟨by rw [hx]; rfl, ?_⟩
  cases e with
  | bare span target => cases he
  | call span call =>
    obtain ⟨-, -, hname, harguments⟩ := he
    have hargument := harguments.items
    rw [List.forall₂_cons_left_iff] at hargument
    obtain ⟨argument, rest, hargument, hrest, hitems⟩ := hargument
    cases hrest
    cases argument with
    | verbatim span => cases hargument
    | object literal qs =>
      refine ⟨⟨call.callee, qs⟩, ?_, hname, (Property.depictsAll_iff _ _ _).1 hargument.2⟩
      rw [HotSwap.Class.metadataCall?_eq_some_iff]
      exact ⟨span, call, literal, by rw [hx]; rfl, rfl, hitems⟩

theorem findIdx?_calls_singleton (callee name : String) (arguments : List Expr) :
    [Decorator.call name arguments].findIdx? (Decorator.calls callee) =
      if name = callee then some 0 else none := by
  simp [Decorator.calls, List.findIdx?_cons]

/-- Where two versions of a component are accepted, their metadata is the
drafted literals of their only decorators. -/
theorem literals_of_sameComponent (hc : c.Depicts r.old.text i x) (hd : d.Depicts r.new.text j y)
    {callee : String} {index : Nat} (hindex : y.callIndex? r.new callee = some index)
    (h : r.SameComponent x y index) :
    ∃ ps qs m m', c.metadata? callee = some ps ∧ d.metadata? callee = some qs ∧
      x.metadataCall? index = some m ∧ y.metadataCall? index = some m' ∧
      DepictsMetadata r.old.text callee ps m ∧ DepictsMetadata r.new.text callee qs m' ∧
      ∃ fs gs, Comparable ps qs fs gs := by
  obtain ⟨⟨hold, hnew, rfl⟩, ⟨m, m', hm, hm', hcallee, hfree⟩, -⟩ := h
  obtain ⟨name, ps, hcdecorators, hps⟩ := hc.decorators_eq hold hm
  obtain ⟨name', qs, hddecorators, hqs⟩ := hd.decorators_eq hnew hm'
  have hname' : name' = callee := by
    rw [hd.callIndex?_eq, hddecorators, findIdx?_calls_singleton] at hindex
    by_contra hne
    rw [if_neg hne] at hindex
    cases hindex
  have hname : name = callee :=
    ((r.same_iff_of_covers hps.callee hqs.callee).1 hcallee).trans hname'
  subst hname hname'
  exact ⟨ps, qs, m, m', (c.metadata?_eq_some_iff _ _).2 hcdecorators,
    (d.metadata?_eq_some_iff _ _).2 hddecorators, hm, hm', hps, hqs,
    (change_ne_blocked_iff hps.properties hqs.properties).1 hfree⟩

/-- Two versions of a component are accepted exactly when their drafts
agree in all but live fields. -/
theorem sameComponent_iff (hc : c.Depicts r.old.text i x) (hd : d.Depicts r.new.text j y)
    {callee : String} {index : Nat} (hindex : y.callIndex? r.new callee = some index) :
    r.SameComponent x y index ↔ SameComponent callee c d := by
  have hmembers := r.same_iff_of_covers hc.members.span hd.members.span
  constructor
  · intro h
    obtain ⟨ps, qs, -, -, hps, hqs, -, -, -, -, fs, gs, hcomparable⟩ :=
      literals_of_sameComponent hc hd hindex h
    exact ⟨⟨ps, qs, fs, gs, hps, hqs, hcomparable⟩, hmembers.1 h.members⟩
  · intro h
    obtain ⟨⟨ps, qs, fs, gs, hps, hqs, hcomparable⟩, hsame⟩ := h
    have hddecorators := (d.metadata?_eq_some_iff _ _).1 hqs
    obtain ⟨hold, m, hm, hmps⟩ := hc.metadataCall? ((c.metadata?_eq_some_iff _ _).1 hps)
    obtain ⟨hnew, m', hm', hmqs⟩ := hd.metadataCall? hddecorators
    rw [hd.callIndex?_eq, hddecorators, findIdx?_calls_singleton, if_pos rfl] at hindex
    cases hindex
    refine ⟨⟨hold, hnew, rfl⟩, ⟨m, m', hm, hm', ?_, ?_⟩, hmembers.2 hsame⟩
    · exact (r.same_iff_of_covers hmps.callee hmqs.callee).2 rfl
    · exact (change_ne_blocked_iff hmps.properties hmqs.properties).2 ⟨fs, gs, hcomparable⟩

/-! ## Places -/

variable {a b : Statement} {s t : HotSwap.Statement}

theorem Statement.Depicts.covers (h : Statement.Depicts text (i, a) s) :
    Covers ⟨text, s.span⟩ a.text := by
  obtain ⟨span, declared⟩ := s
  cases a <;> cases declared <;> simp only [Statement.Depicts] at h
  · exact h
  · exact h.1

theorem Statement.Depicts.declared_eq_none {piece : String}
    (h : Statement.Depicts text (i, .verbatim piece) s) : s.declared = none := by
  obtain ⟨span, declared⟩ := s
  cases declared with
  | none => rfl
  | some x => cases h

theorem Statement.Depicts.exists_declared (h : Statement.Depicts text (i, .declare c) s) :
    ∃ x, s.declared = some x ∧ c.Depicts text i x := by
  obtain ⟨span, declared⟩ := s
  cases declared with
  | none => cases h
  | some x => exact ⟨x, rfl, h.2⟩

theorem agrees_verbatim_iff (callee piece : String) (b : Statement) :
    Agrees callee (.verbatim piece) b ↔ piece = b.text := by
  constructor
  · intro h
    cases h with
    | plain _ _ text => exact text
  · exact fun text => .plain piece b text

theorem agrees_declare_iff (callee : String) (c d : Class) :
    Agrees callee (.declare c) (.declare d) ↔
      SameHeader c d ∧ ((¬ d.Calls callee ∧ c.text = d.text) ∨
        (d.Calls callee ∧ SameComponent callee c d)) := by
  constructor
  · intro h
    cases h with
    | unmarked _ _ header unmarked text => exact ⟨header, .inl ⟨unmarked, text⟩⟩
    | component _ _ header marked component => exact ⟨header, .inr ⟨marked, component⟩⟩
  · intro h
    rcases h with ⟨header, ⟨unmarked, text⟩ | ⟨marked, component⟩⟩
    · exact .unmarked c d header unmarked text
    · exact .component c d header marked component

/-- A class is compared as a component exactly when its draft calls the
callee. -/
theorem exists_sameComponent_iff (hc : c.Depicts r.old.text i x)
    (hd : d.Depicts r.new.text j y) (callee : String) :
    (∃ index, y.callIndex? r.new callee = some index ∧ r.SameComponent x y index) ↔
      d.Calls callee ∧ SameComponent callee c d := by
  have hunmarked := hd.callIndex?_eq_none_iff callee
  cases hindex : y.callIndex? r.new callee with
  | none =>
    have hcalls : ¬ d.Calls callee := hunmarked.1 hindex
    simp [hcalls]
  | some index =>
    have hcalls : d.Calls callee := by
      by_contra hne
      cases hindex.symm.trans (hunmarked.2 hne)
    simp [hcalls, sameComponent_iff hc hd hindex]

/-- The statements at one place are accepted exactly when the steps
agree. -/
theorem accepts_iff (ha : Statement.Depicts r.old.text (i, a) s)
    (hb : Statement.Depicts r.new.text (j, b) t) (callee : String) :
    r.Accepts (·.callIndex? r.new callee) s t ↔ Agrees callee a b := by
  have htext := r.same_iff_of_covers ha.covers hb.covers
  cases a with
  | verbatim piece =>
    rw [r.accepts_iff_of_plain _ ha.declared_eq_none, htext, agrees_verbatim_iff]
    rfl
  | declare c =>
    obtain ⟨x, hx, hc⟩ := ha.exists_declared
    cases b with
    | verbatim piece =>
      refine iff_of_false (r.not_accepts_of_replaced _ hx hb.declared_eq_none) ?_
      intro h
      cases h
    | declare d =>
      obtain ⟨y, hy, hd⟩ := hb.exists_declared
      rw [r.accepts_iff_of_classes _ hx hy, agrees_declare_iff, sameHeader_iff hc hd, htext,
        hd.callIndex?_eq_none_iff, exists_sameComponent_iff hc hd]
      rfl

theorem Class.metadata?_eq_none {callee : String} (h : ¬ c.Calls callee) :
    c.metadata? callee = none := by
  rw [Option.eq_none_iff_forall_ne_some]
  intro ps hps
  refine h ⟨[.object ps], ?_⟩
  rw [(c.metadata?_eq_some_iff _ _).1 hps]
  exact List.mem_singleton_self _

/-- Two versions of a component that are accepted differ in live fields
exactly when their drafts do. -/
theorem swapAt?_eq_of_component (hs : s.declared = some x) (ht : t.declared = some y)
    (hc : c.Depicts r.old.text i x) (hd : d.Depicts r.new.text j y) {callee : String}
    {index : Nat} (hindex : y.callIndex? r.new callee = some index)
    (component : r.SameComponent x y index) :
    r.swapAt? (·.callIndex? r.new callee) s t =
      swapAt? callee (.declare c) (j, .declare d) := by
  obtain ⟨ps, qs, m, m', hps, hqs, hm, hm', hmps, hmqs, fs, gs, hcomparable⟩ :=
    literals_of_sameComponent hc hd hindex component
  have hlive : r.change m m' = .live ↔ ¬ SameLive fs gs :=
    (change_eq_live_iff hmps.properties hmqs.properties).trans hcomparable.exists_iff
  obtain ⟨hfs, hgs, -⟩ := hcomparable
  by_cases hsame : SameLive fs gs <;>
    simp [Revision.swapAt?, swapAt?, Statement.class?, hs, ht, hindex, hm, hm', hps, hqs, hfs,
      hgs, hlive, hsame, hd.id]

/-- At an accepted place the class to swap is the drafted one. -/
theorem swapAt?_eq (ha : Statement.Depicts r.old.text (i, a) s)
    (hb : Statement.Depicts r.new.text (j, b) t) {callee : String}
    (h : r.Accepts (·.callIndex? r.new callee) s t) :
    r.swapAt? (·.callIndex? r.new callee) s t = swapAt? callee a (j, b) := by
  cases a with
  | verbatim piece =>
    simp [Revision.swapAt?, swapAt?, Statement.class?, ha.declared_eq_none]
  | declare c =>
    obtain ⟨x, hx, hc⟩ := ha.exists_declared
    cases b with
    | verbatim piece => exact absurd h (r.not_accepts_of_replaced _ hx hb.declared_eq_none)
    | declare d =>
      obtain ⟨y, hy, hd⟩ := hb.exists_declared
      rcases (r.accepts_iff_of_classes _ hx hy).1 h with
        ⟨-, ⟨hunmarked, -⟩ | ⟨index, hindex, component⟩⟩
      · have hnone := Class.metadata?_eq_none ((hd.callIndex?_eq_none_iff callee).1 hunmarked)
        simp [Revision.swapAt?, swapAt?, Statement.class?, hx, hy, hunmarked, hnone]
      · exact swapAt?_eq_of_component hx hy hc hd hindex component

/-! ## Files -/

namespace File

variable {old new : File}

/-- The ids of a tree's classes are those of the draft's. -/
theorem Depicts.map_id_classes {f : File} {s : Source} (h : f.Depicts s) :
    s.classes.map (·.id) = (numbered f.firstId f.statements).filterMap classId? := by
  rw [Source.classes, List.map_filterMap]
  refine (filterMap_eq_of_related h fun step s hs => ?_).symm
  obtain ⟨id, a⟩ := step
  cases a with
  | verbatim piece =>
    rw [hs.declared_eq_none]
    rfl
  | declare c =>
    obtain ⟨x, hx, hc⟩ := hs.exists_declared
    rw [hx]
    exact congrArg some hc.id.symm

theorem forall₂_accepts_iff (hold : old.Depicts r.old) (hnew : new.Depicts r.new)
    (callee : String) :
    List.Forall₂ (r.Accepts (·.callIndex? r.new callee)) r.old.statements r.new.statements ↔
      List.Forall₂ (Agrees callee) old.statements new.statements := by
  have hsteps : List.Forall₂ (fun step step' => Agrees callee step.2 step'.2)
      (numbered old.firstId old.statements) (numbered new.firstId new.statements) ↔
      List.Forall₂ (Agrees callee) ((numbered old.firstId old.statements).map (·.2))
        ((numbered new.firstId new.statements).map (·.2)) := by
    rw [List.forall₂_map_left_iff, List.forall₂_map_right_iff]
  rw [map_snd_numbered, map_snd_numbered] at hsteps
  rw [← hsteps]
  exact forall₂_iff_of_related hold hnew fun _ _ _ _ hs ht => accepts_iff hs ht callee

theorem swapsOf_eq (hold : old.Depicts r.old) (hnew : new.Depicts r.new) {callee : String}
    (h : List.Forall₂ (r.Accepts (·.callIndex? r.new callee)) r.old.statements
      r.new.statements) :
    r.swapsOf (·.callIndex? r.new callee) r.old.statements r.new.statements =
      swapsOf callee old new := by
  rw [Revision.swapsOf, swapsOf]
  rw [filterMap_eq_of_related (forall₂_zip hold hnew h)
    (g := fun p => swapAt? callee p.1.2 p.2) fun p q hpq => swapAt?_eq hpq.1 hpq.2.1 hpq.2.2]
  rw [← map_snd_numbered old.firstId old.statements, List.zip_map_left, List.filterMap_map]
  rw [map_snd_numbered]
  rfl

end File

/-- **The comparison of laid out files is the comparison of their
drafts.** Take two drafts whose texts fit, the newer one with enough ids
for its classes, and the program that holds the newer file and has marked
as components the classes with a call decorator of the given callee. Both
drafts are built, and the edit is swapped in exactly when the steps agree
one for one; the answer then is the list of components whose live fields
have other last values than before. -/
theorem swaps_of_drafts (old new : File) (callee : String)
    (hold : old.text.utf8ByteSize ≤ Span.maxOffset)
    (hnew : new.text.utf8ByteSize ≤ Span.maxOffset)
    (hids : new.firstId.number.toNat + new.classes.length ≤ UInt32.size) :
    old.build = .ok old.source ∧ new.build = .ok new.source ∧
      ∀ ids, (Revision.mk old.source new.source).swaps
          (new.source.markedProgram callee).view.metadataIndex? = .ok ids ↔
        List.Forall₂ (Agrees callee) old.statements new.statements ∧
          ids = swapsOf callee old new := by
  have holdDepicts := old.depicts_source hold
  have hnewDepicts := new.depicts_source hnew
  refine ⟨old.build_eq_ok hold, new.build_eq_ok hnew, fun ids => ?_⟩
  have hnodup : (new.source.classes.map (·.id)).Nodup := by
    rw [hnewDepicts.map_id_classes]
    exact nodup_classIds hids
  have hindex : ∀ d ∈ new.source.classes,
      (new.source.markedProgram callee).view.metadataIndex? d =
        d.callIndex? new.source callee :=
    fun d hd => new.source.metadataIndex?_markedProgram callee hnodup hd
  rw [Revision.swaps_congr_metadataIndex? _ _ hindex, Revision.swaps_eq_ok_iff_forall₂,
    File.forall₂_accepts_iff holdDepicts hnewDepicts]
  refine and_congr_right fun h => ?_
  rw [File.swapsOf_eq holdDepicts hnewDepicts
    ((File.forall₂_accepts_iff holdDepicts hnewDepicts callee).2 h)]

theorem swaps_of_drafts_card :
    (cardFile "'old'").text.utf8ByteSize ≤ Span.maxOffset ∧
    (cardFile "'new'").text.utf8ByteSize ≤ Span.maxOffset ∧
    (cardFile "'new'").firstId.number.toNat + (cardFile "'new'").classes.length ≤ UInt32.size ∧
    (Revision.mk (cardFile "'old'").source (cardFile "'new'").source).swaps
      ((cardFile "'new'").source.markedProgram "Component").view.metadataIndex? = .ok [⟨0⟩] := by
  have hold : (cardFile "'old'").text.utf8ByteSize ≤ Span.maxOffset := by decide
  have hnew : (cardFile "'new'").text.utf8ByteSize ≤ Span.maxOffset := by decide
  have hids : (cardFile "'new'").firstId.number.toNat + (cardFile "'new'").classes.length ≤
      UInt32.size := by decide
  obtain ⟨-, -, hswaps⟩ :=
    swaps_of_drafts (cardFile "'old'") (cardFile "'new'") "Component" hold hnew hids
  refine ⟨hold, hnew, hids, (hswaps _).2 ⟨?_, by decide⟩⟩
  refine .cons (.component _ _ ⟨rfl, rfl, rfl, rfl, fun _ => Iff.rfl⟩ ?_ ?_) .nil
  · exact ⟨_, List.mem_singleton_self _⟩
  · exact ⟨⟨_, _, _, _, rfl, rfl, rfl, rfl, rfl⟩, rfl⟩

end Draft

end HotSwap
