/-
HotSwap.Proofs.Depiction — the tree of a laid out draft depicts the
draft, span by span.

`File.Depicts` relates a draft to a tree over a text: the two agree node by
node, and each span of the tree covers the text of the piece of the draft
that it stands for. Every layout that fits yields such a tree
(`File.depicts_source`). In reading order, the spans of the tree cover the
pieces of the draft one for one (`Statement.Depicts.pieces`), so the tree
passes validation (`File.build_eq_ok`), and what is known of the text under
a span is known from the draft.
-/
import HotSwap.Proofs.DraftText
import HotSwap.Proofs.Numbering
import HotSwap.Proofs.Related

namespace HotSwap.Draft

open HotSwap.Layout
open Excerpt (Covers)

/-! ## What it is for a tree to depict a draft -/

section

variable (text : String)

/-- A name with the given value whose span covers what is written. -/
def DepictsName (value written : String) (name : Name) : Prop :=
  name.text = value ∧ Covers ⟨text, name.span⟩ written

def Key.Depicts : Key → HotSwap.Key → Prop
  | identifier value, .identifier name => DepictsName text value value name
  | quoted value, .quoted name => DepictsName text value ("'" ++ value ++ "'") name
  | number value, .number name => DepictsName text value value name
  | computed inner, .computed span => Covers ⟨text, span⟩ ("[" ++ inner ++ "]")
  | _, _ => False

mutual
def Expr.Depicts (depth : Nat) : Expr → HotSwap.Expr → Prop
  | .verbatim piece, .verbatim span => Covers ⟨text, span⟩ piece
  | .object ps, .object span qs =>
    Covers ⟨text, span⟩ (Expr.text depth (.object ps)) ∧ Property.DepictsAll (depth + 1) ps qs
  | _, _ => False
def Property.Depicts (depth : Nat) : Property → HotSwap.Property → Prop
  | .assign key value, .assign span key' value' =>
    Covers ⟨text, span⟩ (Property.text depth (.assign key value)) ∧ key.Depicts text key' ∧
      Expr.Depicts depth value value'
  | .shorthand value, .shorthand span name =>
    Covers ⟨text, span⟩ value ∧ DepictsName text value value name
  | .spread piece, .spread span (.verbatim inner) =>
    Covers ⟨text, span⟩ ("..." ++ piece) ∧ Covers ⟨text, inner⟩ piece
  | .method key body, .method span key' =>
    Covers ⟨text, span⟩ (Property.text depth (.method key body)) ∧ key.Depicts text key'
  | _, _ => False
def Property.DepictsAll (depth : Nat) : List Property → List HotSwap.Property → Prop
  | [], [] => True
  | p :: ps, q :: qs => Property.Depicts depth p q ∧ Property.DepictsAll depth ps qs
  | _, _ => False
end

/-- The list's span covers what is written, and its items depict the
drafted ones one for one. -/
structure DepictsList {δ α : Type} (D : δ → α → Prop) (ds : List δ) (written : String)
    (list : Delimited α) : Prop where
  span : Covers ⟨text, list.span⟩ written
  items : List.Forall₂ D ds list.items

def Decorator.Depicts : Decorator → HotSwap.Decorator → Prop
  | .call callee arguments, .call span c =>
    Covers ⟨text, span⟩ (Decorator.text (.call callee arguments)) ∧
      Covers ⟨text, c.span⟩ (target (.call callee arguments)) ∧
      Covers ⟨text, c.callee⟩ callee ∧
      DepictsList text (Expr.Depicts text 0) arguments (argumentsText arguments) c.arguments
  | .bare piece, .bare span target =>
    Covers ⟨text, span⟩ ("@" ++ piece) ∧ Covers ⟨text, target⟩ piece
  | _, _ => False

/-- A span that covers a piece, in the order of arguments that lists
need. -/
def DepictsVerbatim (piece : String) (span : Span) : Prop := Covers ⟨text, span⟩ piece

structure Class.Depicts (c : Class) (id : ClassId) (placed : HotSwap.Class) : Prop where
  id : placed.id = id
  span : Covers ⟨text, placed.span⟩ c.text
  name : Option.Rel (fun value name => DepictsName text value value name) c.name placed.name
  decorators : List.Forall₂ (Decorator.Depicts text) c.decorators placed.decorators
  modifiers : List.Forall₂ (fun k m => m.keyword = k ∧ Covers ⟨text, m.span⟩ k.word)
    c.modifiers placed.modifiers
  typeParams : Option.Rel (DepictsList text (DepictsVerbatim text) c.typeParams)
    c.typeParamsText? placed.typeParams
  heritage : Option.Rel (DepictsList text
      (fun clause h => h.kind = clause.1 ∧ Covers ⟨text, h.span⟩ (clauseText clause)) c.heritage)
    c.heritageText? placed.heritage
  members : DepictsList text (DepictsVerbatim text) c.members c.membersText placed.members

/-- A step with the id that its class would get. -/
def Statement.Depicts : ClassId × Statement → HotSwap.Statement → Prop
  | (_, .verbatim piece), ⟨span, none⟩ => Covers ⟨text, span⟩ piece
  | (id, .declare c), ⟨span, some placed⟩ =>
    Covers ⟨text, span⟩ c.text ∧ c.Depicts text id placed
  | _, _ => False

end

variable {text : String}

theorem Property.depictsAll_iff (depth : Nat) (ps : List Property)
    (qs : List HotSwap.Property) :
    Property.DepictsAll text depth ps qs ↔
      List.Forall₂ (Property.Depicts text depth) ps qs := by
  induction ps generalizing qs with
  | nil => cases qs <;> simp [Property.DepictsAll]
  | cons p ps ih => cases qs <;> simp [Property.DepictsAll, ih]

/-! ## Layouts yield such trees -/

theorem depictsName_nameLayout (value : String) :
    (nameLayout value).Yields text (DepictsName text value value) :=
  .map ((Yields.verbatim value).mono fun _ hspan => ⟨rfl, hspan⟩)

theorem Key.depicts_layout (k : Key) : k.layout.Yields text (k.Depicts text) := by
  cases k with
  | identifier value => exact .map (depictsName_nameLayout value)
  | quoted value => exact .map (.map ((Yields.verbatim _).mono fun _ hspan => ⟨rfl, hspan⟩))
  | number value => exact .map (depictsName_nameLayout value)
  | computed inner => exact .map (.verbatim _)

/-- The layout of an object literal depicts properties if their layouts
do. -/
theorem yields_objectLayout {δ : Type} {D : δ → HotSwap.Property → Prop} {ds : List δ}
    {ls : List (Layout HotSwap.Property)} {depth : Nat} {piece : String}
    (hpiece : (objectLayout depth ls).text = piece)
    (h : List.Forall₂ (fun d l => l.Yields text (D d)) ds ls) :
    (objectLayout depth ls).Yields text fun e =>
      ∃ span qs, e = .object span qs ∧ Covers ⟨text, span⟩ piece ∧ List.Forall₂ D ds qs := by
  refine .spanned hpiece (.map ?_)
  have hitems : ∀ qs, List.Forall₂ D ds qs → ∀ span, Covers ⟨text, span⟩ piece →
      ∃ span' qs', HotSwap.Expr.object span qs = .object span' qs' ∧
        Covers ⟨text, span'⟩ piece ∧ List.Forall₂ D ds qs' :=
    fun qs hqs span hspan => ⟨span, qs, rfl, hspan, hqs⟩
  cases h with
  | nil => exact .seqLeft (.pure (hitems _ .nil))
  | cons hfirst hrest =>
    exact .seqLeft (.seqRight ((Yields.each (.cons hfirst hrest)).mono hitems))

mutual
theorem Expr.depicts_layout : ∀ (depth : Nat) (e : Expr),
    (e.layout depth).Yields text (e.Depicts text depth)
  | _, .verbatim piece => .map (.verbatim piece)
  | depth, .object ps => by
    have hps := Property.depicts_layouts (depth + 1) ps
    refine (yields_objectLayout (Expr.text_layout depth (.object ps)) hps).mono ?_
    rintro _ ⟨span, qs, rfl, hspan, hqs⟩
    exact ⟨hspan, (Property.depictsAll_iff _ _ _).2 hqs⟩
theorem Property.depicts_layout : ∀ (depth : Nat) (p : Property),
    (p.layout depth).Yields text (p.Depicts text depth)
  | depth, .assign key value => by
    refine .spanned (Property.text_layout depth (.assign key value)) ?_
    refine (Expr.depicts_layout depth value).seq (.seqLeft (.map ?_))
    exact key.depicts_layout.mono fun k hk v hv span hspan => ⟨hspan, hk, hv⟩
  | depth, .shorthand value => by
    refine .spanned (Property.text_layout depth (.shorthand value)) (.map ?_)
    exact (depictsName_nameLayout value).mono fun name hname span hspan => ⟨hspan, hname⟩
  | depth, .spread piece => by
    refine .spanned (Property.text_layout depth (.spread piece)) (.map (.seqRight ?_))
    exact (Yields.verbatim piece).mono fun inner hinner span hspan => ⟨hspan, hinner⟩
  | depth, .method key body => by
    refine .spanned (Property.text_layout depth (.method key body)) (.seqLeft (.map ?_))
    exact key.depicts_layout.mono fun k hk span hspan => ⟨hspan, hk⟩
theorem Property.depicts_layouts : ∀ (depth : Nat) (ps : List Property),
    List.Forall₂ (fun p l => l.Yields text (Property.Depicts text depth p)) ps
      (Property.layouts depth ps)
  | _, [] => .nil
  | depth, p :: ps => .cons (Property.depicts_layout depth p) (Property.depicts_layouts depth ps)
end

theorem Decorator.depicts_layout (d : Decorator) : d.layout.Yields text (d.Depicts text) := by
  cases d with
  | bare piece =>
    refine .spanned rfl (.map (.seqRight ?_))
    exact (Yields.verbatim piece).mono fun target htarget span hspan => ⟨hspan, htarget⟩
  | call callee arguments =>
    refine .spanned (Decorator.text_layout (.call callee arguments)) (.map (.seqRight ?_))
    refine .spanned (text_callLayout callee arguments) (.seqLeft ?_)
    have hlist : (joined ", " (arguments.map (·.layout 0))).text = argumentsText arguments := by
      rw [text_joined, argumentsText, List.map_map]
      exact congrArg _ (List.map_congr_left fun e _ => e.text_layout 0)
    have hitems : List.Forall₂ (fun e l => l.Yields text (Expr.Depicts text 0 e)) arguments
        (arguments.map (·.layout 0)) :=
      forall₂_map_self fun e _ => e.depicts_layout 0
    refine (Yields.delimited hlist (.joined hitems)).seq (.seqLeft (.map ?_))
    refine (Yields.verbatim callee).mono fun c hc args hargs span hspan whole hwhole => ?_
    exact ⟨hwhole, hspan, hc, hargs.1, hargs.2⟩

/-- Pieces that are written as they are. -/
theorem forall₂_verbatim (pieces : List String) :
    List.Forall₂ (fun piece l => l.Yields text (DepictsVerbatim text piece)) pieces
      (pieces.map verbatim) :=
  forall₂_map_self fun piece _ => .verbatim piece

namespace Class

theorem depicts_nameLayout (c : Class) :
    c.nameLayout.Yields text
      (Option.Rel (fun value name => DepictsName text value value name) c.name) := by
  rw [nameLayout]
  cases c.name with
  | none => exact .pure .none
  | some value =>
    refine .seqRight (.map ?_)
    exact (depictsName_nameLayout value).mono fun name hname => .some hname

theorem depicts_typeParamsLayout (c : Class) :
    c.typeParamsLayout.Yields text
      (Option.Rel (fun written list =>
        DepictsList text (DepictsVerbatim text) c.typeParams written list)
        c.typeParamsText?) := by
  rw [typeParamsLayout, typeParamsText?]
  cases hparams : c.typeParams with
  | nil => exact .pure .none
  | cons param params =>
    have hwritten : (write "<" *> joined ", " ((param :: params).map verbatim) <*
        write ">").text = "<" ++ ", ".intercalate (param :: params) ++ ">" := by
      rw [text_seqLeft, text_seqRight, text_joined]
      simp [Function.comp_def]
    refine .map ((Yields.delimited hwritten
      (.seqLeft (.seqRight (.joined (forall₂_verbatim (param :: params)))))).mono ?_)
    exact fun list hlist => .some ⟨hlist.1, hlist.2⟩

theorem depicts_heritageLayout (c : Class) :
    c.heritageLayout.Yields text
      (Option.Rel (fun written list => DepictsList text
        (fun clause h => h.kind = clause.1 ∧ Covers ⟨text, h.span⟩ (clauseText clause))
        c.heritage written list) c.heritageText?) := by
  rw [heritageLayout, heritageText?]
  cases hheritage : c.heritage with
  | nil => exact .pure .none
  | cons clause clauses =>
    have hwritten : (joined " " ((clause :: clauses).map clauseLayout)).text =
        " ".intercalate ((clause :: clauses).map clauseText) := by
      rw [text_joined, List.map_map]
      rfl
    have hitems : List.Forall₂ (fun clause l => l.Yields text fun h : HeritageClause =>
        h.kind = clause.1 ∧ Covers ⟨text, h.span⟩ (clauseText clause)) (clause :: clauses)
        ((clause :: clauses).map clauseLayout) :=
      forall₂_map_self fun clause _ =>
        .map ((Yields.verbatim _).mono fun span hspan => ⟨rfl, hspan⟩)
    refine .seqRight (.map ((Yields.delimited hwritten (.joined hitems)).mono ?_))
    exact fun list hlist => .some ⟨hlist.1, hlist.2⟩

theorem depicts_membersLayout (c : Class) :
    c.membersLayout.Yields text
      (DepictsList text (DepictsVerbatim text) c.members c.membersText) := by
  have hwritten := c.text_membersLayout
  rw [membersLayout] at hwritten ⊢
  cases hmembers : c.members with
  | nil =>
    rw [hmembers] at hwritten
    exact (Yields.delimited hwritten (.pure .nil)).mono fun list hlist => ⟨hlist.1, hlist.2⟩
  | cons member members =>
    rw [hmembers] at hwritten
    refine (Yields.delimited hwritten
      (.seqLeft (.each (forall₂_verbatim (member :: members))))).mono ?_
    exact fun list hlist => ⟨hlist.1, hlist.2⟩

theorem depicts_layout (id : ClassId) (c : Class) :
    (c.layout id).Yields text (c.Depicts text id) := by
  have hdecorators : List.Forall₂ (fun d l => l.Yields text (Decorator.Depicts text d))
      c.decorators (c.decorators.map Decorator.layout) :=
    forall₂_map_self fun d _ => d.depicts_layout
  have hmodifiers : List.Forall₂ (fun k l => l.Yields text fun m : Modifier =>
      m.keyword = k ∧ Covers ⟨text, m.span⟩ k.word) c.modifiers
      (c.modifiers.map modifierLayout) :=
    forall₂_map_self fun k _ =>
      .map ((Yields.verbatim k.word).mono fun span hspan => ⟨rfl, hspan⟩)
  -- The parts are written from left to right, so the rules take them
  -- from right to left.
  refine .spanned (c.text_layout id) (.seqLeft ?_)
  refine c.depicts_membersLayout.seq (.seqLeft ?_)
  refine c.depicts_heritageLayout.seq (c.depicts_typeParamsLayout.seq ?_)
  refine c.depicts_nameLayout.seq (.seqLeft ?_)
  refine (Yields.each hmodifiers).seq (.map ?_)
  refine (Yields.each hdecorators).mono fun ds hds ms hms name hname params hparams
    heritage hheritage members hmembers span hspan => ?_
  exact ⟨rfl, hspan, hname, hds, hms, hparams, hheritage, hmembers⟩

end Class

/-! ## Files -/

theorem depicts_statementLayouts (id : ClassId) (steps : List Statement) :
    List.Forall₂ (fun step l => l.Yields text (Statement.Depicts text step))
      (numbered id steps) (statementLayouts id steps) := by
  induction steps generalizing id with
  | nil => exact .nil
  | cons step steps ih =>
    cases step with
    | verbatim piece => exact .cons (.map (.verbatim piece)) (ih id)
    | declare c =>
      refine .cons (.map ?_) (ih id.next)
      exact (c.depicts_layout id).mono fun placed hplaced => ⟨hplaced.span, hplaced⟩

/-- The tree depicts the steps of the file, one statement for each. -/
def File.Depicts (f : File) (s : Source) : Prop :=
  List.Forall₂ (Statement.Depicts s.text) (numbered f.firstId f.statements) s.statements

/-- A layout whose text fits depicts its draft. -/
theorem File.depicts_source (f : File) (hfits : f.text.utf8ByteSize ≤ Span.maxOffset) :
    f.Depicts f.source := by
  rw [← f.text_layout] at hfits
  have hyields : f.layout.Yields f.layout.text
      (List.Forall₂ (Statement.Depicts f.layout.text) (numbered f.firstId f.statements)) :=
    .joined (depicts_statementLayouts f.firstId f.statements)
  exact hyields.whole hfits

/-! ## The spans of such trees -/

theorem Key.Depicts.covers {k : Key} {l : HotSwap.Key} (h : k.Depicts text l) :
    Covers ⟨text, l.span⟩ k.text := by
  cases k <;> cases l <;> simp only [Key.Depicts] at h
  case computed.computed => exact h
  all_goals exact h.2

mutual
theorem Expr.Depicts.pieces : ∀ {depth : Nat} (e : Expr) {x : HotSwap.Expr},
    e.Depicts text depth x → List.Forall₂ (DepictsVerbatim text) (e.pieces depth) x.spans
  | _, .verbatim _, .verbatim _, h => .cons h .nil
  | _, .object ps, .object _ _, h => .cons h.1 (Property.DepictsAll.pieces ps h.2)
theorem Property.Depicts.pieces : ∀ {depth : Nat} (p : Property) {q : HotSwap.Property},
    p.Depicts text depth q → List.Forall₂ (DepictsVerbatim text) (p.pieces depth) q.spans
  | _, .assign _ value, .assign _ _ _, h =>
    .cons h.1 (.cons h.2.1.covers (Expr.Depicts.pieces value h.2.2))
  | _, .shorthand _, .shorthand _ _, h => .cons h.1 (.cons h.2.2 .nil)
  | _, .spread _, .spread _ (.verbatim _), h => .cons h.1 (.cons h.2 .nil)
  | _, .method _ _, .method _ _, h => .cons h.1 (.cons h.2.covers .nil)
theorem Property.DepictsAll.pieces : ∀ {depth : Nat} (ps : List Property)
    {qs : List HotSwap.Property}, Property.DepictsAll text depth ps qs →
    List.Forall₂ (DepictsVerbatim text) (Property.piecesOfList depth ps)
      (HotSwap.Property.spansOfList qs)
  | _, [], [], _ => .nil
  | _, p :: ps, _ :: _, h =>
    List.rel_append (Property.Depicts.pieces p h.1) (Property.DepictsAll.pieces ps h.2)
end

/-- The pieces of a list are what is written and then those of its
items. -/
theorem DepictsList.pieces {δ α : Type} {D : δ → α → Prop} {ds : List δ} {written : String}
    {list : Delimited α} (h : DepictsList text D ds written list)
    (itemPieces : δ → List String) (itemSpans : α → List Span)
    (hitem : ∀ d a, D d a →
      List.Forall₂ (DepictsVerbatim text) (itemPieces d) (itemSpans a)) :
    List.Forall₂ (DepictsVerbatim text) (written :: ds.flatMap itemPieces)
      (list.spans itemSpans) :=
  .cons h.span (List.rel_flatMap h.items hitem)

theorem Decorator.Depicts.pieces {d : Decorator} {x : HotSwap.Decorator}
    (h : d.Depicts text x) : List.Forall₂ (DepictsVerbatim text) d.pieces x.spans := by
  cases d <;> cases x <;> simp only [Decorator.Depicts] at h
  case call.call callee arguments span c =>
    obtain ⟨hspan, hcall, hcallee, harguments⟩ := h
    have hlist := harguments.pieces (·.pieces 0) (·.spans) fun e x he => he.pieces
    exact .cons hspan (.cons hcall (.cons hcallee hlist))
  case bare.bare piece span target =>
    exact .cons h.1 (.cons h.2 .nil)

theorem Class.Depicts.pieces {c : Class} {id : ClassId} {placed : HotSwap.Class}
    (h : c.Depicts text id placed) :
    List.Forall₂ (DepictsVerbatim text) c.pieces placed.spans := by
  have hname : List.Forall₂ (DepictsVerbatim text) c.name.toList
      (placed.name.toList.map (·.span)) := by
    rw [List.forall₂_map_right_iff]
    exact (forall₂_toList h.name).imp fun value name hname => hname.2
  have hdecorators : List.Forall₂ (DepictsVerbatim text) (c.decorators.flatMap (·.pieces))
      (placed.decorators.flatMap (·.spans)) :=
    List.rel_flatMap h.decorators fun d x hd => hd.pieces
  have hmodifiers : List.Forall₂ (DepictsVerbatim text) (c.modifiers.map (·.word))
      (placed.modifiers.map (·.span)) := by
    rw [List.forall₂_map_left_iff, List.forall₂_map_right_iff]
    exact h.modifiers.imp fun k m hm => hm.2
  have hparams : List.Forall₂ (DepictsVerbatim text)
      (c.typeParamsText?.toList.flatMap (· :: c.typeParams))
      (placed.typeParams.toList.flatMap (Delimited.spans ([·]))) := by
    refine List.rel_flatMap (forall₂_toList h.typeParams) fun written list hlist => ?_
    have hitems := hlist.pieces ([·]) ([·])
      fun piece span hspan => .cons hspan .nil
    rwa [List.flatMap_singleton'] at hitems
  have hheritage : List.Forall₂ (DepictsVerbatim text)
      (c.heritageText?.toList.flatMap (· :: c.heritage.map clauseText))
      (placed.heritage.toList.flatMap (Delimited.spans ([·.span]))) := by
    refine List.rel_flatMap (forall₂_toList h.heritage) fun written list hlist => ?_
    have hitems := hlist.pieces ([clauseText ·]) ([·.span])
      fun clause x hx => .cons hx.2 .nil
    rwa [← List.map_eq_flatMap] at hitems
  have hmembers : List.Forall₂ (DepictsVerbatim text) (c.membersText :: c.members)
      (placed.members.spans ([·])) := by
    have hitems := h.members.pieces ([·]) ([·])
      fun piece span hspan => .cons hspan .nil
    rwa [List.flatMap_singleton'] at hitems
  have hheader := List.rel_append (List.rel_append hname hdecorators) hmodifiers
  exact .cons h.span
    (List.rel_append (List.rel_append (List.rel_append hheader hparams) hheritage) hmembers)

theorem Statement.Depicts.pieces {step : ClassId × Statement} {x : HotSwap.Statement}
    (h : Statement.Depicts text step x) :
    List.Forall₂ (DepictsVerbatim text) step.2.pieces x.spans := by
  obtain ⟨id, step⟩ := step
  obtain ⟨span, declared⟩ := x
  cases step <;> cases declared <;> simp only [Statement.Depicts] at h
  case verbatim.none => exact .cons h .nil
  case declare.some c placed =>
    have hclass : placed.spans ++ [] = placed.spans := List.append_nil _
    show List.Forall₂ _ (c.text :: c.pieces) (span :: (placed.spans ++ []))
    rw [hclass]
    exact .cons h.1 h.2.pieces

/-- Spans that cover pieces are read as these pieces. -/
theorem map_string?_eq {s : Source} {pieces : List String} {spans : List Span}
    (h : List.Forall₂ (DepictsVerbatim s.text) pieces spans) :
    pieces.map some = spans.map s.string? :=
  map_eq_of_related h fun _ _ hcovers => (Excerpt.string?_of_covers hcovers).symm

namespace File

/-- A tree that depicts a draft is valid. -/
theorem Depicts.valid {f : File} {s : Source} (h : f.Depicts s) : s.Valid := by
  have hpieces := List.rel_flatMap h fun step x hx => Statement.Depicts.pieces hx
  intro span hspan
  obtain ⟨piece, -, hcovers⟩ := exists_mem_of_forall₂_right hpieces hspan
  exact ⟨piece, hcovers⟩

/-- A draft whose text fits is built, and nothing else happens to it. -/
theorem build_eq_ok (f : File) (hfits : f.text.utf8ByteSize ≤ Span.maxOffset) :
    f.build = .ok f.source := by
  refine (Source.validated_eq_ok_iff _ _).2 ⟨rfl, ?_, (f.depicts_source hfits).valid⟩
  show f.layout.text.utf8ByteSize ≤ Span.maxOffset
  rwa [f.text_layout]

/-- The spans of each statement are read as the pieces of its step. -/
theorem Depicts.map_string? {f : File} {s : Source} (h : f.Depicts s) :
    s.statements.map (fun x => x.spans.map s.string?) =
      f.statements.map (fun step => step.pieces.map some) := by
  have hread := map_eq_of_related h fun _ _ hx => map_string?_eq (Statement.Depicts.pieces hx)
  calc s.statements.map (fun x => x.spans.map s.string?)
      = (numbered f.firstId f.statements).map (fun step => step.2.pieces.map some) :=
        hread.symm
    _ = ((numbered f.firstId f.statements).map (·.2)).map (fun step => step.pieces.map some) := by
        rw [List.map_map]
        rfl
    _ = f.statements.map (fun step => step.pieces.map some) := by rw [map_snd_numbered]

/-- **A draft is built exactly.** Every draft whose text fits is built, to
a tree over that text with a statement for each step, in order. The tree
depicts the draft node by node, with the drafted kinds and names; and of
each statement, every span that is anywhere in it is read as the piece of
the draft that it stands for, and as no byte more or less. -/
theorem build_exact (f : File) (hfits : f.text.utf8ByteSize ≤ Span.maxOffset) :
    ∃ s, f.build = .ok s ∧ s.path = f.path ∧ s.text = f.text ∧ f.Depicts s ∧
      s.statements.map (fun x => x.spans.map s.string?) =
        f.statements.map (fun step => step.pieces.map some) := by
  have hdepicts := f.depicts_source hfits
  exact ⟨f.source, f.build_eq_ok hfits, rfl, f.text_layout, hdepicts, hdepicts.map_string?⟩

/-- A comment, and a class with a nested literal, an empty literal and a
member of no bytes. -/
def panelFile : File where
  path := "panel.ts"
  statements :=
    [.verbatim "// é",
      .declare
        { name := some "P"
          decorators :=
            [.call "C" [.object [.assign (.quoted "é") (.object [.spread "b"])], .object []]]
          modifiers := [.exported]
          typeParams := ["T", "U"]
          heritage := [(.base, "B")]
          members := [""] }]

theorem build_exact_panel :
    panelFile.text.utf8ByteSize ≤ Span.maxOffset ∧
    ∃ s, panelFile.build = .ok s ∧ s.statements.map (fun x => x.spans.map s.string?) =
      [[some "// é"],
        [some ("@C(\x7b\n  'é': \x7b\n    ...b,\n  \x7d,\n\x7d, \x7b\x7d)\n" ++
            "export class P<T, U> extends B \x7b\n  \n\x7d"),
          some ("@C(\x7b\n  'é': \x7b\n    ...b,\n  \x7d,\n\x7d, \x7b\x7d)\n" ++
            "export class P<T, U> extends B \x7b\n  \n\x7d"),
          some "P", some "@C(\x7b\n  'é': \x7b\n    ...b,\n  \x7d,\n\x7d, \x7b\x7d)",
          some "C(\x7b\n  'é': \x7b\n    ...b,\n  \x7d,\n\x7d, \x7b\x7d)", some "C",
          some "\x7b\n  'é': \x7b\n    ...b,\n  \x7d,\n\x7d, \x7b\x7d",
          some "\x7b\n  'é': \x7b\n    ...b,\n  \x7d,\n\x7d",
          some "'é': \x7b\n    ...b,\n  \x7d", some "'é'", some "\x7b\n    ...b,\n  \x7d",
          some "...b", some "b", some "\x7b\x7d", some "export", some "<T, U>", some "T",
          some "U", some "extends B", some "extends B", some "\n  \n", some ""]] := by
  have hfits : panelFile.text.utf8ByteSize ≤ Span.maxOffset := by decide
  obtain ⟨s, hs, -, -, -, hread⟩ := build_exact panelFile hfits
  refine ⟨hfits, s, hs, ?_⟩
  rw [hread]
  rfl

end File

end HotSwap.Draft
