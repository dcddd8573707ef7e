/-
HotSwap.Proofs.Tree — trees up to their spans.

Two trees are alike under a relation on spans if they agree in everything
but their spans, and each span of one is related to the span at the same
place of the other (`Statement.Alike`). A tree whose spans are moved is
alike to the tree itself under any relation that holds between each of its
spans and the moved one (`Statement.alike_mapSpans`).
-/
import HotSwap.Proofs.Related
import HotSwap.Tree.Spans

namespace HotSwap

/-! ## Agreement in all but spans -/

section Alike

variable (R : Span → Span → Prop)

def Name.Alike (a b : Name) : Prop := a.text = b.text ∧ R a.span b.span

def Key.Alike : Key → Key → Prop
  | .identifier a, .identifier b => Name.Alike R a b
  | .quoted a, .quoted b => Name.Alike R a b
  | .number a, .number b => Name.Alike R a b
  | .computed s, .computed t => R s t
  | _, _ => False

mutual
def Expr.Alike : Expr → Expr → Prop
  | .verbatim s, .verbatim t => R s t
  | .object s ps, .object t qs => R s t ∧ Property.AlikeLists ps qs
  | _, _ => False
def Property.Alike : Property → Property → Prop
  | .assign s k v, .assign t l w => R s t ∧ Key.Alike R k l ∧ Expr.Alike v w
  | .shorthand s m, .shorthand t n => R s t ∧ Name.Alike R m n
  | .spread s v, .spread t w => R s t ∧ Expr.Alike v w
  | .method s k, .method t l => R s t ∧ Key.Alike R k l
  | _, _ => False
def Property.AlikeLists : List Property → List Property → Prop
  | [], [] => True
  | p :: ps, q :: qs => Property.Alike p q ∧ Property.AlikeLists ps qs
  | _, _ => False
end

/-- Lists with related spans and as many items, which are related one for
one. -/
structure Delimited.Alike {α : Type} (itemAlike : α → α → Prop) (a b : Delimited α) :
    Prop where
  span : R a.span b.span
  items : List.Forall₂ itemAlike a.items b.items

structure Call.Alike (a b : Call) : Prop where
  span : R a.span b.span
  callee : R a.callee b.callee
  arguments : Delimited.Alike R (Expr.Alike R) a.arguments b.arguments

def Decorator.Alike : Decorator → Decorator → Prop
  | .call s c, .call t d => R s t ∧ Call.Alike R c d
  | .bare s e, .bare t f => R s t ∧ R e f
  | _, _ => False

structure Class.Alike (a b : Class) : Prop where
  id : a.id = b.id
  span : R a.span b.span
  name : Option.Rel (Name.Alike R) a.name b.name
  decorators : List.Forall₂ (Decorator.Alike R) a.decorators b.decorators
  modifiers : List.Forall₂ (fun m n => m.keyword = n.keyword ∧ R m.span n.span)
    a.modifiers b.modifiers
  typeParams : Option.Rel (Delimited.Alike R R) a.typeParams b.typeParams
  heritage : Option.Rel (Delimited.Alike R fun c d => c.kind = d.kind ∧ R c.span d.span)
    a.heritage b.heritage
  members : Delimited.Alike R R a.members b.members

structure Statement.Alike (a b : Statement) : Prop where
  span : R a.span b.span
  declared : Option.Rel (Class.Alike R) a.declared b.declared

variable {R}

theorem Property.alikeLists_iff (ps qs : List Property) :
    Property.AlikeLists R ps qs ↔ List.Forall₂ (Property.Alike R) ps qs := by
  induction ps generalizing qs with
  | nil => cases qs <;> simp [Property.AlikeLists]
  | cons p ps ih => cases qs <;> simp [Property.AlikeLists, ih]

theorem Expr.Alike.span {a b : Expr} (h : Expr.Alike R a b) : R a.span b.span := by
  cases a <;> cases b <;> simp only [Expr.Alike] at h
  · exact h
  · exact h.1

end Alike

/-! ## Moved spans -/

section MapSpans

variable (f : Span → Span)

def Name.mapSpans (n : Name) : Name := ⟨n.text, f n.span⟩

def Key.mapSpans : Key → Key
  | .identifier n => .identifier (n.mapSpans f)
  | .quoted n => .quoted (n.mapSpans f)
  | .number n => .number (n.mapSpans f)
  | .computed s => .computed (f s)

mutual
def Expr.mapSpans : Expr → Expr
  | .verbatim s => .verbatim (f s)
  | .object s ps => .object (f s) (Property.mapSpansOfList ps)
def Property.mapSpans : Property → Property
  | .assign s k v => .assign (f s) (k.mapSpans f) (Expr.mapSpans v)
  | .shorthand s n => .shorthand (f s) (n.mapSpans f)
  | .spread s v => .spread (f s) (Expr.mapSpans v)
  | .method s k => .method (f s) (k.mapSpans f)
def Property.mapSpansOfList : List Property → List Property
  | [] => []
  | p :: ps => Property.mapSpans p :: Property.mapSpansOfList ps
end

def Delimited.mapSpans {α : Type} (mapItem : α → α) (l : Delimited α) : Delimited α :=
  ⟨f l.span, l.items.map mapItem⟩

def Call.mapSpans (c : Call) : Call :=
  ⟨f c.span, f c.callee, c.arguments.mapSpans f (Expr.mapSpans f)⟩

def Decorator.mapSpans : Decorator → Decorator
  | .call s c => .call (f s) (c.mapSpans f)
  | .bare s t => .bare (f s) (f t)

def Class.mapSpans (c : Class) : Class where
  id := c.id
  span := f c.span
  name := c.name.map (·.mapSpans f)
  decorators := c.decorators.map (·.mapSpans f)
  modifiers := c.modifiers.map fun m => ⟨m.keyword, f m.span⟩
  typeParams := c.typeParams.map (·.mapSpans f f)
  heritage := c.heritage.map (·.mapSpans f fun h => ⟨h.kind, f h.span⟩)
  members := c.members.mapSpans f f

def Statement.mapSpans (s : Statement) : Statement :=
  ⟨f s.span, s.declared.map (·.mapSpans f)⟩

end MapSpans

theorem Property.mapSpansOfList_eq_map (f : Span → Span) (ps : List Property) :
    Property.mapSpansOfList f ps = ps.map (·.mapSpans f) := by
  induction ps with
  | nil => rfl
  | cons p ps ih => rw [Property.mapSpansOfList, ih, List.map_cons]

@[simp] theorem Name.mapSpans_id (n : Name) : n.mapSpans id = n := rfl

@[simp] theorem Key.mapSpans_id (k : Key) : k.mapSpans id = k := by
  cases k <;> rfl

mutual
theorem Expr.mapSpans_id : ∀ e : Expr, e.mapSpans id = e
  | .verbatim s => rfl
  | .object s ps => by rw [Expr.mapSpans, Property.mapSpansOfList_id ps]; rfl
theorem Property.mapSpans_id : ∀ p : Property, p.mapSpans id = p
  | .assign s k v => by rw [Property.mapSpans, Expr.mapSpans_id v, Key.mapSpans_id]; rfl
  | .shorthand s n => rfl
  | .spread s v => by rw [Property.mapSpans, Expr.mapSpans_id v]; rfl
  | .method s k => by rw [Property.mapSpans, Key.mapSpans_id]; rfl
theorem Property.mapSpansOfList_id : ∀ ps : List Property, Property.mapSpansOfList id ps = ps
  | [] => rfl
  | p :: ps => by
    rw [Property.mapSpansOfList, Property.mapSpans_id p, Property.mapSpansOfList_id ps]
end

theorem Delimited.mapSpans_id {α : Type} (l : Delimited α) : l.mapSpans id id = l := by
  cases l
  simp [Delimited.mapSpans]

theorem Decorator.mapSpans_id (d : Decorator) : d.mapSpans id = d := by
  cases d with
  | bare s t => rfl
  | call s c =>
    have hexpr : Expr.mapSpans id = id := funext Expr.mapSpans_id
    simp [Decorator.mapSpans, Call.mapSpans, hexpr, Delimited.mapSpans_id]

/-- Moving no span changes nothing. -/
theorem Statement.mapSpans_id (a : Statement) : a.mapSpans id = a := by
  have hclass : ∀ c : Class, c.mapSpans id = c := by
    intro c
    have hdecorators : (fun d : Decorator => d.mapSpans id) = id :=
      funext Decorator.mapSpans_id
    have hclauses : ∀ l : Delimited HeritageClause,
        l.mapSpans id (fun h => ⟨h.kind, h.span⟩) = l := Delimited.mapSpans_id
    cases c
    simp [Class.mapSpans, hdecorators, hclauses, Delimited.mapSpans_id]
  cases a
  simp [Statement.mapSpans, hclass]

/-! ## A tree and its moved copy -/

section

variable {R : Span → Span → Prop} {f : Span → Span}

theorem Key.alike_mapSpans {k : Key} (h : R k.span (f k.span)) :
    Key.Alike R k (k.mapSpans f) := by
  cases k with
  | computed s => exact h
  | _ n => exact ⟨rfl, h⟩

mutual
theorem Expr.alike_mapSpans : ∀ e : Expr, (∀ s ∈ e.spans, R s (f s)) →
    Expr.Alike R e (e.mapSpans f)
  | .verbatim s, h => h s (by simp [Expr.spans])
  | .object s ps, h => by
    refine ⟨h s (by simp [Expr.spans]), Property.alikeLists_mapSpans ps fun t ht => ?_⟩
    exact h t (by simp [Expr.spans, ht])
theorem Property.alike_mapSpans : ∀ p : Property, (∀ s ∈ p.spans, R s (f s)) →
    Property.Alike R p (p.mapSpans f)
  | .assign s k v, h => by
    refine ⟨h s (by simp [Property.spans]), ?_, Expr.alike_mapSpans v fun t ht => ?_⟩
    · exact Key.alike_mapSpans (h _ (by simp [Property.spans]))
    · exact h t (by simp [Property.spans, ht])
  | .shorthand s n, h =>
    ⟨h s (by simp [Property.spans]), rfl, h n.span (by simp [Property.spans])⟩
  | .spread s v, h => by
    refine ⟨h s (by simp [Property.spans]), Expr.alike_mapSpans v fun t ht => ?_⟩
    exact h t (by simp [Property.spans, ht])
  | .method s k, h =>
    ⟨h s (by simp [Property.spans]), Key.alike_mapSpans (h _ (by simp [Property.spans]))⟩
theorem Property.alikeLists_mapSpans : ∀ ps : List Property,
    (∀ s ∈ Property.spansOfList ps, R s (f s)) →
    Property.AlikeLists R ps (Property.mapSpansOfList f ps)
  | [], _ => trivial
  | p :: ps, h => by
    refine ⟨Property.alike_mapSpans p fun t ht => ?_,
      Property.alikeLists_mapSpans ps fun t ht => ?_⟩
    · exact h t (by simp [Property.spansOfList, ht])
    · exact h t (by simp [Property.spansOfList, ht])
end

theorem Delimited.alike_mapSpans {α : Type} {S : α → α → Prop} {g : α → α}
    (itemSpans : α → List Span) {l : Delimited α}
    (hitem : ∀ a, (∀ s ∈ itemSpans a, R s (f s)) → S a (g a))
    (h : ∀ s ∈ l.spans itemSpans, R s (f s)) : Delimited.Alike R S l (l.mapSpans f g) := by
  refine ⟨h _ (by simp [Delimited.spans]), forall₂_map_self fun a ha => ?_⟩
  refine hitem a fun s hs => h s ?_
  simp only [Delimited.spans, List.mem_cons, List.mem_flatMap]
  exact .inr ⟨a, ha, hs⟩

theorem Decorator.alike_mapSpans {d : Decorator} (h : ∀ s ∈ d.spans, R s (f s)) :
    Decorator.Alike R d (d.mapSpans f) := by
  cases d with
  | bare s t =>
    exact ⟨h s (by simp [Decorator.spans]), h t (by simp [Decorator.spans])⟩
  | call s c =>
    refine ⟨h s (by simp [Decorator.spans]), ?_, ?_, ?_⟩
    · exact h _ (by simp [Decorator.spans, Call.spans])
    · exact h _ (by simp [Decorator.spans, Call.spans])
    · refine Delimited.alike_mapSpans Expr.spans (fun e => Expr.alike_mapSpans e) fun t ht => ?_
      exact h t (by simp [Decorator.spans, Call.spans, ht])

theorem Class.alike_mapSpans {c : Class} (h : ∀ s ∈ c.spans, R s (f s)) :
    Class.Alike R c (c.mapSpans f) := by
  simp only [Class.spans, List.mem_cons, List.mem_append, List.mem_flatMap, List.mem_map,
    Option.mem_toList, forall_eq_or_imp] at h
  obtain ⟨hspan, h⟩ := h
  exact
    { id := rfl
      span := hspan
      name := rel_map_self fun n hn =>
        ⟨rfl, h _ (.inl (.inl (.inl (.inl (.inl ⟨n, hn, rfl⟩)))))⟩
      decorators := forall₂_map_self fun d hd => Decorator.alike_mapSpans fun s hs =>
        h s (.inl (.inl (.inl (.inl (.inr ⟨d, hd, hs⟩)))))
      modifiers := forall₂_map_self fun m hm =>
        ⟨rfl, h _ (.inl (.inl (.inl (.inr ⟨m, hm, rfl⟩))))⟩
      typeParams := rel_map_self fun l hl =>
        Delimited.alike_mapSpans ([·]) (fun s hs => hs s (by simp)) fun s hs =>
          h s (.inl (.inl (.inr ⟨l, hl, hs⟩)))
      heritage := rel_map_self fun l hl =>
        Delimited.alike_mapSpans ([·.span]) (fun a ha => ⟨rfl, ha _ (by simp)⟩) fun s hs =>
          h s (.inl (.inr ⟨l, hl, hs⟩))
      members := Delimited.alike_mapSpans ([·]) (fun s hs => hs s (by simp)) fun s hs =>
        h s (.inr hs) }

/-- A statement is alike to its moved copy if each of its spans is related
to the moved one. -/
theorem Statement.alike_mapSpans {a : Statement} (h : ∀ s ∈ a.spans, R s (f s)) :
    Statement.Alike R a (a.mapSpans f) := by
  refine ⟨h _ (by simp [Statement.spans]), rel_map_self fun c hc => ?_⟩
  refine Class.alike_mapSpans fun s hs => h s ?_
  simp only [Statement.spans, List.mem_cons, List.mem_flatMap, Option.mem_toList]
  exact .inr ⟨c, hc, hs⟩

end

end HotSwap
