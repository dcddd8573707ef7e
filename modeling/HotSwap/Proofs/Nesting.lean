/-
HotSwap.Proofs.Nesting — the spans of a drafted file are nested and in
order.

`Class.Nested` says how the spans of a class lie to each other: its parts
follow one another inside it, the items of a list inside the list, and at
every depth the properties inside their literal. `Statement.Nested` says
that a class fills its statement, and `Span.Consecutive` that statements
have one byte between them. All this is about offsets, which
`Layout.Lies` keeps track of: the value of a layout is described by where
the layout's text starts and stops, and there is a rule for each way to
put layouts together.
-/
import HotSwap.Proofs.Concatenation

namespace HotSwap

/-! ## Spans that follow one another -/

namespace Span

/-- The span begins and ends at the offsets. -/
def Reaches (s : Span) (start stop : Nat) : Prop := s.start.toNat = start ∧ s.stop.toNat = stop

/-- From the one offset to the other, no span begins before the one in
front of it has ended. -/
def InOrder (start : Nat) : List Span → Nat → Prop
  | [], stop => start ≤ stop
  | s :: rest, stop =>
    start ≤ s.start.toNat ∧ s.start.toNat ≤ s.stop.toNat ∧ InOrder s.stop.toNat rest stop

/-- The spans fill the offsets but for a gap of the given size between any
two. -/
def Consecutive (gap : Nat) (start : Nat) : List Span → Nat → Prop
  | [], stop => start = stop
  | [s], stop => s.Reaches start stop ∧ start ≤ stop
  | s :: t :: rest, stop =>
    s.start.toNat = start ∧ start ≤ s.stop.toNat ∧
      Consecutive gap (s.stop.toNat + gap) (t :: rest) stop

namespace InOrder

variable {start start' stop stop' : Nat} {spans : List Span}

theorem le (h : InOrder start spans stop) : start ≤ stop := by
  induction spans generalizing start with
  | nil => exact h
  | cons s rest ih =>
    obtain ⟨hstart, hforwards, hrest⟩ := h
    exact Nat.le_trans hstart (Nat.le_trans hforwards (ih hrest))

theorem widen (h : InOrder start spans stop) (hstart : start' ≤ start) (hstop : stop ≤ stop') :
    InOrder start' spans stop' := by
  induction spans generalizing start start' with
  | nil => exact Nat.le_trans hstart (Nat.le_trans h hstop)
  | cons s rest ih =>
    obtain ⟨hs, hforwards, hrest⟩ := h
    exact ⟨Nat.le_trans hstart hs, hforwards, ih hrest (Nat.le_refl _)⟩

theorem append {middle : Nat} {more : List Span} (h : InOrder start spans middle)
    (h' : InOrder middle more stop) : InOrder start (spans ++ more) stop := by
  induction spans generalizing start with
  | nil => exact h'.widen h (Nat.le_refl _)
  | cons s rest ih =>
    obtain ⟨hs, hforwards, hrest⟩ := h
    exact ⟨hs, hforwards, ih hrest⟩

end InOrder

theorem Reaches.start_eq {s t : Span} {start stop stop' : Nat} (hs : s.Reaches start stop)
    (ht : t.Reaches start stop') : s.start = t.start :=
  UInt32.toNat_inj.1 (hs.1.trans ht.1.symm)

theorem Reaches.stop_eq {s t : Span} {start start' stop : Nat} (hs : s.Reaches start stop)
    (ht : t.Reaches start' stop) : s.stop = t.stop :=
  UInt32.toNat_inj.1 (hs.2.trans ht.2.symm)

theorem Reaches.eq {s t : Span} {start stop : Nat} (hs : s.Reaches start stop)
    (ht : t.Reaches start stop) : s = t := by
  cases s
  cases t
  exact congrArg₂ mk (hs.start_eq ht) (hs.stop_eq ht)

theorem Reaches.inOrder {s : Span} {start stop : Nat} (h : s.Reaches start stop)
    (hle : start ≤ stop) : InOrder start [s] stop := by
  obtain ⟨rfl, rfl⟩ := h
  exact ⟨Nat.le_refl _, hle, Nat.le_refl _⟩

end Span

/-! ## Trees with nested spans -/

/-- The items lie inside the list's span, one behind the other. -/
def Delimited.Ordered {α : Type} (itemSpan : α → Span) (l : Delimited α) : Prop :=
  Span.InOrder l.span.start.toNat (l.items.map itemSpan) l.span.stop.toNat

mutual
/-- At every depth, the properties of a literal lie between its braces, one
behind the other. -/
def Expr.Nested : Expr → Prop
  | .verbatim span => span.start.toNat ≤ span.stop.toNat
  | .object span properties =>
    Span.InOrder (span.start.toNat + 1) (properties.map (·.span)) (span.stop.toNat - 1) ∧
      Property.AllNested properties
/-- A name begins its property. A value follows the name behind two bytes,
or three dots, and ends the property; a method goes on behind its name
with parentheses and braces. -/
def Property.Nested : Property → Prop
  | .assign span key value =>
    key.span.start = span.start ∧ key.span.start.toNat ≤ key.span.stop.toNat ∧
      value.span.start.toNat = key.span.stop.toNat + 2 ∧ value.span.stop = span.stop ∧
      Expr.Nested value
  | .shorthand span name => name.span = span ∧ span.start.toNat ≤ span.stop.toNat
  | .spread span value =>
    value.span.start.toNat = span.start.toNat + 3 ∧ value.span.stop = span.stop ∧
      Expr.Nested value
  | .method span key =>
    key.span.start = span.start ∧ key.span.start.toNat ≤ key.span.stop.toNat ∧
      key.span.stop.toNat + 7 ≤ span.stop.toNat
def Property.AllNested : List Property → Prop
  | [] => True
  | property :: rest => Property.Nested property ∧ Property.AllNested rest
end

/-- The callee begins the call, and the arguments lie between the
parentheses that end it. -/
structure Call.Nested (c : Call) : Prop where
  callee : c.callee.start = c.span.start
  forwards : c.callee.start.toNat ≤ c.callee.stop.toNat
  opening : c.arguments.span.start.toNat = c.callee.stop.toNat + 1
  closing : c.span.stop.toNat = c.arguments.span.stop.toNat + 1
  ordered : c.arguments.Ordered (·.span)
  arguments : ∀ e ∈ c.arguments.items, e.Nested

/-- What is applied stands behind the sign and reaches to the end of the
decorator. -/
def Decorator.Nested : Decorator → Prop
  | .call span application =>
    application.span.start.toNat = span.start.toNat + 1 ∧ application.span.stop = span.stop ∧
      application.Nested
  | .bare span target =>
    target.start.toNat = span.start.toNat + 1 ∧ target.stop = span.stop ∧
      target.start.toNat ≤ target.stop.toNat

/-- The parts of a class in the order in which they are written. -/
def Class.parts (c : Class) : List Span :=
  c.decorators.map (·.span) ++ (c.modifiers.map (·.span) ++ (c.name.toList.map (·.span) ++
    (c.typeParams.toList.map (·.span) ++ (c.heritage.toList.map (·.span) ++
      [c.members.span]))))

/-- The parts of the class lie inside it, one behind the other, and what
is inside them is nested in turn. Only the closing brace stands behind the
members. -/
structure Class.Nested (c : Class) : Prop where
  parts : Span.InOrder c.span.start.toNat c.parts c.members.span.stop.toNat
  closing : c.span.stop.toNat = c.members.span.stop.toNat + 1
  decorators : ∀ d ∈ c.decorators, d.Nested
  typeParams : ∀ l ∈ c.typeParams, l.Ordered (·)
  heritage : ∀ l ∈ c.heritage, l.Ordered (·.span)
  members : c.members.Ordered (·)

/-- A class fills the statement that declares it. -/
def Statement.Nested (s : Statement) : Prop :=
  ∀ c ∈ s.declared, c.span = s.span ∧ c.Nested

theorem Property.allNested_iff (ps : List Property) :
    Property.AllNested ps ↔ ∀ p ∈ ps, p.Nested := by
  induction ps with
  | nil => simp [Property.AllNested]
  | cons p ps ih => simp [Property.AllNested, ih]

/-! ## Where layouts lie -/

namespace Layout

variable {α β : Type}

/-- The layout's value has the property wherever its text stands in a text
that fits. The property is told where the text starts and where it
stops. -/
def Lies (l : Layout α) (P : Nat → Nat → α → Prop) : Prop :=
  ∀ n, n + l.size ≤ Span.maxOffset → P n (n + l.size) (l.place n)

theorem size_write (text : String) : (write text).size = text.utf8ByteSize := rfl

theorem Lies.mono {l : Layout α} {P Q : Nat → Nat → α → Prop} (h : l.Lies P)
    (himp : ∀ start stop x, start ≤ stop → P start stop x → Q start stop x) : l.Lies Q := by
  intro n hfits
  exact himp _ _ _ (Nat.le_add_right _ _) (h n hfits)

theorem Lies.pure {P : Nat → Nat → α → Prop} {a : α} (h : ∀ n, P n n a) :
    (pure a : Layout α).Lies P := by
  intro n _
  exact h n

theorem Lies.map {f : α → β} {l : Layout α} {P : Nat → Nat → β → Prop}
    (h : l.Lies fun start stop x => P start stop (f x)) : (f <$> l).Lies P := by
  intro n hfits
  exact h n hfits

/-- What is on the right starts where what is on the left stops. -/
theorem Lies.seq {f : Layout (α → β)} {l : Layout α} {P : Nat → Nat → β → Prop}
    {Q : Nat → Nat → α → Prop} (hl : l.Lies Q)
    (hf : f.Lies fun start middle g => ∀ stop x, Q middle stop x → P start stop (g x)) :
    (f <*> l).Lies P := by
  intro n hfits
  rw [size_seq, ← Nat.add_assoc] at hfits ⊢
  exact hf n (by omega) _ _ (hl _ hfits)

theorem Lies.seqLeft {l : Layout α} {m : Layout β} {P : Nat → Nat → α → Prop} (k : Nat)
    (hk : m.size = k) (h : l.Lies fun start stop x => P start (stop + k) x) :
    (l <* m).Lies P := by
  intro n hfits
  rw [size_seqLeft, ← Nat.add_assoc, hk] at hfits ⊢
  exact h n (by omega)

theorem Lies.seqRight {l : Layout α} {m : Layout β} {P : Nat → Nat → β → Prop} (k : Nat)
    (hk : l.size = k) (h : m.Lies fun start stop x => ∀ first, start = first + k →
      P first stop x) : (l *> m).Lies P := by
  intro n hfits
  rw [size_seqRight, ← Nat.add_assoc] at hfits ⊢
  rw [place_seqRight]
  exact h (n + l.size) hfits n (by rw [hk])

/-- The span that a value is told reaches over the value's own text. -/
theorem Lies.spanned {l : Layout (Span → α)} {P : Nat → Nat → α → Prop}
    (h : l.Lies fun start stop g => ∀ span : Span, span.Reaches start stop →
      P start stop (g span)) : (spanned l).Lies P := by
  intro n hfits
  change n + l.size ≤ Span.maxOffset at hfits
  exact h n hfits _ ⟨Span.start_ofOffsets (by omega) _, Span.stop_ofOffsets _ hfits⟩

theorem Lies.verbatim (piece : String) :
    (verbatim piece).Lies fun start stop span =>
      span.Reaches start stop ∧ stop = start + piece.utf8ByteSize := by
  intro n hfits
  change n + piece.utf8ByteSize ≤ Span.maxOffset at hfits
  exact ⟨⟨Span.start_ofOffsets (by omega) _, Span.stop_ofOffsets _ hfits⟩, rfl⟩

/-! ## Lists -/

section Lists

variable {itemSpan : α → Span} {D : α → Prop} {ls : List (Layout α)}

theorem Lies.each {before after : String}
    (h : ∀ l ∈ ls, l.Lies fun start stop x => (itemSpan x).Reaches start stop ∧ D x) :
    (each before after ls).Lies fun start stop xs =>
      Span.InOrder start (xs.map itemSpan) stop ∧ ∀ x ∈ xs, D x := by
  induction ls with
  | nil => exact .pure fun n => ⟨Nat.le_refl n, fun x hx => absurd hx List.not_mem_nil⟩
  | cons l ls ih =>
    refine (ih fun m hm => h m (List.mem_cons_of_mem _ hm)).seq (.map (.seqLeft _ rfl
      (.seqRight _ rfl ((h l List.mem_cons_self).mono ?_))))
    rintro start stop x hle ⟨⟨rfl, rfl⟩, hx⟩ first hfirst last xs ⟨hxs, hD⟩
    refine ⟨⟨by omega, hle, hxs.widen (Nat.le_add_right _ _) (Nat.le_refl _)⟩, ?_⟩
    exact List.forall_mem_cons.2 ⟨hx, hD⟩

theorem Lies.joined {separator : String}
    (h : ∀ l ∈ ls, l.Lies fun start stop x => (itemSpan x).Reaches start stop ∧ D x) :
    (joined separator ls).Lies fun start stop xs =>
      Span.InOrder start (xs.map itemSpan) stop ∧ ∀ x ∈ xs, D x := by
  cases ls with
  | nil => exact .pure fun n => ⟨Nat.le_refl n, fun x hx => absurd hx List.not_mem_nil⟩
  | cons l ls =>
    refine (Lies.each fun m hm => h m (List.mem_cons_of_mem _ hm)).seq (.map
      ((h l List.mem_cons_self).mono ?_))
    rintro start stop x hle ⟨⟨rfl, rfl⟩, hx⟩ last xs ⟨hxs, hD⟩
    exact ⟨⟨Nat.le_refl _, hle, hxs⟩, List.forall_mem_cons.2 ⟨hx, hD⟩⟩

theorem Lies.delimited {l : Layout (List α)}
    (h : l.Lies fun start stop xs =>
      Span.InOrder start (xs.map itemSpan) stop ∧ ∀ x ∈ xs, D x) :
    (delimited l).Lies fun start stop list =>
      list.span.Reaches start stop ∧ list.Ordered itemSpan ∧ ∀ x ∈ list.items, D x := by
  refine .spanned (.map (h.mono ?_))
  rintro start stop xs - ⟨hxs, hD⟩ span ⟨rfl, rfl⟩
  exact ⟨⟨rfl, rfl⟩, hxs, hD⟩

theorem Lies.eachSeparator {separator : String} {l : Layout α}
    {P : Nat → Nat → List α → Prop} (h : (Layout.joined separator (l :: ls)).Lies P) :
    (Layout.each separator "" (l :: ls)).Lies fun start stop xs =>
      P (start + separator.utf8ByteSize) stop xs := by
  intro n hfits
  rw [size_each_separator, ← Nat.add_assoc] at hfits ⊢
  rw [place_each_separator]
  exact h _ hfits

/-- The items of a joined list fill its text but for the separators. -/
theorem Lies.joinedConsecutive {separator : String}
    (h : ∀ l ∈ ls, l.Lies fun start stop x => (itemSpan x).Reaches start stop ∧ D x) :
    (Layout.joined separator ls).Lies fun start stop xs =>
      xs.length = ls.length ∧
        Span.Consecutive separator.utf8ByteSize start (xs.map itemSpan) stop ∧
        ∀ x ∈ xs, D x := by
  induction ls with
  | nil => exact .pure fun n => ⟨rfl, rfl, fun x hx => absurd hx List.not_mem_nil⟩
  | cons l ls ih =>
    have hfirst := h l List.mem_cons_self
    have hrest := ih fun m hm => h m (List.mem_cons_of_mem _ hm)
    cases ls with
    | nil =>
      have hnone : (Layout.each separator "" ([] : List (Layout α))).Lies
          fun start stop xs => xs = [] ∧ start = stop := .pure fun n => ⟨rfl, rfl⟩
      refine hnone.seq (.map (hfirst.mono ?_))
      rintro start stop x hle ⟨hx, hD⟩ last _ ⟨rfl, rfl⟩
      exact ⟨rfl, ⟨hx, hle⟩, List.forall_mem_singleton.2 hD⟩
    | cons m ms =>
      refine (Lies.eachSeparator hrest).seq (.map (hfirst.mono ?_))
      rintro start stop x hle ⟨⟨rfl, rfl⟩, hx⟩ last xs ⟨hlength, hxs, hD⟩
      refine ⟨congrArg (· + 1) hlength, ?_, List.forall_mem_cons.2 ⟨hx, hD⟩⟩
      cases xs with
      | nil => cases hlength
      | cons y ys => exact ⟨rfl, hle, hxs⟩

end Lists

end Layout

/-! ## Drafts -/

namespace Draft

open HotSwap.Layout

theorem nameLayout_lies (text : String) :
    (nameLayout text).Lies fun start stop name => name.span.Reaches start stop :=
  .map ((Lies.verbatim text).mono fun _ _ _ _ h => h.1)

theorem Key.layout_lies (k : Key) :
    k.layout.Lies fun start stop key => key.span.Reaches start stop := by
  cases k with
  | identifier text => exact .map (nameLayout_lies text)
  | quoted text => exact .map (.map ((Lies.verbatim _).mono fun _ _ _ _ h => h.1))
  | number text => exact .map (nameLayout_lies text)
  | computed text => exact .map ((Lies.verbatim _).mono fun _ _ _ _ h => h.1)

theorem objectLayout_lies {depth : Nat} {ls : List (Layout HotSwap.Property)}
    (h : ∀ l ∈ ls, l.Lies fun start stop p => p.span.Reaches start stop ∧ p.Nested) :
    (objectLayout depth ls).Lies fun start stop e => e.span.Reaches start stop ∧ e.Nested := by
  have hobject : ∀ (start stop : Nat) (ps : List HotSwap.Property),
      Span.InOrder (start + 1) (ps.map (·.span)) (stop - 1) → (∀ p ∈ ps, p.Nested) →
      ∀ span : Span, span.Reaches start stop →
        (HotSwap.Expr.object span ps).span.Reaches start stop ∧
          (HotSwap.Expr.object span ps).Nested := by
    rintro start stop ps hps hnested span ⟨rfl, rfl⟩
    exact ⟨⟨rfl, rfl⟩, hps, (HotSwap.Property.allNested_iff ps).2 hnested⟩
  refine .spanned (.map ?_)
  cases ls with
  | nil =>
    refine .seqLeft 2 rfl (.pure fun n => ?_)
    exact hobject n (n + 2) [] (Nat.le_refl _) fun p hp => absurd hp List.not_mem_nil
  | cons l ls =>
    have hclosing : (write ("\n" ++ indent depth ++ "\x7d")).size =
        1 + (indent depth).utf8ByteSize + 1 := by
      rw [size_write, String.utf8ByteSize_append, String.utf8ByteSize_append]
      rfl
    refine .seqLeft _ hclosing (.seqRight 1 rfl ((Lies.each h).mono ?_))
    rintro start stop ps - ⟨hps, hnested⟩ first rfl
    exact hobject first _ ps (hps.widen (Nat.le_refl _) (by omega)) hnested

mutual
theorem Expr.layout_lies : ∀ (depth : Nat) (e : Expr),
    (e.layout depth).Lies fun start stop x => x.span.Reaches start stop ∧ x.Nested
  | _, .verbatim text => by
    refine .map ((Lies.verbatim text).mono ?_)
    rintro start stop span hle ⟨⟨rfl, rfl⟩, -⟩
    exact ⟨⟨rfl, rfl⟩, hle⟩
  | depth, .object ps => objectLayout_lies (Property.layouts_lie (depth + 1) ps)
theorem Property.layout_lies : ∀ (depth : Nat) (p : Property),
    (p.layout depth).Lies fun start stop x => x.span.Reaches start stop ∧ x.Nested
  | depth, .assign key value => by
    refine .spanned ((Expr.layout_lies depth value).seq (.seqLeft 2 rfl (.map
      (key.layout_lies.mono ?_))))
    rintro start stop k hle hk last v ⟨hv, hnested⟩ span hspan
    refine ⟨hspan, hk.start_eq hspan, ?_, ?_, hv.stop_eq hspan, hnested⟩
    · rwa [hk.1, hk.2]
    · rw [hv.1, hk.2]
  | _, .shorthand name => by
    refine .spanned (.map ((nameLayout_lies name).mono ?_))
    rintro start stop n hle hn span hspan
    refine ⟨hspan, hn.eq hspan, ?_⟩
    rwa [hspan.1, hspan.2]
  | _, .spread text => by
    refine .spanned (.map (.seqRight 3 rfl ((Lies.verbatim text).mono ?_)))
    rintro start stop inner hle ⟨hinner, -⟩ first rfl span hspan
    refine ⟨hspan, ?_, hinner.stop_eq hspan, ?_⟩
    · exact hinner.1.trans (congrArg (· + 3) hspan.1.symm)
    · show inner.start.toNat ≤ inner.stop.toNat
      rwa [hinner.1, hinner.2]
  | _, .method key body => by
    have hbody : (write ("() \x7b " ++ body ++ " \x7d")).size = 5 + body.utf8ByteSize + 2 := by
      rw [size_write, String.utf8ByteSize_append, String.utf8ByteSize_append]
      rfl
    refine .spanned (.seqLeft _ hbody (.map (key.layout_lies.mono ?_)))
    rintro start stop k hle hk span hspan
    refine ⟨hspan, hk.start_eq hspan, ?_, ?_⟩
    · rwa [hk.1, hk.2]
    · rw [hk.2, hspan.2]
      omega
theorem Property.layouts_lie : ∀ (depth : Nat) (ps : List Property),
    ∀ l ∈ Property.layouts depth ps,
      l.Lies fun start stop x => x.span.Reaches start stop ∧ x.Nested
  | _, [], _, h => absurd h List.not_mem_nil
  | depth, p :: ps, l, h => by
    rcases List.mem_cons.1 h with rfl | h
    · exact Property.layout_lies depth p
    · exact Property.layouts_lie depth ps l h
end

theorem callLayout_lies (callee : String) (arguments : List Expr) :
    (callLayout callee arguments).Lies fun start stop c =>
      c.span.Reaches start stop ∧ c.Nested := by
  have harguments : ∀ l ∈ arguments.map (·.layout 0),
      l.Lies fun start stop x => x.span.Reaches start stop ∧ x.Nested := by
    intro l hl
    obtain ⟨e, -, rfl⟩ := List.mem_map.1 hl
    exact e.layout_lies 0
  refine .spanned (.seqLeft 1 rfl ((Lies.delimited (.joined harguments)).seq (.seqLeft 1 rfl
    (.map ((Lies.verbatim callee).mono ?_)))))
  rintro start stop c hle ⟨hc, -⟩ last args ⟨hargs, hordered, hnested⟩ span hspan
  exact ⟨hspan,
    { callee := hc.start_eq hspan
      forwards := by rwa [hc.1, hc.2]
      opening := by rw [hargs.1, hc.2]
      closing := by rw [hspan.2, hargs.2]
      ordered := hordered
      arguments := hnested }⟩

theorem Decorator.layout_lies (d : Decorator) :
    d.layout.Lies fun start stop x => x.span.Reaches start stop ∧ x.Nested := by
  cases d with
  | bare text =>
    refine .spanned (.map (.seqRight 1 rfl ((Lies.verbatim text).mono ?_)))
    rintro start stop target hle ⟨htarget, -⟩ first rfl span hspan
    refine ⟨hspan, ?_, htarget.stop_eq hspan, ?_⟩
    · rw [htarget.1, hspan.1]
    · rwa [htarget.1, htarget.2]
  | call callee arguments =>
    refine .spanned (.map (.seqRight 1 rfl ((callLayout_lies callee arguments).mono ?_)))
    rintro start stop c - ⟨hc, hnested⟩ first rfl span hspan
    refine ⟨hspan, ?_, hc.stop_eq hspan, hnested⟩
    rw [hc.1, hspan.1]

/-- Pieces that are written as they are lie where their spans say. -/
theorem verbatim_lies (pieces : List String) :
    ∀ l ∈ pieces.map verbatim, l.Lies fun start stop span =>
      span.Reaches start stop ∧ True := by
  intro l hl
  obtain ⟨piece, -, rfl⟩ := List.mem_map.1 hl
  exact (Lies.verbatim piece).mono fun _ _ _ _ h => ⟨h.1, trivial⟩

namespace Class

theorem nameLayout_lies (c : Class) :
    c.nameLayout.Lies fun start stop name =>
      Span.InOrder start (name.toList.map (·.span)) stop := by
  rw [nameLayout]
  cases c.name with
  | none => exact .pure fun n => Nat.le_refl n
  | some text =>
    refine .seqRight 1 rfl (.map ((Draft.nameLayout_lies text).mono ?_))
    rintro start stop name hle hname first rfl
    exact (hname.inOrder hle).widen (Nat.le_add_right _ _) (Nat.le_refl _)

theorem typeParamsLayout_lies (c : Class) :
    c.typeParamsLayout.Lies fun start stop list =>
      Span.InOrder start (list.toList.map (·.span)) stop ∧ ∀ l ∈ list, l.Ordered (·) := by
  rw [typeParamsLayout]
  cases c.typeParams with
  | nil => exact .pure fun n => ⟨Nat.le_refl n, fun l hl => by cases hl⟩
  | cons param params =>
    have hitems : (write "<" *> joined ", " ((param :: params).map verbatim) <* write ">").Lies
        fun start stop xs => Span.InOrder start (xs.map (·)) stop ∧ ∀ x ∈ xs, True := by
      refine .seqLeft 1 rfl (.seqRight 1 rfl
        ((Lies.joined (verbatim_lies (param :: params))).mono ?_))
      rintro start stop xs - ⟨hxs, hD⟩ first rfl
      exact ⟨hxs.widen (Nat.le_add_right _ _) (Nat.le_add_right _ _), hD⟩
    refine .map ((Lies.delimited hitems).mono ?_)
    rintro start stop list hle ⟨hlist, hordered, -⟩
    refine ⟨hlist.inOrder hle, fun l hl => ?_⟩
    cases hl
    exact hordered

theorem heritageLayout_lies (c : Class) :
    c.heritageLayout.Lies fun start stop list =>
      Span.InOrder start (list.toList.map (·.span)) stop ∧
        ∀ l ∈ list, l.Ordered (·.span) := by
  rw [heritageLayout]
  cases c.heritage with
  | nil => exact .pure fun n => ⟨Nat.le_refl n, fun l hl => by cases hl⟩
  | cons clause clauses =>
    have hclauses : ∀ l ∈ (clause :: clauses).map clauseLayout,
        l.Lies fun start stop (x : HeritageClause) => x.span.Reaches start stop ∧ True := by
      intro l hl
      obtain ⟨x, -, rfl⟩ := List.mem_map.1 hl
      exact .map ((Lies.verbatim _).mono fun _ _ _ _ h => ⟨h.1, trivial⟩)
    refine .seqRight 1 rfl (.map ((Lies.delimited (.joined hclauses)).mono ?_))
    rintro start stop list hle ⟨hlist, hordered, -⟩ first rfl
    refine ⟨(hlist.inOrder hle).widen (Nat.le_add_right _ _) (Nat.le_refl _), fun l hl => ?_⟩
    cases hl
    exact hordered

theorem membersLayout_lies (c : Class) :
    c.membersLayout.Lies fun start stop list =>
      list.span.Reaches start stop ∧ list.Ordered (·) := by
  have hlist : c.membersLayout.Lies fun start stop list =>
      list.span.Reaches start stop ∧ list.Ordered (·) ∧ ∀ x ∈ list.items, True := by
    rw [membersLayout]
    cases c.members with
    | nil => exact .delimited (.pure fun n => ⟨Nat.le_refl n, fun _ _ => trivial⟩)
    | cons member members =>
      refine .delimited (.seqLeft 1 rfl ((Lies.each (verbatim_lies (member :: members))).mono ?_))
      rintro start stop xs - ⟨hxs, hD⟩
      exact ⟨hxs.widen (Nat.le_refl _) (Nat.le_add_right _ _), hD⟩
  exact hlist.mono fun _ _ _ _ h => ⟨h.1, h.2.1⟩

theorem layout_lies (id : ClassId) (c : Class) :
    (c.layout id).Lies fun start stop x => x.span.Reaches start stop ∧ x.Nested := by
  have hdecorators : ∀ l ∈ c.decorators.map Decorator.layout,
      l.Lies fun start stop x => x.span.Reaches start stop ∧ x.Nested := by
    intro l hl
    obtain ⟨d, -, rfl⟩ := List.mem_map.1 hl
    exact d.layout_lies
  have hmodifiers : ∀ l ∈ c.modifiers.map modifierLayout,
      l.Lies fun start stop (x : Modifier) => x.span.Reaches start stop ∧ True := by
    intro l hl
    obtain ⟨k, -, rfl⟩ := List.mem_map.1 hl
    exact .map ((Lies.verbatim _).mono fun _ _ _ _ h => ⟨h.1, trivial⟩)
  -- The parts are written from left to right, so the rules take them
  -- from right to left.
  refine .spanned (.seqLeft 1 rfl (c.membersLayout_lies.seq (.seqLeft 2 rfl ?_)))
  refine c.heritageLayout_lies.seq (c.typeParamsLayout_lies.seq ?_)
  refine c.nameLayout_lies.seq (.seqLeft 5 rfl ?_)
  refine (Lies.each hmodifiers).seq (.map ((Lies.each hdecorators).mono ?_))
  rintro start stop ds - ⟨hds, hnested⟩ afterModifiers ms ⟨hms, -⟩ afterName name hname
    afterParams params ⟨hparams, hparamItems⟩ afterHeritage heritage ⟨hheritage, hclauses⟩
    last members ⟨hmembers, hmemberItems⟩ span hspan
  have hmembersLe : afterHeritage + 2 ≤ last := by
    have hle := hmemberItems.le
    rwa [hmembers.1, hmembers.2] at hle
  have hbody : Span.InOrder afterHeritage [members.span] last :=
    (hmembers.inOrder hmembersLe).widen (Nat.le_add_right _ _) (Nat.le_refl _)
  have hheader := (hname.widen (Nat.le_add_right _ _) (Nat.le_refl _)).append
    (hparams.append (hheritage.append hbody))
  refine ⟨hspan, ?_⟩
  exact
    { parts := by
        rw [hspan.1, hmembers.2]
        exact hds.append (hms.append hheader)
      closing := by rw [hspan.2, hmembers.2]
      decorators := hnested
      typeParams := hparamItems
      heritage := hclauses
      members := hmemberItems }

end Class

theorem statementLayouts_lie (id : ClassId) (steps : List Statement) :
    ∀ l ∈ statementLayouts id steps, l.Lies fun start stop x =>
      x.span.Reaches start stop ∧ x.Nested := by
  intro l hl
  obtain ⟨piece, rfl⟩ | ⟨c, id, rfl⟩ := mem_statementLayouts hl
  · refine .map ((Lies.verbatim piece).mono fun _ _ _ _ h => ⟨h.1, fun c hc => ?_⟩)
    cases hc
  · refine .map ((c.layout_lies id).mono fun _ _ _ _ h => ⟨h.1, fun c hc => ?_⟩)
    cases hc
    exact ⟨rfl, h.2⟩

namespace File

/-- **The spans of a drafted file.** The tree that a file is built as has
its spans nested and in order. The statements fill the text from the first
byte to the last, but for one byte between any two. A class fills its
statement, and its parts, the items of its lists and the properties of its
literals are nested in it, each behind the one before it. -/
theorem build_nested (f : File) (hfits : f.text.utf8ByteSize ≤ Span.maxOffset) :
    ∃ s, f.build = .ok s ∧ f.Depicts s ∧
      Span.Consecutive 1 0 (s.statements.map (·.span)) s.text.utf8ByteSize ∧
      ∀ x ∈ s.statements, x.Nested := by
  have hlies : f.layout.Lies fun start stop xs =>
      xs.length = (statementLayouts f.firstId f.statements).length ∧
        Span.Consecutive 1 start (xs.map (·.span)) stop ∧ ∀ x ∈ xs, x.Nested :=
    .joinedConsecutive (statementLayouts_lie f.firstId f.statements)
  have hwhole := hlies 0 (by rwa [size, text_layout, Nat.zero_add])
  rw [Nat.zero_add] at hwhole
  exact ⟨f.source, f.build_eq_ok hfits, f.depicts_source hfits, hwhole.2⟩

theorem build_nested_panel :
    panelFile.text.utf8ByteSize ≤ Span.maxOffset ∧
    ∃ s, panelFile.build = .ok s ∧ s.statements.map (·.span) = [⟨0, 5⟩, ⟨6, 80⟩] ∧
      s.statements.map (fun x => x.declared.map (·.parts)) =
        [none, some [⟨6, 42⟩, ⟨43, 49⟩, ⟨56, 57⟩, ⟨57, 63⟩, ⟨64, 73⟩, ⟨75, 79⟩]] ∧
      Span.Consecutive 1 0 [⟨0, 5⟩, ⟨6, 80⟩] 80 ∧ ∀ x ∈ s.statements, x.Nested := by
  have hfits : panelFile.text.utf8ByteSize ≤ Span.maxOffset := by decide
  obtain ⟨s, hs, -, hconsecutive, hnested⟩ := build_nested panelFile hfits
  obtain rfl : panelFile.source = s :=
    Except.ok.inj ((panelFile.build_eq_ok hfits).symm.trans hs)
  have hspans : panelFile.source.statements.map (·.span) = [⟨0, 5⟩, ⟨6, 80⟩] := rfl
  rw [hspans] at hconsecutive
  exact ⟨hfits, _, hs, hspans, rfl, hconsecutive, hnested⟩

end File

end Draft

end HotSwap
