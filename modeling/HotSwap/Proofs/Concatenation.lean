/-
HotSwap.Proofs.Concatenation — a draft is built piece by piece.

What a layout stands for at one offset is what it stands for at another,
with all spans moved by the distance (`Layout.Moves`). There is a rule for
each way to put layouts together, and by them every part of a draft moves,
whatever text it writes and however deep its literals are. So two drafts
one after the other are built as the two on their own, the second behind
the text of the first and numbered on from its classes (`build_append`).
-/
import HotSwap.Proofs.Relocation

namespace HotSwap

theorem Span.moved_ofOffsets {start stop : Nat} (hstart : start ≤ maxOffset)
    (hstop : stop ≤ maxOffset) (n : Nat) :
    (ofOffsets start stop).moved n = ofOffsets (start + n) (stop + n) := by
  rw [moved, start_ofOffsets hstart, stop_ofOffsets _ hstop]

namespace Layout

variable {α β : Type}

/-- The layout's values at two offsets of a text that fits are related as
values are that lie the distance of the offsets apart. -/
def Moves (l : Layout α) (R : Nat → α → α → Prop) : Prop :=
  ∀ n d, n + d + l.size ≤ Span.maxOffset → R d (l.place n) (l.place (n + d))

/-! ## One rule for each way to put layouts together -/

theorem size_seq (f : Layout (α → β)) (l : Layout α) : (f <*> l).size = f.size + l.size :=
  String.utf8ByteSize_append ..

theorem size_seqLeft (l : Layout α) (m : Layout β) : (l <* m).size = l.size + m.size :=
  String.utf8ByteSize_append ..

theorem size_seqRight (l : Layout α) (m : Layout β) : (l *> m).size = l.size + m.size :=
  String.utf8ByteSize_append ..

theorem Moves.mono {l : Layout α} {R S : Nat → α → α → Prop} (h : l.Moves R)
    (himp : ∀ d a b, R d a b → S d a b) : l.Moves S := by
  intro n d hfits
  exact himp d _ _ (h n d hfits)

theorem Moves.pure {R : Nat → α → α → Prop} {a : α} (h : ∀ d, R d a a) :
    (pure a : Layout α).Moves R := by
  intro _ d _
  exact h d

theorem Moves.map {f : α → β} {l : Layout α} {R : Nat → β → β → Prop}
    (h : l.Moves fun d a b => R d (f a) (f b)) : (f <$> l).Moves R := by
  intro n d hfits
  exact h n d hfits

/-- The function on the left is told everything about the values on the
right. -/
theorem Moves.seq {f : Layout (α → β)} {l : Layout α} {R : Nat → β → β → Prop}
    {Q : Nat → α → α → Prop} (hl : l.Moves Q)
    (hf : f.Moves fun d g g' => ∀ a a', Q d a a' → R d (g a) (g' a')) :
    (f <*> l).Moves R := by
  intro n d hfits
  rw [size_seq] at hfits
  have hright := hl (n + f.size) d (by omega)
  rw [place_seq, place_seq, Nat.add_right_comm n d]
  exact hf n d (by omega) _ _ hright

theorem Moves.seqLeft {l : Layout α} {m : Layout β} {R : Nat → α → α → Prop}
    (h : l.Moves R) : (l <* m).Moves R := by
  intro n d hfits
  rw [size_seqLeft] at hfits
  exact h n d (by omega)

theorem Moves.seqRight {l : Layout α} {m : Layout β} {R : Nat → β → β → Prop}
    (h : m.Moves R) : (l *> m).Moves R := by
  intro n d hfits
  rw [size_seqRight] at hfits
  rw [place_seqRight, place_seqRight, Nat.add_right_comm n d]
  exact h (n + l.size) d (by omega)

/-- The span that a value is told moves with the value. -/
theorem Moves.spanned {l : Layout (Span → α)} {R : Nat → α → α → Prop}
    (h : l.Moves fun d g g' => ∀ span, R d (g span) (g' (span.moved d))) :
    (spanned l).Moves R := by
  intro n d hfits
  change n + d + l.size ≤ Span.maxOffset at hfits
  have hspan := @Span.moved_ofOffsets n (n + l.size) (by omega) (by omega) d
  rw [place_spanned, place_spanned, Nat.add_right_comm n d, ← hspan]
  exact h n d hfits _

theorem Moves.verbatim (piece : String) :
    (verbatim piece).Moves fun d span span' => span' = span.moved d := by
  intro n d hfits
  change n + d + piece.utf8ByteSize ≤ Span.maxOffset at hfits
  rw [place_verbatim, place_verbatim, Span.moved_ofOffsets (by omega) (by omega),
    Nat.add_right_comm n d]

/-! ## Lists -/

/-- A list moves item by item. -/
theorem Moves.each {before after : String} {move : Nat → α → α} {ls : List (Layout α)}
    (h : ∀ l ∈ ls, l.Moves fun d a b => b = move d a) :
    (each before after ls).Moves fun d as bs => bs = as.map (move d) := by
  induction ls with
  | nil => exact .pure fun _ => rfl
  | cons l ls ih =>
    refine (ih fun m hm => h m (List.mem_cons_of_mem _ hm)).seq (.map (.seqLeft (.seqRight ?_)))
    refine (h l List.mem_cons_self).mono ?_
    rintro d a _ rfl as _ rfl
    rfl

theorem Moves.joined {separator : String} {move : Nat → α → α} {ls : List (Layout α)}
    (h : ∀ l ∈ ls, l.Moves fun d a b => b = move d a) :
    (joined separator ls).Moves fun d as bs => bs = as.map (move d) := by
  cases ls with
  | nil => exact .pure fun _ => rfl
  | cons l ls =>
    refine (Moves.each fun m hm => h m (List.mem_cons_of_mem _ hm)).seq (.map ?_)
    refine (h l List.mem_cons_self).mono ?_
    rintro d a _ rfl as _ rfl
    rfl

theorem Moves.delimited {l : Layout (List α)} {move : Nat → α → α}
    (h : l.Moves fun d as bs => bs = as.map (move d)) :
    (delimited l).Moves fun d a b => b = a.mapSpans (.moved d) (move d) := by
  refine .spanned (.map (h.mono ?_))
  rintro d as _ rfl span
  rfl

theorem place_each_append (before after : String) (ls ms : List (Layout α)) (n : Nat) :
    (each before after (ls ++ ms)).place n =
      (each before after ls).place n ++
        (each before after ms).place (n + (each before after ls).size) := by
  induction ls generalizing n with
  | nil => rfl
  | cons l ls ih =>
    rw [List.cons_append, each, each, place_seq, place_seq, ih, size_seq, Nat.add_assoc]
    rfl

/-- A list in which every item has a separator before it is the joined list
behind one separator. -/
theorem place_each_separator (separator : String) (l : Layout α) (ls : List (Layout α))
    (n : Nat) :
    (each separator "" (l :: ls)).place n =
      (joined separator (l :: ls)).place (n + separator.utf8ByteSize) := by
  have hsize : (List.cons <$> (write separator *> l <* write "")).size =
      separator.utf8ByteSize + (List.cons <$> l).size := by
    change ((write separator *> l) <* write "").size = _
    rw [size_seqLeft, size_seqRight]
    rfl
  rw [each, joined, place_seq, place_seq, hsize, Nat.add_assoc]
  rfl

theorem size_each_separator (separator : String) (l : Layout α) (ls : List (Layout α)) :
    (each separator "" (l :: ls)).size =
      separator.utf8ByteSize + (joined separator (l :: ls)).size := by
  have htext : (each separator "" (l :: ls)).text =
      separator ++ (joined separator (l :: ls)).text := by
    simp [each, joined, String.append_assoc]
  rw [size, htext, String.utf8ByteSize_append]
  rfl

/-- Two lists that are joined one after the other have a separator between
them. -/
theorem place_joined_append (separator : String) {ls ms : List (Layout α)} (hls : ls ≠ [])
    (hms : ms ≠ []) (n : Nat) :
    (joined separator (ls ++ ms)).place n =
      (joined separator ls).place n ++
        (joined separator ms).place
          (n + ((joined separator ls).size + separator.utf8ByteSize)) := by
  obtain ⟨l, ls, rfl⟩ := List.exists_cons_of_ne_nil hls
  obtain ⟨m, ms, rfl⟩ := List.exists_cons_of_ne_nil hms
  rw [List.cons_append, joined, joined, place_seq, place_seq, place_each_append,
    place_each_separator, size_seq, ← Nat.add_assoc, ← Nat.add_assoc]
  rfl

end Layout

/-! ## Drafts -/

namespace Draft

open HotSwap.Layout

theorem nameLayout_moves (text : String) :
    (nameLayout text).Moves fun d a b => b = a.mapSpans (.moved d) := by
  refine .map ((Moves.verbatim text).mono ?_)
  rintro d span _ rfl
  rfl

theorem Key.layout_moves (k : Key) :
    k.layout.Moves fun d a b => b = a.mapSpans (.moved d) := by
  cases k with
  | identifier text =>
    refine .map ((nameLayout_moves text).mono ?_)
    rintro d name _ rfl
    rfl
  | quoted text =>
    refine .map (.map ((Moves.verbatim _).mono ?_))
    rintro d span _ rfl
    rfl
  | number text =>
    refine .map ((nameLayout_moves text).mono ?_)
    rintro d name _ rfl
    rfl
  | computed text =>
    refine .map ((Moves.verbatim _).mono ?_)
    rintro d span _ rfl
    rfl

theorem objectLayout_moves {depth : Nat} {ls : List (Layout HotSwap.Property)}
    (h : ∀ l ∈ ls, l.Moves fun d a b => b = a.mapSpans (.moved d)) :
    (objectLayout depth ls).Moves fun d a b => b = a.mapSpans (.moved d) := by
  have hobject : ∀ (d : Nat) (ps qs : List HotSwap.Property),
      qs = ps.map (·.mapSpans (.moved d)) → ∀ span : Span,
      HotSwap.Expr.object (span.moved d) qs =
        (HotSwap.Expr.object span ps).mapSpans (.moved d) := by
    rintro d ps _ rfl span
    rw [HotSwap.Expr.mapSpans, HotSwap.Property.mapSpansOfList_eq_map]
  refine .spanned (.map ?_)
  cases ls with
  | nil => exact .seqLeft (.pure fun d => hobject d [] [] rfl)
  | cons l ls => exact .seqLeft (.seqRight ((Moves.each h).mono hobject))

mutual
theorem Expr.layout_moves : ∀ (depth : Nat) (e : Expr),
    (e.layout depth).Moves fun d a b => b = a.mapSpans (.moved d)
  | _, .verbatim text => by
    refine .map ((Moves.verbatim text).mono ?_)
    rintro d span _ rfl
    rfl
  | depth, .object ps => objectLayout_moves (Property.layouts_move (depth + 1) ps)
theorem Property.layout_moves : ∀ (depth : Nat) (p : Property),
    (p.layout depth).Moves fun d a b => b = a.mapSpans (.moved d)
  | depth, .assign key value => by
    refine .spanned ((Expr.layout_moves depth value).seq (.seqLeft (.map ?_)))
    refine key.layout_moves.mono ?_
    rintro d k _ rfl v _ rfl span
    rfl
  | _, .shorthand name => by
    refine .spanned (.map ((nameLayout_moves name).mono ?_))
    rintro d n _ rfl span
    rfl
  | _, .spread text => by
    refine .spanned (.map (.seqRight ((Moves.verbatim text).mono ?_)))
    rintro d inner _ rfl span
    rfl
  | _, .method key body => by
    refine .spanned (.seqLeft (.map (key.layout_moves.mono ?_)))
    rintro d k _ rfl span
    rfl
theorem Property.layouts_move : ∀ (depth : Nat) (ps : List Property),
    ∀ l ∈ Property.layouts depth ps, l.Moves fun d a b => b = a.mapSpans (.moved d)
  | _, [], _, h => absurd h List.not_mem_nil
  | depth, p :: ps, l, h => by
    rcases List.mem_cons.1 h with rfl | h
    · exact Property.layout_moves depth p
    · exact Property.layouts_move depth ps l h
end

theorem Decorator.layout_moves (d : Decorator) :
    d.layout.Moves fun n a b => b = a.mapSpans (.moved n) := by
  cases d with
  | bare text =>
    refine .spanned (.map (.seqRight ((Moves.verbatim text).mono ?_)))
    rintro n target _ rfl span
    rfl
  | call callee arguments =>
    have harguments : ∀ l ∈ arguments.map (·.layout 0),
        l.Moves fun n a b => b = a.mapSpans (.moved n) := by
      intro l hl
      obtain ⟨e, -, rfl⟩ := List.mem_map.1 hl
      exact e.layout_moves 0
    have hcall : (callLayout callee arguments).Moves
        fun n a b => b = a.mapSpans (.moved n) := by
      refine .spanned (.seqLeft ((Moves.delimited (.joined harguments)).seq (.seqLeft (.map ?_))))
      refine (Moves.verbatim callee).mono ?_
      rintro n c _ rfl args _ rfl span
      rfl
    refine .spanned (.map (.seqRight (hcall.mono ?_)))
    rintro n c _ rfl span
    rfl

/-- Pieces that are written as they are move as spans. -/
theorem verbatim_moves (pieces : List String) :
    ∀ l ∈ pieces.map verbatim, l.Moves fun d a b => b = Span.moved d a := by
  intro l hl
  obtain ⟨piece, -, rfl⟩ := List.mem_map.1 hl
  exact .verbatim piece

namespace Class

theorem nameLayout_moves (c : Class) :
    c.nameLayout.Moves fun d a b => b = a.map (·.mapSpans (.moved d)) := by
  rw [nameLayout]
  cases c.name with
  | none => exact .pure fun _ => rfl
  | some text =>
    refine .seqRight (.map ((Draft.nameLayout_moves text).mono ?_))
    rintro d name _ rfl
    rfl

theorem typeParamsLayout_moves (c : Class) :
    c.typeParamsLayout.Moves fun d a b => b = a.map (·.mapSpans (.moved d) (.moved d)) := by
  rw [typeParamsLayout]
  cases c.typeParams with
  | nil => exact .pure fun _ => rfl
  | cons param params =>
    refine .map ((Moves.delimited (.seqLeft (.seqRight
      (.joined (verbatim_moves (param :: params)))))).mono ?_)
    rintro d list _ rfl
    rfl

theorem heritageLayout_moves (c : Class) :
    c.heritageLayout.Moves fun d a b =>
      b = a.map (·.mapSpans (.moved d) fun h => ⟨h.kind, h.span.moved d⟩) := by
  rw [heritageLayout]
  cases c.heritage with
  | nil => exact .pure fun _ => rfl
  | cons clause clauses =>
    have hclauses : ∀ l ∈ (clause :: clauses).map clauseLayout,
        l.Moves fun d (a b : HeritageClause) => b = ⟨a.kind, a.span.moved d⟩ := by
      intro l hl
      obtain ⟨x, -, rfl⟩ := List.mem_map.1 hl
      refine .map ((Moves.verbatim _).mono ?_)
      rintro d span _ rfl
      rfl
    refine .seqRight (.map ((Moves.delimited (.joined hclauses)).mono ?_))
    rintro d list _ rfl
    rfl

theorem membersLayout_moves (c : Class) :
    c.membersLayout.Moves fun d a b => b = a.mapSpans (.moved d) (.moved d) := by
  rw [membersLayout]
  cases c.members with
  | nil => exact .delimited (.pure fun _ => rfl)
  | cons member members =>
    exact .delimited (.seqLeft (.each (verbatim_moves (member :: members))))

theorem layout_moves (id : ClassId) (c : Class) :
    (c.layout id).Moves fun d a b => b = a.mapSpans (.moved d) := by
  have hdecorators : ∀ l ∈ c.decorators.map Decorator.layout,
      l.Moves fun d a b => b = a.mapSpans (.moved d) := by
    intro l hl
    obtain ⟨d, -, rfl⟩ := List.mem_map.1 hl
    exact d.layout_moves
  have hmodifiers : ∀ l ∈ c.modifiers.map modifierLayout,
      l.Moves fun d (a b : Modifier) => b = ⟨a.keyword, a.span.moved d⟩ := by
    intro l hl
    obtain ⟨k, -, rfl⟩ := List.mem_map.1 hl
    refine .map ((Moves.verbatim _).mono ?_)
    rintro d span _ rfl
    rfl
  -- The parts are written from left to right, so the rules take them
  -- from right to left.
  refine .spanned (.seqLeft (c.membersLayout_moves.seq (.seqLeft ?_)))
  refine c.heritageLayout_moves.seq (c.typeParamsLayout_moves.seq ?_)
  refine c.nameLayout_moves.seq (.seqLeft ?_)
  refine (Moves.each hmodifiers).seq (.map ((Moves.each hdecorators).mono ?_))
  rintro d ds _ rfl ms _ rfl name _ rfl params _ rfl heritage _ rfl members _ rfl span
  rfl

end Class

/-- The layouts of some steps are layouts of pieces and of classes. -/
theorem mem_statementLayouts {id : ClassId} {steps : List Statement}
    {l : Layout HotSwap.Statement} (h : l ∈ statementLayouts id steps) :
    (∃ piece, l = (⟨·, none⟩) <$> verbatim piece) ∨
      ∃ (c : Class) (id : ClassId), l = (fun c => ⟨c.span, some c⟩) <$> c.layout id := by
  induction steps generalizing id with
  | nil => exact absurd h List.not_mem_nil
  | cons step steps ih =>
    cases step with
    | verbatim piece =>
      rcases List.mem_cons.1 h with rfl | h
      · exact .inl ⟨piece, rfl⟩
      · exact ih h
    | declare c =>
      rcases List.mem_cons.1 h with rfl | h
      · exact .inr ⟨c, id, rfl⟩
      · exact ih h

theorem statementLayouts_move (id : ClassId) (steps : List Statement) :
    ∀ l ∈ statementLayouts id steps, l.Moves fun d a b => b = a.mapSpans (.moved d) := by
  intro l hl
  obtain ⟨piece, rfl⟩ | ⟨c, id, rfl⟩ := mem_statementLayouts hl
  · refine .map ((Moves.verbatim piece).mono ?_)
    rintro d span _ rfl
    rfl
  · refine .map ((c.layout_moves id).mono ?_)
    rintro d placed _ rfl
    rfl

/-! ## Two drafts, one after the other -/

/-- How many ids some steps use up. -/
def idsUsed (steps : List Statement) : Nat := (steps.filterMap (·.class?)).length

theorem statementLayouts_append (id : ClassId) (a b : List Statement) :
    statementLayouts id (a ++ b) =
      statementLayouts id a ++ statementLayouts (id.after (idsUsed a)) b := by
  induction a generalizing id with
  | nil => simp [statementLayouts, idsUsed, id.after_zero]
  | cons step a ih =>
    cases step with
    | verbatim piece => rw [List.cons_append, statementLayouts, statementLayouts, ih]; rfl
    | declare c =>
      rw [List.cons_append, statementLayouts, statementLayouts, ih, id.after_next]
      rfl

theorem statementLayouts_ne_nil (id : ClassId) {steps : List Statement} (h : steps ≠ []) :
    statementLayouts id steps ≠ [] := by
  cases steps with
  | nil => exact absurd rfl h
  | cons step steps => cases step <;> exact List.cons_ne_nil _ _

namespace File

theorem text_source (f : File) : f.source.text = f.text := f.text_layout

theorem text_singleton (path : String) (id : ClassId) (step : Statement) :
    (File.mk path id [step]).text = step.text := by
  rw [text, List.map_singleton, String.intercalate_singleton]

theorem text_append (path : String) (id id' : ClassId) {a b : List Statement} (ha : a ≠ [])
    (hb : b ≠ []) :
    (File.mk path id (a ++ b)).text =
      (File.mk path id a).text ++ "\n" ++ (File.mk path id' b).text := by
  have hmap : ∀ steps : List Statement, steps ≠ [] → steps.map (·.text) ≠ [] :=
    fun steps h => List.map_eq_nil_iff.not.2 h
  rw [text, text, text, List.map_append,
    String.intercalate_append_of_ne_nil (hmap a ha) (hmap b hb)]

/-- A file that is built from a later offset has its statements moved. -/
theorem place_layout (f : File) {n : Nat} (hfits : n + f.text.utf8ByteSize ≤ Span.maxOffset) :
    f.layout.place n = f.source.statements.map (·.mapSpans (.moved n)) := by
  have hmoves : f.layout.Moves fun d as bs => bs = as.map (·.mapSpans (.moved d)) :=
    .joined (statementLayouts_move f.firstId f.statements)
  have hmoved := hmoves 0 n (by rwa [size, text_layout, Nat.zero_add])
  rwa [Nat.zero_add] at hmoved

theorem statements_source_append (path : String) (id : ClassId) {a b : List Statement}
    (ha : a ≠ []) (hb : b ≠ []) :
    (File.mk path id (a ++ b)).source.statements =
      (File.mk path id a).source.statements ++
        (File.mk path (id.after (idsUsed a)) b).layout.place
          ((File.mk path id a).text.utf8ByteSize + 1) := by
  have hplace := place_joined_append "\n" (statementLayouts_ne_nil id ha)
    (statementLayouts_ne_nil (id.after (idsUsed a)) hb) 0
  have hsize : (joined "\n" (statementLayouts id a)).size =
      (File.mk path id a).text.utf8ByteSize :=
    congrArg String.utf8ByteSize (text_layout (File.mk path id a))
  rw [← statementLayouts_append, Nat.zero_add, hsize] at hplace
  exact hplace

/-- **Drafts are built one after the other.** Two drafts that are put
together are built as each is on its own: the text of the second follows
that of the first behind one line end, its classes are numbered on, and
its tree is moved by the bytes before it. So a file is the texts of its
steps with one line end between any two, also where a step has no text or
has line ends of its own. -/
theorem build_append (path : String) (id : ClassId) (a b : List Statement) (ha : a ≠ [])
    (hb : b ≠ []) (hfits : (File.mk path id (a ++ b)).text.utf8ByteSize ≤ Span.maxOffset) :
    ∃ front back whole,
      (File.mk path id a).build = .ok front ∧
      (File.mk path (id.after (idsUsed a)) b).build = .ok back ∧
      (File.mk path id (a ++ b)).build = .ok whole ∧
      whole.text = front.text ++ "\n" ++ back.text ∧
      whole.statements = front.statements ++
        back.statements.map (·.mapSpans (.moved (front.text.utf8ByteSize + 1))) ∧
      whole.text =
        "\n".intercalate ((a ++ b).map fun step => (File.mk path id [step]).source.text) := by
  have happend := text_append path id (id.after (idsUsed a)) ha hb
  have hsizes := congrArg String.utf8ByteSize happend
  rw [String.utf8ByteSize_append, String.utf8ByteSize_append,
    show "\n".utf8ByteSize = 1 from rfl] at hsizes
  refine ⟨_, _, _, build_eq_ok _ (by omega), build_eq_ok _ (by omega), build_eq_ok _ hfits,
    ?_, ?_, ?_⟩
  · rw [text_source, text_source, text_source, happend]
  · rw [statements_source_append path id ha hb, place_layout _ (by omega), text_source]
  · simp only [text_source, text_singleton]
    rfl

/-- A step without text, and a class. -/
def headSteps : List Statement := [.verbatim "", .declare { name := some "A" }]

/-- A class, and a step with a line end of its own. -/
def tailSteps : List Statement :=
  [.declare { name := some "B", typeParams := ["T"] }, .verbatim "é\n"]

theorem build_append_tailSteps :
    headSteps ≠ [] ∧ tailSteps ≠ [] ∧
    (File.mk "a.ts" ⟨4294967295⟩ (headSteps ++ tailSteps)).text.utf8ByteSize ≤ Span.maxOffset ∧
    ∃ front back whole,
      (File.mk "a.ts" ⟨4294967295⟩ headSteps).build = .ok front ∧
      (File.mk "a.ts" ⟨4294967295⟩ tailSteps).build = .ok back ∧
      (File.mk "a.ts" ⟨4294967295⟩ (headSteps ++ tailSteps)).build = .ok whole ∧
      whole.text = "\nclass A \x7b\x7d\nclass B<T> \x7b\x7d\né\n" ∧
      whole.statements =
        front.statements ++ back.statements.map (·.mapSpans (.moved 12)) := by
  have hhead : headSteps ≠ [] := List.cons_ne_nil _ _
  have htail : tailSteps ≠ [] := List.cons_ne_nil _ _
  have hfits : (File.mk "a.ts" ⟨4294967295⟩ (headSteps ++ tailSteps)).text.utf8ByteSize ≤
      Span.maxOffset := by decide
  -- The ids have run out, so the second draft goes on with the last one.
  have hid : ClassId.after ⟨4294967295⟩ (idsUsed headSteps) = ⟨4294967295⟩ := by decide
  obtain ⟨front, back, whole, hfront, hback, hwhole, -, hstatements, htext⟩ :=
    build_append "a.ts" ⟨4294967295⟩ headSteps tailSteps hhead htail hfits
  rw [hid] at hback
  have hfrontText : front.text.utf8ByteSize + 1 = 12 := by
    have hsource : front = (File.mk "a.ts" ⟨4294967295⟩ headSteps).source := by
      rw [build_eq_ok _ (by decide)] at hfront
      exact (Except.ok.inj hfront).symm
    rw [hsource]
    decide
  rw [hfrontText] at hstatements
  exact ⟨hhead, htail, hfits, front, back, whole, hfront, hback, hwhole, htext, hstatements⟩

end File

end Draft

end HotSwap
