/-
HotSwap.Proofs.Layout — what the value of a layout says about the text
that it stands in.

`Layout.Yields text l P` says that the value of `l` satisfies `P` wherever
the layout's text stands in `text`. There is a rule for each way to put
layouts together, so a property of a whole tree is proved from what its
spans cover, node by node. The rules carry no offsets: an offset occurs
only in `Stands`, which splits along with the text.
-/
import Mathlib.Data.List.Forall2
import HotSwap.Layout
import HotSwap.Proofs.Excerpt

namespace HotSwap

/-! ## Pieces at offsets -/

/-- The piece stands in the text, behind as many bytes as the offset
says. -/
def Stands (text : String) (offset : Nat) (piece : String) : Prop :=
  ∃ before after, text = before ++ piece ++ after ∧ before.utf8ByteSize = offset

theorem stands_self (text : String) : Stands text 0 text :=
  ⟨"", "", by rw [String.empty_append, String.append_empty], rfl⟩

namespace Stands

variable {text : String} {n : Nat}

theorem left {a b : String} (h : Stands text n (a ++ b)) : Stands text n a := by
  obtain ⟨before, after, rfl, hn⟩ := h
  exact ⟨before, b ++ after, by simp only [String.append_assoc], hn⟩

theorem right {a b : String} (h : Stands text n (a ++ b)) :
    Stands text (n + a.utf8ByteSize) b := by
  obtain ⟨before, after, rfl, rfl⟩ := h
  exact ⟨before ++ a, after, by simp only [String.append_assoc], String.utf8ByteSize_append ..⟩

/-- A piece of a text that fits is covered by the span of its offsets. -/
theorem covers {piece : String} (hfits : text.utf8ByteSize ≤ Span.maxOffset)
    (h : Stands text n piece) :
    Excerpt.Covers ⟨text, .ofOffsets n (n + piece.utf8ByteSize)⟩ piece := by
  obtain ⟨before, after, rfl, rfl⟩ := h
  simp only [String.utf8ByteSize_append] at hfits
  exact ⟨before, after, rfl, Span.start_ofOffsets (by omega) _, Span.stop_ofOffsets _ (by omega)⟩

end Stands

namespace Layout

variable {α β δ : Type} {text : String}

/-- Wherever the layout's text stands in a text that fits, the layout's
value has the property. -/
def Yields (text : String) (l : Layout α) (P : α → Prop) : Prop :=
  text.utf8ByteSize ≤ Span.maxOffset → ∀ n, Stands text n l.text → P (l.place n)

/-- A whole text has the value that the layout has at offset zero. -/
theorem Yields.whole {l : Layout α} {P : α → Prop} (h : l.Yields l.text P)
    (hfits : l.text.utf8ByteSize ≤ Span.maxOffset) : P (l.place 0) :=
  h hfits 0 (stands_self l.text)

/-! ## One rule for each way to put layouts together -/

theorem Yields.mono {l : Layout α} {P Q : α → Prop} (h : l.Yields text P)
    (himp : ∀ a, P a → Q a) : l.Yields text Q := by
  intro hfits n hstands
  exact himp _ (h hfits n hstands)

theorem Yields.pure {P : α → Prop} {a : α} (h : P a) : (pure a : Layout α).Yields text P := by
  intro _ _ _
  exact h

theorem Yields.map {f : α → β} {l : Layout α} {P : β → Prop}
    (h : l.Yields text fun a => P (f a)) : (f <$> l).Yields text P := by
  intro hfits n hstands
  exact h hfits n hstands

/-- The function on the left is told everything about the value on the
right. -/
theorem Yields.seq {f : Layout (α → β)} {l : Layout α} {P : β → Prop} {Q : α → Prop}
    (hl : l.Yields text Q) (hf : f.Yields text fun g => ∀ a, Q a → P (g a)) :
    (f <*> l).Yields text P := by
  intro hfits n hstands
  rw [text_seq] at hstands
  exact hf hfits n hstands.left _ (hl hfits _ hstands.right)

theorem Yields.seqLeft {l : Layout α} {m : Layout β} {P : α → Prop} (h : l.Yields text P) :
    (l <* m).Yields text P := by
  intro hfits n hstands
  rw [text_seqLeft] at hstands
  exact h hfits n hstands.left

theorem Yields.seqRight {l : Layout α} {m : Layout β} {P : β → Prop} (h : m.Yields text P) :
    (l *> m).Yields text P := by
  intro hfits n hstands
  rw [text_seqRight] at hstands
  exact h hfits _ hstands.right

/-- The span that a value is told covers the value's own text. -/
theorem Yields.spanned {l : Layout (Span → α)} {P : α → Prop} {piece : String}
    (hpiece : (spanned l).text = piece)
    (h : l.Yields text fun g => ∀ span, Excerpt.Covers ⟨text, span⟩ piece → P (g span)) :
    (spanned l).Yields text P := by
  subst hpiece
  intro hfits n hstands
  rw [text_spanned] at hstands
  exact h hfits n hstands _ (hstands.covers hfits)

theorem Yields.verbatim (piece : String) :
    (verbatim piece).Yields text fun span => Excerpt.Covers ⟨text, span⟩ piece := by
  intro hfits n hstands
  exact Stands.covers hfits hstands

/-! ## Lists -/

/-- The items of a list have the properties that they have one by one. -/
theorem Yields.each {before after : String} {D : δ → α → Prop} {ds : List δ}
    {ls : List (Layout α)} (h : List.Forall₂ (fun d l => l.Yields text (D d)) ds ls) :
    (each before after ls).Yields text (List.Forall₂ D ds) := by
  induction h with
  | nil => exact .pure .nil
  | cons hfirst _ ih =>
    refine ih.seq (.map (.seqLeft (.seqRight ?_)))
    exact hfirst.mono fun a ha as has => .cons ha has

theorem Yields.joined {separator : String} {D : δ → α → Prop} {ds : List δ}
    {ls : List (Layout α)} (h : List.Forall₂ (fun d l => l.Yields text (D d)) ds ls) :
    (joined separator ls).Yields text (List.Forall₂ D ds) := by
  cases h with
  | nil => exact .pure .nil
  | cons hfirst hrest =>
    refine (Yields.each hrest).seq (.map ?_)
    exact hfirst.mono fun a ha as has => .cons ha has

/-- A list's own span covers the text of the whole list. -/
theorem Yields.delimited {l : Layout (List α)} {P : List α → Prop} {piece : String}
    (hpiece : l.text = piece) (h : l.Yields text P) :
    (delimited l).Yields text fun list =>
      Excerpt.Covers ⟨text, list.span⟩ piece ∧ P list.items := by
  refine .spanned hpiece (.map ?_)
  exact h.mono fun items hitems span hspan => ⟨hspan, hitems⟩

/-! ## Texts of lists -/

theorem text_each (before after : String) (ls : List (Layout α)) :
    (each before after ls).text = .join (ls.map fun l => before ++ l.text ++ after) := by
  induction ls with
  | nil => rw [each, text_pure, List.map_nil, String.join_nil]
  | cons l ls ih =>
    rw [each, text_seq, text_map, text_seqLeft, text_seqRight, text_write, text_write, ih,
      List.map_cons, String.join_cons]

theorem text_joined (separator : String) (ls : List (Layout α)) :
    (joined separator ls).text = separator.intercalate (ls.map (·.text)) := by
  cases ls with
  | nil => rw [joined, text_pure, List.map_nil, String.intercalate_nil]
  | cons l ls =>
    rw [joined, text_seq, text_map, text_each, List.map_cons]
    induction ls generalizing l with
    | nil => simp
    | cons m ls ih =>
      simp only [List.map_cons, String.join_cons, String.intercalate_cons_cons,
        String.append_empty, ← ih m, String.append_assoc]

@[simp] theorem text_delimited (l : Layout (List α)) : (delimited l).text = l.text := rfl

end Layout

end HotSwap
