/-
HotSwap.Layout — text that knows where its pieces come to stand.

A `Layout α` is a piece of text and, for each offset at which the text may
start, the value that the text stands for there. Layouts are put one after
another with the applicative operators: texts are appended, and the value
on the right is placed behind the text on the left. So the text never
depends on the offset, and a value depends on nothing but its own offset.
-/
import HotSwap.Tree.Class

namespace HotSwap

/-- A text, and its value at each offset. -/
structure Layout (α : Type) where
  text : String
  place : Nat → α

namespace Layout

variable {α β : Type}

/-- How many bytes the text has. -/
def size (l : Layout α) : Nat := l.text.utf8ByteSize

instance : Applicative Layout where
  pure a := ⟨"", fun _ => a⟩
  map f l := ⟨l.text, fun n => f (l.place n)⟩
  seq f l := ⟨f.text ++ (l ()).text, fun n => f.place n ((l ()).place (n + f.size))⟩
  seqLeft l m := ⟨l.text ++ (m ()).text, l.place⟩
  seqRight l m := ⟨l.text ++ (m ()).text, fun n => (m ()).place (n + l.size)⟩

/-- Text that stands for nothing. -/
def write (text : String) : Layout Unit := ⟨text, fun _ => ()⟩

/-- A value that is told the span of its own text. -/
def spanned (l : Layout (Span → α)) : Layout α :=
  ⟨l.text, fun n => l.place n (.ofOffsets n (n + l.size))⟩

/-- Text that stands for its span. -/
def verbatim (text : String) : Layout Span :=
  ⟨text, fun n => .ofOffsets n (n + text.utf8ByteSize)⟩

/-- Items one after another, each between the same two texts. -/
def each (before after : String) : List (Layout α) → Layout (List α)
  | [] => pure []
  | item :: rest =>
    List.cons <$> (write before *> item <* write after) <*> each before after rest

/-- Items one after another, with a separator between two of them. -/
def joined (separator : String) : List (Layout α) → Layout (List α)
  | [] => pure []
  | item :: rest => List.cons <$> item <*> each separator "" rest

/-- A list together with its span. -/
def delimited (l : Layout (List α)) : Layout (Delimited α) :=
  spanned ((fun items span => ⟨span, items⟩) <$> l)

/-! ## Texts and values of composed layouts -/

@[simp] theorem text_pure (a : α) : (pure a : Layout α).text = "" := rfl

@[simp] theorem text_map (f : α → β) (l : Layout α) : (f <$> l).text = l.text := rfl

@[simp] theorem text_seq (f : Layout (α → β)) (l : Layout α) :
    (f <*> l).text = f.text ++ l.text := rfl

@[simp] theorem text_seqLeft (l : Layout α) (m : Layout β) :
    (l <* m).text = l.text ++ m.text := rfl

@[simp] theorem text_seqRight (l : Layout α) (m : Layout β) :
    (l *> m).text = l.text ++ m.text := rfl

@[simp] theorem text_write (s : String) : (write s).text = s := rfl

@[simp] theorem text_spanned (l : Layout (Span → α)) : (spanned l).text = l.text := rfl

@[simp] theorem text_verbatim (s : String) : (verbatim s).text = s := rfl

@[simp] theorem place_pure (a : α) (n : Nat) : (pure a : Layout α).place n = a := rfl

@[simp] theorem place_map (f : α → β) (l : Layout α) (n : Nat) :
    (f <$> l).place n = f (l.place n) := rfl

@[simp] theorem place_seq (f : Layout (α → β)) (l : Layout α) (n : Nat) :
    (f <*> l).place n = f.place n (l.place (n + f.size)) := rfl

@[simp] theorem place_seqLeft (l : Layout α) (m : Layout β) (n : Nat) :
    (l <* m).place n = l.place n := rfl

@[simp] theorem place_seqRight (l : Layout α) (m : Layout β) (n : Nat) :
    (l *> m).place n = m.place (n + l.size) := rfl

@[simp] theorem place_spanned (l : Layout (Span → α)) (n : Nat) :
    (spanned l).place n = l.place n (.ofOffsets n (n + l.size)) := rfl

@[simp] theorem place_verbatim (s : String) (n : Nat) :
    (verbatim s).place n = .ofOffsets n (n + s.utf8ByteSize) := rfl

end Layout

end HotSwap
