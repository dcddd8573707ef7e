/-
HotSwap.Excerpt — a span together with the text it is read against.

Excerpts answer three questions, and each deals with a span that does not
fit its text in its own way.

  * Equality of bytes (`Excerpt.same`): two excerpts are the same if both
    lie within their texts and cover equal bytes. It never looks at
    character boundaries, and an excerpt outside its text is the same as
    nothing, not even as itself.
  * The string under the span (`Excerpt.string?`), which exists only
    where both ends fall on character boundaries.
  * What is wrong with the span (`Excerpt.fault?`), for a tree that
    claims to describe a text.
-/
import HotSwap.Span

namespace HotSwap

/-- A span and the text whose bytes it counts. -/
structure Excerpt where
  text : String
  span : Span
  deriving DecidableEq, Repr

namespace Excerpt

/-! ## Bytes -/

/-- The span runs forwards and ends within the text. -/
def Within (e : Excerpt) : Prop :=
  e.span.start ≤ e.span.stop ∧ e.span.stop.toNat ≤ e.text.utf8ByteSize

instance (e : Excerpt) : Decidable e.Within :=
  inferInstanceAs (Decidable (_ ∧ _))

/-- The bytes under the span, if it lies within the text. -/
def bytes? (e : Excerpt) : Option (Array UInt8) :=
  if e.Within then
    some (e.text.toByteArray.extract e.span.start.toNat e.span.stop.toNat).data
  else none

/-- Both excerpts lie within their texts and cover equal bytes. -/
def same (a b : Excerpt) : Bool :=
  match a.bytes?, b.bytes? with
  | some x, some y => decide (x = y)
  | _, _ => false

/-- The optional form of `same`: an absent excerpt equals only an absent
one. -/
def sameOptional : Option Excerpt → Option Excerpt → Bool
  | some a, some b => a.same b
  | none, none => true
  | _, _ => false

/-- Two excerpts are the same exactly when there are bytes that both
cover. -/
theorem same_iff (a b : Excerpt) :
    a.same b = true ↔ ∃ bytes, a.bytes? = some bytes ∧ b.bytes? = some bytes := by
  unfold same
  split
  · rename_i x y hx hy
    rw [decide_eq_true_iff, hx, hy]
    exact ⟨fun h => ⟨x, rfl, h ▸ rfl⟩, fun ⟨_, ha, hb⟩ =>
      (Option.some.inj ha).trans (Option.some.inj hb).symm⟩
  · rename_i h
    simp only [Bool.false_eq_true, false_iff, not_exists, not_and]
    intro bytes ha hb
    exact h bytes bytes ha hb

theorem same_comm (a b : Excerpt) : a.same b = b.same a := by
  rw [Bool.eq_iff_iff, same_iff, same_iff]
  exact ⟨fun ⟨x, ha, hb⟩ => ⟨x, hb, ha⟩, fun ⟨x, hb, ha⟩ => ⟨x, ha, hb⟩⟩

theorem same_trans {a b c : Excerpt} (hab : a.same b = true) (hbc : b.same c = true) :
    a.same c = true := by
  obtain ⟨x, ha, hb⟩ := (same_iff a b).1 hab
  obtain ⟨y, hb', hc⟩ := (same_iff b c).1 hbc
  exact (same_iff a c).2 ⟨x, ha, by rw [hc, ← hb', hb]⟩

theorem sameOptional_comm (a b : Option Excerpt) : sameOptional a b = sameOptional b a := by
  cases a with
  | none => cases b <;> rfl
  | some a =>
    cases b with
    | none => rfl
    | some b => exact same_comm a b

theorem sameOptional_trans {a b c : Option Excerpt} (hab : sameOptional a b = true)
    (hbc : sameOptional b c = true) : sameOptional a c = true := by
  cases a with
  | none => cases b <;> cases c <;> simp_all [sameOptional]
  | some a =>
    cases b with
    | none => simp [sameOptional] at hab
    | some b =>
      cases c with
      | none => simp [sameOptional] at hbc
      | some c => exact same_trans hab hbc

/-! ## Characters -/

/-- Where the excerpt starts, as a position that may cut a character. -/
def startPos (e : Excerpt) : String.Pos.Raw := ⟨e.span.start.toNat⟩

/-- Where the excerpt stops, as a position that may cut a character. -/
def stopPos (e : Excerpt) : String.Pos.Raw := ⟨e.span.stop.toNat⟩

/-- The string under the span, if it runs forwards between two character
boundaries of the text. -/
def string? (e : Excerpt) : Option String :=
  if h : e.span.start ≤ e.span.stop ∧ e.startPos.IsValid e.text ∧ e.stopPos.IsValid e.text then
    some (e.text.extract (e.text.pos e.startPos h.2.1) (e.text.pos e.stopPos h.2.2))
  else none

/-! ## Faults -/

/-- Why a span does not describe a piece of its text. -/
inductive Fault where
  /-- The span ends before it starts. -/
  | inverted (span : Span)
  /-- The span ends beyond a text of `size` bytes. -/
  | outOfBounds (span : Span) (size : Nat)
  /-- One of the span's ends cuts a character. -/
  | cutsCharacter (span : Span)
  deriving DecidableEq, Repr

/-- What is wrong with the excerpt's span, if anything is. A backward
span is reported before one that is out of bounds, and that before a cut
character. -/
def fault? (e : Excerpt) : Option Fault :=
  if e.span.isInverted then some (.inverted e.span)
  else if e.span.stop.toNat > e.text.utf8ByteSize then
    some (.outOfBounds e.span e.text.utf8ByteSize)
  else if e.startPos.IsValid e.text ∧ e.stopPos.IsValid e.text then none
  else some (.cutsCharacter e.span)

/-- The sentence that reports a fault. -/
def Fault.message : Fault → String
  | inverted span => "span " ++ toString span ++ " ends before it starts"
  | outOfBounds span size =>
    "span " ++ toString span ++ " is outside the " ++ toString size ++ "-byte source text"
  | cutsCharacter span =>
    "span " ++ toString span ++ " does not fall on a character boundary"

end Excerpt

end HotSwap
