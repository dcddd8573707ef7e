/-
HotSwap.Span — half-open ranges of byte offsets into a source text.

A span is nothing but a pair of 32-bit offsets: it may run backwards or
past the end of the text it is read against, and every reader of a span
says what it does then. `Span.ofRange?` narrows a pair of unbounded
offsets and refuses the first that does not fit; `Span.ofOffsets` clamps
instead, for offsets that are known to fit or are checked later.
-/

namespace HotSwap

/-- The bytes from `start` up to, and without, `stop`. -/
structure Span where
  start : UInt32
  stop : UInt32
  deriving DecidableEq, Repr

namespace Span

instance : Inhabited Span := ⟨⟨0, 0⟩⟩

/-- The largest offset that a span can hold. -/
def maxOffset : Nat := UInt32.size - 1

/-- The span between two offsets, each clamped to `maxOffset`. -/
def ofOffsets (start stop : Nat) : Span :=
  ⟨.ofNatClamp start, .ofNatClamp stop⟩

/-- How many bytes lie in the span: none if it runs backwards. -/
def length (s : Span) : Nat := s.stop.toNat - s.start.toNat

/-- No byte lies in the span. -/
def isEmpty (s : Span) : Bool := s.stop ≤ s.start

/-- The span ends before it starts. -/
def isInverted (s : Span) : Bool := s.stop < s.start

/-- A span is written with two dots between its offsets, as in `4..9`. -/
instance : ToString Span :=
  ⟨fun s => toString s.start.toNat ++ ".." ++ toString s.stop.toNat⟩

/-! ## Narrowing a range -/

/-- Which end of a range does not fit into a span. -/
inductive RangeError where
  | startTooLarge (offset : Nat)
  | stopTooLarge (offset : Nat)
  deriving DecidableEq, Repr

/-- Narrow a range of offsets to a span. The start is looked at first. -/
def ofRange? (start stop : Nat) : Except RangeError Span :=
  if start > maxOffset then .error (.startTooLarge start)
  else if stop > maxOffset then .error (.stopTooLarge stop)
  else .ok (ofOffsets start stop)

/-- Upper-case hexadecimal digits, without padding. -/
def upperHex (n : Nat) : String :=
  String.ofList ((Nat.toDigits 16 n).map Char.toUpper)

namespace RangeError

/-- The sentence that reports an offset which is too large. -/
private def sentence (side : String) (offset : Nat) : String :=
  "span " ++ side ++ " " ++ toString offset ++ " (0x" ++ upperHex offset ++
    ") exceeds u32::MAX (0x" ++ upperHex maxOffset ++ ")"

/-- The sentence that reports which end of a range is too large. -/
def message : RangeError → String
  | startTooLarge offset => sentence "start" offset
  | stopTooLarge offset => sentence "end" offset

end RangeError

/-! ## Offsets as natural numbers -/

theorem isEmpty_iff (s : Span) : s.isEmpty = true ↔ s.stop.toNat ≤ s.start.toNat := by
  simp [isEmpty, UInt32.le_iff_toNat_le]

theorem isInverted_iff (s : Span) : s.isInverted = true ↔ s.stop.toNat < s.start.toNat := by
  simp [isInverted, UInt32.lt_iff_toNat_lt]

theorem toNat_ofNatClamp (n : Nat) : (UInt32.ofNatClamp n).toNat = min n maxOffset := by
  by_cases h : n < UInt32.size
  · rw [UInt32.toNat_ofNatClamp_of_lt h]
    exact (Nat.min_eq_left (Nat.le_pred_of_lt h)).symm
  · have hsize : UInt32.size ≤ n := Nat.not_lt.1 h
    rw [UInt32.toNat_ofNatClamp_of_le hsize]
    exact (Nat.min_eq_right (Nat.le_trans (Nat.pred_le _) hsize)).symm

/-- Offsets that fit are the ends of their span. -/
theorem start_ofOffsets {start : Nat} (h : start ≤ maxOffset) (stop : Nat) :
    (ofOffsets start stop).start.toNat = start :=
  (toNat_ofNatClamp start).trans (Nat.min_eq_left h)

theorem stop_ofOffsets (start : Nat) {stop : Nat} (h : stop ≤ maxOffset) :
    (ofOffsets start stop).stop.toNat = stop :=
  (toNat_ofNatClamp stop).trans (Nat.min_eq_left h)

/-- A span is empty exactly when its length is zero. -/
theorem length_eq_zero_iff (s : Span) : s.length = 0 ↔ s.isEmpty = true := by
  rw [isEmpty_iff, length]; omega

end Span

end HotSwap
