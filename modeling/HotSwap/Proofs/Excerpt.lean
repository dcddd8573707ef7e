/-
HotSwap.Proofs.Excerpt — which string a span covers, and what it is for a
source to be valid.

An excerpt covers a piece if the text is the piece between two others and
the span counts the bytes before it and in it (`Excerpt.Covers`). This is
the string that can be read under the span (`string?_eq_some_iff`), it
determines the bytes that are compared (`same_iff_of_covers`), and a span
has no fault exactly when it covers a piece (`fault?_eq_none_iff`).
-/
import HotSwap.Source

namespace HotSwap

namespace Excerpt

/-- The span of the excerpt covers the piece of the text. -/
def Covers (e : Excerpt) (piece : String) : Prop :=
  ∃ before after, e.text = before ++ piece ++ after ∧
    e.span.start.toNat = before.utf8ByteSize ∧
    e.span.stop.toNat = before.utf8ByteSize + piece.utf8ByteSize

/-! ## Strings under spans -/

theorem extract_append_append (before piece after : ByteArray) :
    (before ++ piece ++ after).extract before.size (before.size + piece.size) = piece := by
  have hskip := ByteArray.extract_append_size_add (a := before) (b := piece ++ after) (i := 0)
    (j := piece.size)
  rw [Nat.add_zero] at hskip
  rw [ByteArray.append_assoc, hskip, ByteArray.extract_append_eq_left rfl]

theorem string?_of_covers {e : Excerpt} {piece : String} (h : e.Covers piece) :
    e.string? = some piece := by
  obtain ⟨⟨text, span⟩, before, after, htext, hstart, hstop⟩ := e, h
  simp only at htext hstart hstop
  subst htext
  have hstartValid : (startPos ⟨before ++ piece ++ after, span⟩).IsValid
      (before ++ piece ++ after) := by
    rw [String.Pos.Raw.isValid_iff_exists_append]
    exact ⟨before, piece ++ after, String.append_assoc .., String.Pos.Raw.ext hstart⟩
  have hstopValid : (stopPos ⟨before ++ piece ++ after, span⟩).IsValid
      (before ++ piece ++ after) := by
    rw [String.Pos.Raw.isValid_iff_exists_append]
    refine ⟨before ++ piece, after, rfl, String.Pos.Raw.ext ?_⟩
    simpa [stopPos] using hstop
  have hle : span.start ≤ span.stop := by
    rw [UInt32.le_iff_toNat_le]
    omega
  rw [string?, dif_pos ⟨hle, hstartValid, hstopValid⟩, Option.some.injEq,
    ← String.toByteArray_inj]
  simp only [String.toByteArray_extract, String.offset_pos, startPos, stopPos, hstart, hstop,
    String.toByteArray_append]
  exact extract_append_append _ _ _

/-- A boundary of a text that does not lie behind a prefix is a boundary
of the prefix. -/
theorem isValid_of_isValid_append {head after : String} {p : String.Pos.Raw}
    (h : p.IsValid (head ++ after)) (hle : p ≤ head.rawEndPos) : p.IsValid head := by
  rcases String.Pos.Raw.isValid_append.1 h with hhead | ⟨hge, -⟩
  · exact hhead
  · rw [String.Pos.Raw.le_iff] at hle hge
    exact String.Pos.Raw.isValid_of_eq_rawEndPos (String.Pos.Raw.ext (by omega))

theorem covers_of_string? {e : Excerpt} {piece : String} (h : e.string? = some piece) :
    e.Covers piece := by
  have hvalid : e.span.start ≤ e.span.stop ∧ e.startPos.IsValid e.text ∧
      e.stopPos.IsValid e.text := by
    unfold string? at h
    split at h
    · assumption
    · simp at h
  obtain ⟨hle, hstart, hstop⟩ := hvalid
  rw [UInt32.le_iff_toNat_le] at hle
  obtain ⟨head, after, htext, hstopPos⟩ := String.Pos.Raw.isValid_iff_exists_append.1 hstop
  have hstopSize : e.span.stop.toNat = head.utf8ByteSize :=
    congrArg String.Pos.Raw.byteIdx hstopPos
  have hstartHead : e.startPos.IsValid head := by
    rw [htext] at hstart
    refine isValid_of_isValid_append hstart ?_
    rw [String.Pos.Raw.le_iff, String.byteIdx_rawEndPos, ← hstopSize]
    exact hle
  obtain ⟨before, inner, rfl, hstartPos⟩ :=
    String.Pos.Raw.isValid_iff_exists_append.1 hstartHead
  have hstartSize : e.span.start.toNat = before.utf8ByteSize :=
    congrArg String.Pos.Raw.byteIdx hstartPos
  have hcovers : e.Covers inner :=
    ⟨before, after, htext, hstartSize, by rw [hstopSize, String.utf8ByteSize_append]⟩
  rw [string?_of_covers hcovers, Option.some.injEq] at h
  exact h ▸ hcovers

/-- The string under a span is the piece that the span covers. -/
theorem string?_eq_some_iff (e : Excerpt) (piece : String) :
    e.string? = some piece ↔ e.Covers piece :=
  ⟨covers_of_string?, string?_of_covers⟩

theorem string?_isSome_iff (e : Excerpt) :
    e.string?.isSome = true ↔ e.span.start ≤ e.span.stop ∧ e.startPos.IsValid e.text ∧
      e.stopPos.IsValid e.text := by
  unfold string?
  split <;> simp_all

/-! ## Bytes under spans -/

theorem bytes?_of_covers {e : Excerpt} {piece : String} (h : e.Covers piece) :
    e.bytes? = some piece.toByteArray.data := by
  obtain ⟨before, after, htext, hstart, hstop⟩ := h
  have hwithin : e.Within := by
    refine ⟨?_, ?_⟩
    · rw [UInt32.le_iff_toNat_le]
      omega
    · rw [htext, hstop]
      simp only [String.utf8ByteSize_append]
      omega
  rw [bytes?, if_pos hwithin, htext, hstart, hstop, String.toByteArray_append,
    String.toByteArray_append]
  exact congrArg (fun b => some b.data) (extract_append_append _ _ _)

/-- Excerpts that cover pieces are the same exactly when the pieces
are. -/
theorem same_iff_of_covers {a b : Excerpt} {p q : String} (ha : a.Covers p) (hb : b.Covers q) :
    a.same b = true ↔ p = q := by
  rw [same_iff, bytes?_of_covers ha, bytes?_of_covers hb]
  constructor
  · intro h
    obtain ⟨bytes, hp, hq⟩ := h
    rw [← hq, Option.some.injEq] at hp
    exact String.toByteArray_inj.1 (ByteArray.ext hp)
  · rintro rfl
    exact ⟨_, rfl, rfl⟩

theorem sameOptional_iff_of_covers {a b : Option Excerpt} {p q : Option String}
    (ha : Option.Rel (fun piece e => e.Covers piece) p a)
    (hb : Option.Rel (fun piece e => e.Covers piece) q b) :
    sameOptional a b = true ↔ p = q := by
  cases ha with
  | none => cases hb <;> simp [sameOptional]
  | some ha =>
    cases hb with
    | none => simp [sameOptional]
    | some hb =>
      rw [Option.some.injEq]
      exact same_iff_of_covers ha hb

/-- Whether two excerpts are the same depends on their bytes only. -/
theorem same_congr {a a' b b' : Excerpt} (ha : a.bytes? = a'.bytes?)
    (hb : b.bytes? = b'.bytes?) : a.same b = a'.same b' := by
  rw [same, same, ha, hb]

theorem sameOptional_congr {a a' b b' : Option Excerpt} (ha : a.map bytes? = a'.map bytes?)
    (hb : b.map bytes? = b'.map bytes?) : sameOptional a b = sameOptional a' b' := by
  cases a with
  | none =>
    cases a' with
    | none => cases b <;> cases b' <;> simp_all [sameOptional]
    | some a' => simp at ha
  | some a =>
    cases a' with
    | none => simp at ha
    | some a' =>
      cases b with
      | none => cases b' <;> simp_all [sameOptional]
      | some b =>
        cases b' with
        | none => simp at hb
        | some b' => exact same_congr (Option.some.inj ha) (Option.some.inj hb)

/-! ## Faults -/

/-- A span has no fault exactly when it covers a piece of the text. -/
theorem fault?_eq_none_iff (e : Excerpt) : e.fault? = none ↔ ∃ piece, e.Covers piece := by
  simp only [← string?_eq_some_iff, ← Option.isSome_iff_exists, string?_isSome_iff]
  have hinverted : e.span.isInverted = true ↔ ¬ e.span.start ≤ e.span.stop := by
    rw [Span.isInverted_iff, UInt32.le_iff_toNat_le, Nat.not_le]
  unfold fault?
  split
  · rename_i h
    simp [hinverted.1 h]
  split
  · rename_i hout
    have hcut : ¬ e.stopPos.IsValid e.text := by
      intro hvalid
      have hle : e.span.stop.toNat ≤ e.text.utf8ByteSize :=
        String.Pos.Raw.le_iff.1 hvalid.le_rawEndPos
      omega
    simp [hcut]
  · rename_i hforwards _
    rw [hinverted, Decidable.not_not] at hforwards
    split
    · rename_i hvalid
      simp [hforwards, hvalid]
    · rename_i hvalid
      simp [hvalid]

end Excerpt

/-! ## Valid sources -/

namespace Source

/-- Every span of the tree covers a piece of the text. -/
def Valid (s : Source) : Prop := ∀ span ∈ s.spans, ∃ piece, (s.excerpt span).Covers piece

/-- A source is let through exactly when its text fits and each of its
spans covers a piece. -/
theorem validated_eq_ok_iff (s t : Source) :
    s.validated = .ok t ↔ t = s ∧ s.text.utf8ByteSize ≤ Span.maxOffset ∧ s.Valid := by
  have hfault : (s.spans.findSome? fun span => (s.excerpt span).fault?) = none ↔ s.Valid := by
    simp only [List.findSome?_eq_none_iff, Excerpt.fault?_eq_none_iff, Valid]
  rw [validated, defect?]
  by_cases hsize : s.text.utf8ByteSize > Span.maxOffset
  · have hlarge : ¬ s.text.utf8ByteSize ≤ Span.maxOffset := Nat.not_le.2 hsize
    simp [hsize, hlarge]
  · rw [if_neg hsize, ← hfault]
    cases hspans : s.spans.findSome? fun span => (s.excerpt span).fault? with
    | none =>
      simp only [Option.map_none, Except.ok.injEq, and_true]
      exact ⟨fun h => ⟨h.symm, Nat.not_lt.1 hsize⟩, fun h => h.1.symm⟩
    | some fault => simp

end Source

end HotSwap
