/-
HotSwap.Proofs.SameBytes — when two excerpts are the same, byte for byte
and string for string.

Excerpts are compared as bytes, and everything else reads them as strings.
The two agree: a span that covers the same bytes as a piece of another
text starts and stops between characters, unless there are no bytes at all
(`covers_of_same`). The bytes of the piece say where its characters end,
wherever they stand. So only an empty span can be the same as a piece and
yet cut a character (`isEmpty_of_same`).
-/
import HotSwap.Proofs.Excerpt

namespace HotSwap

namespace Excerpt

/-! ## Byte for byte -/

/-- The byte at an offset, counted from the start of the span. -/
def byteAt? (e : Excerpt) (i : Nat) : Option UInt8 :=
  e.text.toByteArray.data[e.span.start.toNat + i]?

/-- The bytes under the span. -/
def bytes (e : Excerpt) : ByteArray :=
  e.text.toByteArray.extract e.span.start.toNat e.span.stop.toNat

theorem bytes?_eq_some_iff (e : Excerpt) (data : Array UInt8) :
    e.bytes? = some data ↔ e.Within ∧ e.bytes.data = data := by
  unfold bytes? bytes
  split <;> simp_all

theorem same_iff_within (a b : Excerpt) :
    a.same b = true ↔ a.Within ∧ b.Within ∧ a.bytes = b.bytes := by
  simp only [same_iff, bytes?_eq_some_iff]
  constructor
  · intro h
    obtain ⟨bytes, ⟨ha, habytes⟩, hb, hbbytes⟩ := h
    exact ⟨ha, hb, ByteArray.ext (habytes.trans hbbytes.symm)⟩
  · intro h
    obtain ⟨ha, hb, hbytes⟩ := h
    exact ⟨a.bytes.data, ⟨ha, rfl⟩, hb, by rw [hbytes]⟩

theorem size_bytes {e : Excerpt} (h : e.Within) : e.bytes.size = e.span.length := by
  have hstop : e.span.stop.toNat ≤ e.text.toByteArray.size := h.2
  rw [bytes, ByteArray.size_extract, Nat.min_eq_left hstop, Span.length]

theorem getElem?_bytes {e : Excerpt} (h : e.Within) {i : Nat} (hi : i < e.span.length) :
    e.bytes.data[i]? = e.byteAt? i := by
  have hstop : e.span.stop.toNat ≤ e.text.toByteArray.data.size := h.2
  unfold Span.length at hi
  have hlt : e.span.start.toNat + i < e.span.stop.toNat := by omega
  rw [bytes, byteAt?, ByteArray.data_extract, Array.getElem?_extract]
  rw [if_pos]
  omega

/-- The bytes are equal exactly when the spans are equally long and have
the same byte at each offset. -/
theorem bytes_eq_iff {a b : Excerpt} (ha : a.Within) (hb : b.Within) :
    a.bytes = b.bytes ↔
      a.span.length = b.span.length ∧ ∀ i < a.span.length, a.byteAt? i = b.byteAt? i := by
  constructor
  · intro h
    have hlength : a.span.length = b.span.length := by
      rw [← size_bytes ha, h, size_bytes hb]
    refine ⟨hlength, ?_⟩
    intro i hi
    rw [← getElem?_bytes ha hi, h, getElem?_bytes hb (hlength ▸ hi)]
  · intro h
    obtain ⟨hlength, hbytes⟩ := h
    refine ByteArray.ext (Array.ext_getElem? ?_)
    intro i
    by_cases hi : i < a.span.length
    · rw [getElem?_bytes ha hi, getElem?_bytes hb (hlength ▸ hi), hbytes i hi]
    · have hasize : a.bytes.data.size = a.span.length := size_bytes ha
      have hbsize : b.bytes.data.size = b.span.length := size_bytes hb
      rw [Array.getElem?_eq_none (by omega), Array.getElem?_eq_none (by omega)]

/-! ## String for string -/

/-- A span over the bytes of a piece that is not empty starts with the
first byte of a character. -/
theorem startPos_isValid_of_bytes {e : Excerpt} {piece : String} (hwithin : e.Within)
    (hbytes : e.bytes = piece.toByteArray) (hne : piece ≠ "") : e.startPos.IsValid e.text := by
  have hsize : 0 < piece.utf8ByteSize := by
    rw [Nat.pos_iff_ne_zero, ne_eq, String.utf8ByteSize_eq_zero_iff]
    exact hne
  have hlength : e.span.length = piece.utf8ByteSize := by
    rw [← size_bytes hwithin, hbytes, String.size_toByteArray]
  have hstart : e.startPos < e.text.rawEndPos := by
    show e.span.start.toNat < e.text.utf8ByteSize
    have hstop := hwithin.2
    unfold Span.length at hlength
    omega
  have hbyte : e.text.getUTF8Byte e.startPos hstart = piece.getUTF8Byte 0 hsize := by
    show e.text.toByteArray[e.span.start.toNat] = piece.toByteArray[0]
    simp only [← hbytes, bytes, ByteArray.getElem_extract, Nat.add_zero]
    rfl
  rw [String.Pos.Raw.isValid_iff_isUTF8FirstByte]
  refine .inr ⟨hstart, ?_⟩
  rw [hbyte]
  exact String.isUTF8FirstByte_getUTF8Byte_zero

/-- Bytes that are UTF-8 and stand at the front of a text are a piece of
it: the text goes on with a character behind them. -/
theorem exists_append_of_extract {text piece : String}
    (h : text.toByteArray.extract 0 piece.utf8ByteSize = piece.toByteArray) :
    ∃ after, text = piece ++ after := by
  have hle : piece.utf8ByteSize ≤ text.utf8ByteSize := by
    have hsize := congrArg ByteArray.size h
    rw [ByteArray.size_extract, String.size_toByteArray, String.size_toByteArray] at hsize
    omega
  have hvalid : (piece.rawEndPos).IsValid text := by
    rw [String.Pos.Raw.isValid_iff_isValidUTF8_extract_zero]
    refine ⟨hle, ?_⟩
    show (text.toByteArray.extract 0 piece.utf8ByteSize).IsValidUTF8
    rw [h]
    exact piece.isValidUTF8
  -- The text can be cut there, and what stands before the cut is the piece.
  obtain ⟨front, after, rfl, hfront⟩ := String.Pos.Raw.isValid_iff_exists_append.1 hvalid
  have hsize : piece.utf8ByteSize = front.utf8ByteSize := congrArg String.Pos.Raw.byteIdx hfront
  rw [String.toByteArray_append, ByteArray.extract_append_eq_left hsize,
    String.toByteArray_inj] at h
  exact ⟨after, by rw [h]⟩

/-- What covers the same bytes as a piece of another text covers that
piece, unless the piece is empty. -/
theorem covers_of_same {a b : Excerpt} {piece : String} (ha : a.Covers piece)
    (hne : piece ≠ "") (hsame : a.same b = true) : b.Covers piece := by
  obtain ⟨data, hdata, hb⟩ := (same_iff a b).1 hsame
  rw [bytes?_of_covers ha, Option.some.injEq] at hdata
  obtain ⟨hwithin, hdata'⟩ := (bytes?_eq_some_iff b data).1 hb
  have hbytes : b.bytes = piece.toByteArray := ByteArray.ext (hdata'.trans hdata.symm)
  have hstart := startPos_isValid_of_bytes hwithin hbytes hne
  obtain ⟨before, rest, htext, hpos⟩ := String.Pos.Raw.isValid_iff_exists_append.1 hstart
  have hbefore : b.span.start.toNat = before.utf8ByteSize := congrArg String.Pos.Raw.byteIdx hpos
  have hstop : b.span.stop.toNat = before.utf8ByteSize + piece.utf8ByteSize := by
    have hle := UInt32.le_iff_toNat_le.1 hwithin.1
    have hlength := size_bytes hwithin
    rw [hbytes, String.size_toByteArray] at hlength
    unfold Span.length at hlength
    omega
  -- What stands behind the start of the span begins with the piece.
  have hrest : rest.toByteArray.extract 0 piece.utf8ByteSize = piece.toByteArray := by
    rw [← hbytes, bytes, htext, hbefore, hstop, String.toByteArray_append]
    exact (ByteArray.extract_append_size_add (i := 0)).symm
  obtain ⟨after, rfl⟩ := exists_append_of_extract hrest
  exact ⟨before, after, by rw [htext, String.append_assoc], hbefore, hstop⟩

/-- If one of two spans over the same bytes covers a piece of its text and
the other does not, there are no bytes. -/
theorem isEmpty_of_same {a b : Excerpt} {piece : String} (ha : a.string? = some piece)
    (hb : b.string? = none) (hsame : a.same b = true) :
    a.span.isEmpty = true ∧ b.span.isEmpty = true := by
  rw [string?_eq_some_iff] at ha
  -- Otherwise the second span would cover the piece as well.
  have hpiece : piece = "" := by
    by_cases hempty : piece = ""
    · exact hempty
    · rw [string?_of_covers (covers_of_same ha hempty hsame)] at hb
      cases hb
  obtain ⟨hawithin, hbwithin, hbytes⟩ := (same_iff_within a b).1 hsame
  obtain ⟨hlength, -⟩ := (bytes_eq_iff hawithin hbwithin).1 hbytes
  obtain ⟨before, after, -, hstart, hstop⟩ := ha
  have hzero : a.span.length = 0 := by
    subst hpiece
    rw [Span.length, hstart, hstop, String.utf8ByteSize_empty]
    omega
  rw [← Span.length_eq_zero_iff, ← Span.length_eq_zero_iff, ← hlength]
  exact ⟨hzero, hzero⟩

/-! ## The comparison in full -/

theorem sameOptional_iff (x y : Option Excerpt) :
    sameOptional x y = true ↔
      (x = none ∧ y = none) ∨ ∃ a b, x = some a ∧ y = some b ∧ a.same b = true := by
  cases x <;> cases y <;> simp [sameOptional]

/-- **The comparison of two excerpts.** Two excerpts are the same exactly
when both spans run forwards within their texts, are equally long, and have
the same byte at each offset. So the comparison is symmetric and
transitive, and an excerpt is the same as itself if it lies within its
text; in the optional form an absent excerpt is the same as an absent one
only. Of two spans that can be read, the strings decide. If only one of the
two can be read, they may be the same only where both are empty. -/
theorem same_byte_for_byte :
    (∀ a b : Excerpt, a.same b = true ↔
      a.Within ∧ b.Within ∧ a.span.length = b.span.length ∧
        ∀ i < a.span.length, a.byteAt? i = b.byteAt? i) ∧
    (∀ a b : Excerpt, a.same b = b.same a) ∧
    (∀ a b c : Excerpt, a.same b = true → b.same c = true → a.same c = true) ∧
    (∀ a : Excerpt, a.same a = true ↔ a.Within) ∧
    (∀ x y : Option Excerpt, sameOptional x y = true ↔
      (x = none ∧ y = none) ∨ ∃ a b, x = some a ∧ y = some b ∧ a.same b = true) ∧
    (∀ (a b : Excerpt) (p q : String), a.string? = some p → b.string? = some q →
      (a.same b = true ↔ p = q)) ∧
    ∀ a b : Excerpt, a.string?.isSome ≠ b.string?.isSome → a.same b = true →
      a.span.isEmpty = true ∧ b.span.isEmpty = true := by
  refine ⟨?_, same_comm, fun a b c => same_trans, ?_, sameOptional_iff, ?_, ?_⟩
  · intro a b
    rw [same_iff_within]
    refine and_congr_right fun ha => and_congr_right fun hb => ?_
    exact bytes_eq_iff ha hb
  · intro a
    simp [same_iff_within]
  · intro a b p q ha hb
    exact same_iff_of_covers (covers_of_string? ha) (covers_of_string? hb)
  · intro a b hone hsame
    cases ha : a.string? with
    | some p =>
      cases hb : b.string? with
      | some q => simp [ha, hb] at hone
      | none => exact isEmpty_of_same ha hb hsame
    | none =>
      cases hb : b.string? with
      | some q =>
        rw [same_comm] at hsame
        exact (isEmpty_of_same hb ha hsame).symm
      | none => simp [ha, hb] at hone

/-- A character is the same in another text, where it has other
neighbours. A span within it is the same as any empty span. -/
theorem same_byte_for_byte_accent :
    (Excerpt.mk "né" ⟨1, 3⟩).string? = some "é" ∧
    (Excerpt.mk "éa" ⟨0, 2⟩).string? = some "é" ∧
    (Excerpt.mk "né" ⟨1, 3⟩).same ⟨"éa", ⟨0, 2⟩⟩ = true ∧
    (Excerpt.mk "éa" ⟨0, 2⟩).same ⟨"héé", ⟨3, 5⟩⟩ = true ∧
    (Excerpt.mk "né" ⟨1, 3⟩).same ⟨"héé", ⟨3, 5⟩⟩ = true ∧
    (Excerpt.mk "né" ⟨2, 2⟩).string?.isSome ≠ (Excerpt.mk "éa" ⟨3, 3⟩).string?.isSome ∧
    (Excerpt.mk "né" ⟨2, 2⟩).same ⟨"éa", ⟨3, 3⟩⟩ = true ∧
    (Span.mk 2 2).isEmpty = true ∧ (Span.mk 3 3).isEmpty = true := by
  obtain ⟨hbytes, -, htrans, -, -, hstrings, hone⟩ := same_byte_for_byte
  have hleft : (Excerpt.mk "né" ⟨1, 3⟩).string? = some "é" := by decide
  have hright : (Excerpt.mk "éa" ⟨0, 2⟩).string? = some "é" := by decide
  have hsame := (hstrings _ _ _ _ hleft hright).2 rfl
  have hnext : (Excerpt.mk "éa" ⟨0, 2⟩).same ⟨"héé", ⟨3, 5⟩⟩ = true := (hbytes _ _).2 (by decide)
  have hdiffer : (Excerpt.mk "né" ⟨2, 2⟩).string?.isSome ≠
      (Excerpt.mk "éa" ⟨3, 3⟩).string?.isSome := by decide
  have hcut : (Excerpt.mk "né" ⟨2, 2⟩).same ⟨"éa", ⟨3, 3⟩⟩ = true := (hbytes _ _).2 (by decide)
  exact ⟨hleft, hright, hsame, hnext, htrans _ _ _ hsame hnext, hdiffer, hcut,
    hone _ _ hdiffer hcut⟩

end Excerpt

end HotSwap
