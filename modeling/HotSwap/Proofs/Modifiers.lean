/-
HotSwap.Proofs.Modifiers — when the modifiers of a class are reported to
have changed.

A list of keywords is folded into a word with one bit for each keyword.
The bits of the word are those of the keywords in the list and no others
(`Keyword.Set.testBit_ofList`), so two words are equal exactly when their
lists have the same keywords, whatever their order and number. The number
is compared apart. Together the two comparisons are still coarser than the
lists, where a keyword is repeated; where none is, they tell permutations
from all other lists (`Class.sameModifiers_iff_perm`).
-/
import HotSwap.Program
import HotSwap.Proofs.FileDiff

namespace HotSwap

/-! ## Bits -/

namespace Keyword.Set

theorem testBit_single (k : Keyword) (i : Nat) :
    (single k).bits.toNat.testBit i = true ↔ k.rank = i := by
  rw [BitVec.testBit_toNat, single, BitVec.getLsbD_twoPow]
  simp [rank_lt]

/-- The bits of a folded list are those of the keywords in it. -/
theorem testBit_ofList (ks : List Keyword) (i : Nat) :
    (ofList ks).bits.toNat.testBit i = true ↔
      ∃ k ∈ ks, (single k).bits.toNat.testBit i = true := by
  simp only [testBit_single]
  rw [BitVec.testBit_toNat]
  constructor
  · intro h
    obtain ⟨k, rfl⟩ := exists_rank_eq (BitVec.lt_of_getLsbD h)
    have hk : (ofList ks).contains k = true := h
    rw [contains_ofList, decide_eq_true_iff] at hk
    exact ⟨k, hk, rfl⟩
  · intro h
    obtain ⟨k, hk, rfl⟩ := h
    show (ofList ks).contains k = true
    rw [contains_ofList, decide_eq_true_iff]
    exact hk

/-- A keyword is in a set exactly when the set has every bit of the
keyword's own set. -/
theorem contains_iff_and_eq (s : Set) (k : Keyword) :
    s.contains k = true ↔ s.bits &&& (single k).bits = (single k).bits := by
  show s.bits.getLsbD k.rank = true ↔ _
  rw [single, BitVec.and_twoPow]
  cases s.bits.getLsbD k.rank with
  | true => simp
  | false =>
    have hne : 0#15 ≠ BitVec.twoPow 15 k.rank := by
      intro hzero
      have hbit := congrArg (·.getLsbD k.rank) hzero
      simp [rank_lt] at hbit
    simp [hne]

theorem ofList_perm {ks ls : List Keyword} (h : ks.Perm ls) : ofList ks = ofList ls := by
  rw [ofList_eq_iff]
  intro k
  exact h.mem_iff

/-- Keywords that are in the list already may be repeated. -/
theorem ofList_append_of_subset {ks ls : List Keyword} (h : ls ⊆ ks) :
    ofList (ks ++ ls) = ofList ks := by
  rw [ofList_eq_iff]
  intro k
  rw [List.mem_append]
  exact ⟨fun hk => hk.elim id fun hk => h hk, .inl⟩

end Keyword.Set

/-! ## Lists -/

namespace Class

/-- The keywords of the modifiers, as they stand one after another. -/
def modifierKeywords (c : Class) : List Keyword := c.modifiers.map (·.keyword)

/-- The classes have equally many modifiers, and each keyword is one of
both or of neither. -/
def SameModifiers (c d : Class) : Prop :=
  c.modifiers.length = d.modifiers.length ∧
    ∀ k, k ∈ c.modifierKeywords ↔ k ∈ d.modifierKeywords

theorem sameModifiers_of_perm {c d : Class} (h : c.modifierKeywords.Perm d.modifierKeywords) :
    c.SameModifiers d := by
  refine ⟨?_, fun k => h.mem_iff⟩
  simpa [modifierKeywords] using h.length_eq

/-- Without repetitions, the same keywords are a permutation. -/
theorem sameModifiers_iff_perm {c d : Class} (hc : c.modifierKeywords.Nodup)
    (hd : d.modifierKeywords.Nodup) :
    c.SameModifiers d ↔ c.modifierKeywords.Perm d.modifierKeywords := by
  constructor
  · intro h
    exact (List.perm_ext_iff_of_nodup hc hd).2 h.2
  · exact sameModifiers_of_perm

/-- The modifiers differ if one list is longer, or if a keyword is in one
of them only. -/
theorem not_sameModifiers_iff (c d : Class) :
    ¬ c.SameModifiers d ↔ c.modifiers.length ≠ d.modifiers.length ∨
      ∃ k, (k ∈ c.modifierKeywords ∧ k ∉ d.modifierKeywords) ∨
        (k ∈ d.modifierKeywords ∧ k ∉ c.modifierKeywords) := by
  unfold SameModifiers
  rw [not_and_or, not_forall]
  refine or_congr_right (exists_congr fun k => ?_)
  tauto

end Class

/-! ## Files of one class -/

namespace Revision

/-- Both versions of the file are one class, and of its header everything
but the modifiers stays the same. -/
structure KeepsHeader (r : Revision) (c d : Class) : Prop where
  old : ∃ span, r.old.statements = [⟨span, some c⟩]
  new : ∃ span, r.new.statements = [⟨span, some d⟩]
  name : c.nameText? = d.nameText?
  heritage : r.sameLists c.heritage d.heritage = true
  typeParams : r.sameLists c.typeParams d.typeParams = true

variable {r : Revision} {c d : Class} (metadataIndex? : Class → Option Nat)

/-- Of all checks at one place only that of the header reports modifiers. -/
theorem rejects_modifiersChanged_iff (h : r.KeepsHeader c d) (a b : Span) :
    r.Rejects metadataIndex? ⟨a, some c⟩ ⟨b, some d⟩ .modifiersChanged ↔ ¬ c.SameModifiers d := by
  constructor
  · intro hrejects
    cases hrejects with
    | header c' d' hold hnew cause hfault =>
      cases hold
      cases hnew
      cases hfault with
      | modifiers _ _ _ hmodifiers => exact hmodifiers
    | component c' d' index hold hnew header marked cause hfault => cases hfault
  · intro hmodifiers
    exact .header c d rfl rfl _ (.modifiers h.name h.heritage h.typeParams hmodifiers)

theorem swaps_eq_modifiersChanged_iff (h : r.KeepsHeader c d) (place : Option Nat) :
    r.swaps metadataIndex? = .error ⟨place, .modifiersChanged⟩ ↔
      place = some 0 ∧ ¬ c.SameModifiers d := by
  obtain ⟨a, hold⟩ := h.old
  obtain ⟨b, hnew⟩ := h.new
  rw [swaps_eq_error_iff, hold, hnew]
  constructor
  · intro hrefused
    rcases hrefused with ⟨hne, -⟩ | ⟨-, i, cause, hrefusal, hrejects, -⟩
    · simp at hne
    cases hrefusal
    obtain ⟨o, n, ho, hn, hrejects⟩ := hrejects
    -- The only place is the first.
    cases i with
    | succ i => simp at ho
    | zero =>
      cases ho
      cases hn
      exact ⟨rfl, (rejects_modifiersChanged_iff metadataIndex? h a b).1 hrejects⟩
  · intro hmodifiers
    obtain ⟨rfl, hmodifiers⟩ := hmodifiers
    refine .inr ⟨rfl, 0, _, rfl, ⟨_, _, rfl, rfl, ?_⟩, by simp⟩
    exact (rejects_modifiersChanged_iff metadataIndex? h a b).2 hmodifiers

/-- **Modifiers are compared as a set and by their number.** The bits of a
folded list are those of the keywords in it and no others, so the order of
the list and its repetitions do not show. If all that two versions of a
class may differ in is behind the modifiers or in them, modifiers are
reported, at the only place, exactly when the two lists differ in length or
one has a keyword that the other lacks. Where neither list repeats a
keyword, they are passed over exactly when one list is a permutation of the
other. -/
theorem modifiers_compared_as_sets :
    (∀ (ks : List Keyword) (k : Keyword),
      (Keyword.Set.ofList ks).bits &&& (Keyword.Set.single k).bits = (Keyword.Set.single k).bits ↔
        k ∈ ks) ∧
    (∀ (ks : List Keyword) (i : Nat), (Keyword.Set.ofList ks).bits.toNat.testBit i = true ↔
      ∃ k ∈ ks, (Keyword.Set.single k).bits.toNat.testBit i = true) ∧
    (∀ ks ls : List Keyword, ks.Perm ls → Keyword.Set.ofList ks = Keyword.Set.ofList ls) ∧
    (∀ ks ls : List Keyword, ls ⊆ ks →
      Keyword.Set.ofList (ks ++ ls) = Keyword.Set.ofList ks) ∧
    ∀ (r : Revision) (v : View) (c d : Class), r.KeepsHeader c d →
      (∀ place, r.swaps v.metadataIndex? = .error ⟨place, .modifiersChanged⟩ ↔
        place = some 0 ∧ (c.modifiers.length ≠ d.modifiers.length ∨
          ∃ k, (k ∈ c.modifierKeywords ∧ k ∉ d.modifierKeywords) ∨
            (k ∈ d.modifierKeywords ∧ k ∉ c.modifierKeywords))) ∧
      (c.modifierKeywords.Nodup → d.modifierKeywords.Nodup →
        ((∀ place, r.swaps v.metadataIndex? ≠ .error ⟨place, .modifiersChanged⟩) ↔
          c.modifierKeywords.Perm d.modifierKeywords)) := by
  refine ⟨?_, Keyword.Set.testBit_ofList, fun _ _ => Keyword.Set.ofList_perm,
    fun _ _ => Keyword.Set.ofList_append_of_subset, ?_⟩
  · intro ks k
    rw [← Keyword.Set.contains_iff_and_eq, Keyword.Set.contains_ofList, decide_eq_true_iff]
  · intro r v c d h
    have hreported := swaps_eq_modifiersChanged_iff v.metadataIndex? h
    refine ⟨?_, ?_⟩
    · intro place
      rw [hreported, Class.not_sameModifiers_iff]
    · intro hc hd
      simp only [ne_eq, hreported, ← Class.sameModifiers_iff_perm hc hd]
      simp

/-- A class of which nothing is written but its modifiers. -/
def bareClass (keywords : List Keyword) : Class where
  id := ⟨0⟩
  span := ⟨0, 0⟩
  name := none
  decorators := []
  modifiers := keywords.map (⟨·, ⟨0, 0⟩⟩)
  typeParams := none
  heritage := none
  members := ⟨⟨0, 0⟩, []⟩

/-- A file of such a class, before and after an edit of its modifiers. -/
def bareRevision (old new : List Keyword) : Revision where
  old := ⟨"bare.ts", "", [⟨⟨0, 0⟩, some (bareClass old)⟩]⟩
  new := ⟨"bare.ts", "", [⟨⟨0, 0⟩, some (bareClass new)⟩]⟩

/-- An exchange of two keywords is passed over, and a change of one for
another is reported. Where keywords repeat, lists may be passed over that
are no permutation of each other. -/
theorem modifiers_compared_as_sets_bareClass :
    (∀ old new, (bareRevision old new).KeepsHeader (bareClass old) (bareClass new)) ∧
    (∀ place, (bareRevision [.exported, .abstract] [.abstract, .exported]).swaps
      Program.empty.view.metadataIndex? ≠ .error ⟨place, .modifiersChanged⟩) ∧
    (bareRevision [.exported, .abstract] [.exported, .declared]).swaps
      Program.empty.view.metadataIndex? = .error ⟨some 0, .modifiersChanged⟩ ∧
    (∀ place,
      (bareRevision [.exported, .exported, .abstract] [.exported, .abstract, .abstract]).swaps
        Program.empty.view.metadataIndex? ≠ .error ⟨place, .modifiersChanged⟩) ∧
    ¬ [Keyword.exported, .exported, .abstract].Perm [.exported, .abstract, .abstract] ∧
    Keyword.Set.ofList [.exported, .abstract, .exported] =
      Keyword.Set.ofList [.abstract, .exported] := by
  obtain ⟨-, -, hperm, hrepeat, hreport⟩ := modifiers_compared_as_sets
  have hkeeps : ∀ old new, (bareRevision old new).KeepsHeader (bareClass old) (bareClass new) :=
    fun _ _ => ⟨⟨_, rfl⟩, ⟨_, rfl⟩, rfl, rfl, rfl⟩
  refine ⟨hkeeps, ?_, ?_, ?_, by decide, ?_⟩
  · obtain ⟨-, hnodup⟩ := hreport _ Program.empty.view _ _ (hkeeps _ _)
    exact (hnodup (by decide) (by decide)).2 (by decide)
  · obtain ⟨hreported, -⟩ := hreport _ Program.empty.view _ _ (hkeeps _ _)
    rw [hreported]
    exact ⟨rfl, .inr ⟨.abstract, .inl (by decide)⟩⟩
  · obtain ⟨hreported, -⟩ := hreport _ Program.empty.view _ _ (hkeeps _ _)
    intro place h
    obtain ⟨-, hlength | ⟨k, hk⟩⟩ := (hreported place).1 h
    · exact hlength rfl
    · revert hk
      cases k <;> decide
  · have hexchange := hperm [.exported, .abstract] [.abstract, .exported] (by decide)
    rw [← hexchange]
    exact hrepeat [.exported, .abstract] [.exported] (by decide)

end Revision

end HotSwap
