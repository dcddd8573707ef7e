/-
HotSwap.Tree.Modifier — the keywords that may stand before a declaration, and
sets of them.

A `Keyword.Set` is a word of fifteen bits, one for each keyword in the
order of the type's constructors. `Set.contains_ofList` says that folding
a list of keywords into a set keeps exactly the keywords that occur in the
list, so neither their order nor their number shows in the set.
-/
import HotSwap.Span

namespace HotSwap

/-- A keyword that may stand before a declaration. -/
inductive Keyword where
  | exported
  | defaultExport
  | abstract
  | declared
  | constant
  | asynchronous
  | publicAccess
  | privateAccess
  | protectedAccess
  | readOnly
  | static
  | overriding
  | accessor
  /-- `in`, on a type parameter that is only consumed. -/
  | contravariant
  /-- `out`, on a type parameter that is only produced. -/
  | covariant
  deriving DecidableEq, Repr

namespace Keyword

/-- Every keyword once, in the order of their bits. -/
def all : List Keyword :=
  [exported, defaultExport, abstract, declared, constant, asynchronous, publicAccess,
    privateAccess, protectedAccess, readOnly, static, overriding, accessor, contravariant,
    covariant]

/-- The word as it is written in a source text. -/
def word : Keyword → String
  | exported => "export"
  | defaultExport => "default"
  | abstract => "abstract"
  | declared => "declare"
  | constant => "const"
  | asynchronous => "async"
  | publicAccess => "public"
  | privateAccess => "private"
  | protectedAccess => "protected"
  | readOnly => "readonly"
  | static => "static"
  | overriding => "override"
  | accessor => "accessor"
  | contravariant => "in"
  | covariant => "out"

/-- The number of the keyword's bit. -/
def rank (k : Keyword) : Nat := all.idxOf k

theorem mem_all (k : Keyword) : k ∈ all := by cases k <;> decide

theorem rank_lt (k : Keyword) : k.rank < 15 :=
  List.idxOf_lt_length_of_mem (mem_all k)

theorem getElem?_rank (k : Keyword) : all[k.rank]? = some k := by
  rw [List.getElem?_eq_some_iff]
  exact ⟨k.rank_lt, List.getElem_idxOf k.rank_lt⟩

/-- No two keywords share a bit. -/
theorem rank_inj {j k : Keyword} : j.rank = k.rank ↔ j = k := by
  constructor
  · intro h
    have hj := getElem?_rank j
    rw [h, getElem?_rank k, Option.some.injEq] at hj
    exact hj.symm
  · intro h
    rw [h]

/-! ## Sets of keywords -/

/-- An unordered set of keywords, one bit each. -/
structure Set where
  bits : BitVec 15
  deriving DecidableEq, Repr

namespace Set

/-- The set without members. -/
def empty : Set := ⟨0#15⟩

/-- The set of one keyword. -/
def single (k : Keyword) : Set := ⟨.twoPow 15 k.rank⟩

/-- The set with one keyword more. -/
def insert (s : Set) (k : Keyword) : Set := ⟨s.bits ||| (single k).bits⟩

/-- Whether a keyword is in the set. -/
def contains (s : Set) (k : Keyword) : Bool := s.bits.getLsbD k.rank

/-- The set of the keywords of a list. -/
def ofList (ks : List Keyword) : Set := ks.foldl insert empty

/-- The members, in the order of their bits. -/
def toList (s : Set) : List Keyword := all.filter s.contains

/-- The set has no members. -/
def isEmpty (s : Set) : Bool := s = empty

/-- Every keyword is in the set. -/
def isFull (s : Set) : Bool := s = ofList all

/-- The set's listing for a log: the members in capitals between bars, or
a zero if there are none. -/
def listing (s : Set) : String :=
  if s.isEmpty then "ModifierFlags(0x0)"
  else "ModifierFlags(" ++ " | ".intercalate (s.toList.map (·.word.toUpper)) ++ ")"

@[simp] theorem contains_empty (k : Keyword) : empty.contains k = false := by
  simp [contains, empty]

/-- Inserting a keyword adds that keyword and no other. -/
@[simp] theorem contains_insert (s : Set) (j k : Keyword) :
    (s.insert j).contains k = (s.contains k || decide (k = j)) := by
  simp [contains, insert, single, rank_lt, rank_inj]

theorem contains_foldl_insert (ks : List Keyword) (s : Set) (k : Keyword) :
    (ks.foldl insert s).contains k = (s.contains k || decide (k ∈ ks)) := by
  induction ks generalizing s with
  | nil => simp
  | cons j ks ih =>
    rw [List.foldl_cons, ih, contains_insert, Bool.or_assoc]
    by_cases h : k = j <;> simp [h]

/-- A folded list holds exactly the keywords that occur in it. -/
@[simp] theorem contains_ofList (ks : List Keyword) (k : Keyword) :
    (ofList ks).contains k = decide (k ∈ ks) := by
  simp [ofList, contains_foldl_insert]

/-- Each bit is the bit of a keyword. -/
theorem exists_rank_eq {i : Nat} (h : i < 15) : ∃ k : Keyword, k.rank = i := by
  have hall : ∀ j : Fin all.length, (all.get j).rank = j.val := by decide
  exact ⟨all.get ⟨i, h⟩, hall ⟨i, h⟩⟩

/-- A set is determined by its members. -/
theorem ext_contains {s t : Set} (h : ∀ k, s.contains k = t.contains k) : s = t := by
  have hbits : s.bits = t.bits := by
    apply BitVec.eq_of_getLsbD_eq
    intro i hi
    obtain ⟨k, rfl⟩ := exists_rank_eq hi
    exact h k
  cases s; cases t
  exact congrArg mk hbits

/-- Two lists fold into the same set exactly when they have the same
keywords, in any order and any number. -/
theorem ofList_eq_iff (ks ls : List Keyword) :
    ofList ks = ofList ls ↔ ∀ k, k ∈ ks ↔ k ∈ ls := by
  constructor
  · intro h k
    have hk : (ofList ks).contains k = (ofList ls).contains k := by rw [h]
    simpa using hk
  · intro h
    apply ext_contains
    intro k
    simp [h k]

end Set

end Keyword

/-- A keyword at its place in the text. -/
structure Modifier where
  keyword : Keyword
  span : Span
  deriving DecidableEq, Repr

end HotSwap
