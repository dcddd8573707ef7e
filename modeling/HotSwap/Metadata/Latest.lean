/-
HotSwap.Metadata.Latest — the last value that a literal gives to each
name.

An object literal may assign to a name more than once, and the last value
counts. Two literals agree if each name has the same last value in both,
or none in either (`Latest.agree_iff`); the order of the names and the
values that were overwritten do not matter. `LastValues` keeps the last
values of both literals while their assignments come in, in any order.
-/
import Std.Data.TreeMap
import HotSwap.Excerpt

namespace HotSwap

/-- The last values by name, as spans of one text. -/
structure Latest where
  text : String
  values : Std.TreeMap String Span

namespace Latest

/-- No name has a value. -/
def empty (text : String) : Latest := ⟨text, ∅⟩

/-- Give a name a value, in place of the one that it has. -/
def record (l : Latest) (name : String) (value : Span) : Latest :=
  { l with values := l.values.insert name value }

/-- The last value given to a name. -/
def value? (l : Latest) (name : String) : Option Excerpt :=
  l.values[name]?.map (⟨l.text, ·⟩)

/-- As many names have a value on both sides, and each that has one on the
second side has the same on the first. -/
def agree (a b : Latest) : Bool :=
  a.values.size = b.values.size &&
    b.values.keys.all fun name => Excerpt.sameOptional (a.value? name) (b.value? name)

@[simp] theorem value?_empty (text name : String) : (empty text).value? name = none := by
  simp [value?, empty]

theorem value?_record (l : Latest) (n name : String) (v : Span) :
    (l.record n v).value? name = if n = name then some ⟨l.text, v⟩ else l.value? name := by
  simp only [value?, record, Std.TreeMap.getElem?_insert, Std.LawfulEqCmp.compare_eq_iff_eq]
  split <;> rfl

theorem value?_isSome (l : Latest) (name : String) :
    (l.value? name).isSome = true ↔ name ∈ l.values.keys := by
  simp [value?]

theorem mem_keys_of_sameOptional {a b : Latest} {name : String}
    (hmem : name ∈ b.values.keys)
    (hsame : Excerpt.sameOptional (a.value? name) (b.value? name) = true) :
    name ∈ a.values.keys := by
  rw [← value?_isSome] at hmem ⊢
  obtain ⟨v, hv⟩ := Option.isSome_iff_exists.1 hmem
  rw [hv] at hsame
  cases ha : a.value? name with
  | none => simp [ha, Excerpt.sameOptional] at hsame
  | some u => rfl

/-- Of two maps of one size, the one whose names include the other's has
no further names. -/
theorem mem_keys_of_size_eq {a b : Latest} (hsize : a.values.size = b.values.size)
    (hsubset : b.values.keys ⊆ a.values.keys) {name : String} (h : name ∈ a.values.keys) :
    name ∈ b.values.keys := by
  refine Decidable.byContradiction fun hnew => ?_
  have hnodup : (name :: b.values.keys).Nodup :=
    List.nodup_cons.2 ⟨hnew, Std.TreeMap.nodup_keys⟩
  have hle := hnodup.length_le_of_subset (List.cons_subset.2 ⟨h, hsubset⟩)
  rw [List.length_cons, Std.TreeMap.length_keys, Std.TreeMap.length_keys] at hle
  omega

/-- Two sides agree exactly when their last values are the same under
every name, whether or not the name occurs. The names of the first side
need no look of their own: a name that is missing on the second would make
the numbers differ. -/
theorem agree_iff (a b : Latest) :
    a.agree b = true ↔
      ∀ name, Excerpt.sameOptional (a.value? name) (b.value? name) = true := by
  simp only [agree, Bool.and_eq_true, decide_eq_true_iff, List.all_eq_true]
  constructor
  · rintro ⟨hsize, hsame⟩ name
    have hsubset : b.values.keys ⊆ a.values.keys := fun n hn =>
      mem_keys_of_sameOptional hn (hsame n hn)
    by_cases hb : name ∈ b.values.keys
    · exact hsame name hb
    · have ha : name ∉ a.values.keys := fun ha => hb (mem_keys_of_size_eq hsize hsubset ha)
      rw [← value?_isSome, Option.not_isSome_iff_eq_none] at ha hb
      rw [ha, hb]
      rfl
  · intro hsame
    have hkeys : ∀ name, name ∈ a.values.keys ↔ name ∈ b.values.keys := by
      intro name
      refine ⟨fun ha => ?_, fun hb => mem_keys_of_sameOptional hb (hsame name)⟩
      refine mem_keys_of_sameOptional ha ?_
      rw [Excerpt.sameOptional_comm]
      exact hsame name
    refine ⟨?_, fun name _ => hsame name⟩
    rw [← Std.TreeMap.length_keys, ← Std.TreeMap.length_keys]
    exact (List.perm_ext_iff_of_nodup Std.TreeMap.nodup_keys Std.TreeMap.nodup_keys).2 hkeys
      |>.length_eq

end Latest

/-! ## Two literals side by side -/

/-- One of the two literals of a comparison. -/
inductive Side where
  | old
  | new
  deriving DecidableEq, Repr

/-- A value that a literal gives to a name. -/
structure Assignment where
  side : Side
  name : String
  value : Span
  deriving DecidableEq, Repr

/-- The last values of two literals. -/
structure LastValues where
  old : Latest
  new : Latest

namespace LastValues

/-- No name has a value on either side. -/
def empty (oldText newText : String) : LastValues := ⟨.empty oldText, .empty newText⟩

/-- The last values after one more assignment. -/
def step (l : LastValues) (a : Assignment) : LastValues :=
  match a.side with
  | .old => { l with old := l.old.record a.name a.value }
  | .new => { l with new := l.new.record a.name a.value }

/-- The last values after some assignments, one after another. -/
def run (l : LastValues) (assignments : List Assignment) : LastValues :=
  assignments.foldl step l

/-- Some name has a value on one side only, or other values on the two
sides. -/
def edited (l : LastValues) : Bool := !l.old.agree l.new

end LastValues

end HotSwap
