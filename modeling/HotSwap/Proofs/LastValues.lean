/-
HotSwap.Proofs.LastValues — what two sides of assignments are compared by.

Assignments to the two sides may come in any order. Each step touches one
name of one side (`LastValues.value?_on_step`), so what a run of them
leaves under a name is the value of the last assignment to it on that side
(`value?_on_run`). Whether anything was edited is decided by these last
values (`edited_eq_false_iff`): no other assignment matters, nor does the
order of two that concern different sides or different names.
-/
import Mathlib.Data.List.Induction
import HotSwap.Metadata.Latest

namespace HotSwap

/-! ## The last assignment -/

/-- The side that a side is compared with. -/
def Side.other : Side → Side
  | old => new
  | new => old

namespace Assignment

/-- The assignment gives a value to the name on the side. -/
def Concerns (a : Assignment) (side : Side) (name : String) : Prop :=
  a.side = side ∧ a.name = name

instance (a : Assignment) (side : Side) (name : String) : Decidable (a.Concerns side name) :=
  inferInstanceAs (Decidable (_ ∧ _))

/-- The same assignment on the other side. -/
def mirrored (a : Assignment) : Assignment := { a with side := a.side.other }

/-- The value of the last assignment to a name on a side. -/
def lastOn? (assignments : List Assignment) (side : Side) (name : String) : Option Span :=
  (assignments.reverse.find? (·.Concerns side name)).map (·.value)

theorem lastOn?_append_singleton (as : List Assignment) (a : Assignment) (side : Side)
    (name : String) :
    lastOn? (as ++ [a]) side name =
      if a.Concerns side name then some a.value else lastOn? as side name := by
  unfold lastOn?
  rw [List.reverse_append, List.reverse_singleton, List.singleton_append, List.find?_cons]
  by_cases h : a.Concerns side name <;> simp [h]

theorem lastOn?_append (as bs : List Assignment) (side : Side) (name : String) :
    lastOn? (as ++ bs) side name = (lastOn? bs side name).or (lastOn? as side name) := by
  simp [lastOn?, List.find?_append, Option.map_or]

/-- A name has a last value on a side exactly when an assignment concerns
it there. -/
theorem lastOn?_isSome_iff (as : List Assignment) (side : Side) (name : String) :
    (lastOn? as side name).isSome = true ↔ ∃ a ∈ as, a.Concerns side name := by
  simp [lastOn?]

/-- Two assignments in a row that concern different sides or different
names may change places. -/
theorem lastOn?_swap {a b : Assignment} (h : a.side ≠ b.side ∨ a.name ≠ b.name)
    (side : Side) (name : String) : lastOn? [a, b] side name = lastOn? [b, a] side name := by
  have hnot : ¬ (a.Concerns side name ∧ b.Concerns side name) := by
    intro hboth
    obtain ⟨⟨hsideA, hnameA⟩, hsideB, hnameB⟩ := hboth
    obtain h | h := h
    · exact h (hsideA.trans hsideB.symm)
    · exact h (hnameA.trans hnameB.symm)
  by_cases ha : a.Concerns side name <;> by_cases hb : b.Concerns side name <;>
    simp_all [lastOn?]

theorem lastOn?_mirrored (as : List Assignment) (side : Side) (name : String) :
    lastOn? (as.map mirrored) side name = lastOn? as side.other name := by
  have hconcerns : ∀ a : Assignment,
      a.mirrored.Concerns side name ↔ a.Concerns side.other name := by
    intro a
    simp only [Concerns, mirrored]
    cases a.side <;> cases side <;> simp [Side.other]
  induction as using List.reverseRecOn with
  | nil => rfl
  | append_singleton as a ih =>
    rw [List.map_append, List.map_singleton, lastOn?_append_singleton, lastOn?_append_singleton,
      ih]
    simp only [hconcerns]
    rfl

end Assignment

/-! ## Runs of assignments -/

namespace LastValues

open Assignment

/-- The last values of one side. -/
def on (l : LastValues) : Side → Latest
  | .old => l.old
  | .new => l.new

theorem text_on_step (l : LastValues) (a : Assignment) (side : Side) :
    ((l.step a).on side).text = (l.on side).text := by
  unfold step
  cases a.side <;> cases side <;> rfl

/-- One assignment changes the value of its name on its side and no
other. -/
theorem value?_on_step (l : LastValues) (a : Assignment) (side : Side) (name : String) :
    ((l.step a).on side).value? name =
      if a.Concerns side name then some ⟨(l.on side).text, a.value⟩
      else (l.on side).value? name := by
  obtain ⟨which, n, value⟩ := a
  cases which <;> cases side <;> simp [step, on, Concerns, Latest.value?_record]

theorem run_append_singleton (l : LastValues) (as : List Assignment) (a : Assignment) :
    l.run (as ++ [a]) = (l.run as).step a := by
  simp [run]

theorem text_on_run (l : LastValues) (as : List Assignment) (side : Side) :
    ((l.run as).on side).text = (l.on side).text := by
  induction as using List.reverseRecOn with
  | nil => rfl
  | append_singleton as a ih => rw [run_append_singleton, text_on_step, ih]

/-- A run leaves under each name of a side the value of the last assignment
to it, or the value that was there before the run. -/
theorem value?_on_run (l : LastValues) (as : List Assignment) (side : Side) (name : String) :
    ((l.run as).on side).value? name =
      ((lastOn? as side name).map (⟨(l.on side).text, ·⟩)).or ((l.on side).value? name) := by
  induction as using List.reverseRecOn with
  | nil => rfl
  | append_singleton as a ih =>
    rw [run_append_singleton, value?_on_step, lastOn?_append_singleton, text_on_run, ih]
    split <;> rfl

/-- No name has a value before a run, so the last assignments are all that
counts after it. -/
theorem value?_run_empty (s t : String) (as : List Assignment) (name : String) :
    ((empty s t).run as).old.value? name = (lastOn? as .old name).map (⟨s, ·⟩) ∧
      ((empty s t).run as).new.value? name = (lastOn? as .new name).map (⟨t, ·⟩) := by
  have hold := value?_on_run (empty s t) as .old name
  have hnew := value?_on_run (empty s t) as .new name
  have hnone : ∀ side, ((empty s t).on side).value? name = none := by
    intro side
    cases side <;> exact Latest.value?_empty _ name
  rw [hnone, Option.or_none] at hold hnew
  exact ⟨hold, hnew⟩

/-! ## What was edited -/

theorem edited_eq_false_iff_sameOptional (s t : String) (as : List Assignment) :
    ((empty s t).run as).edited = false ↔
      ∀ name, Excerpt.sameOptional ((lastOn? as .old name).map (⟨s, ·⟩))
        ((lastOn? as .new name).map (⟨t, ·⟩)) = true := by
  rw [edited, Bool.not_eq_false', Latest.agree_iff]
  simp only [(value?_run_empty s t as _).1, (value?_run_empty s t as _).2]

/-- Nothing was edited if the same names have a value on both sides and
their last values are the same. -/
theorem edited_eq_false_iff (s t : String) (as : List Assignment) :
    ((empty s t).run as).edited = false ↔
      (∀ name, (∃ a ∈ as, a.Concerns .old name) ↔ ∃ a ∈ as, a.Concerns .new name) ∧
        ∀ name a b, lastOn? as .old name = some a → lastOn? as .new name = some b →
          Excerpt.same ⟨s, a⟩ ⟨t, b⟩ = true := by
  simp only [edited_eq_false_iff_sameOptional, ← lastOn?_isSome_iff]
  rw [← forall_and]
  refine forall_congr' fun name => ?_
  cases lastOn? as .old name <;> cases lastOn? as .new name <;> simp [Excerpt.sameOptional]

/-- Whether something was edited depends on the last assignments only. -/
theorem edited_congr (s t : String) {as bs : List Assignment}
    (h : ∀ side name, lastOn? as side name = lastOn? bs side name) :
    ((empty s t).run as).edited = ((empty s t).run bs).edited := by
  rw [← Bool.not_inj_iff, ← Bool.coe_false_iff_false, edited_eq_false_iff_sameOptional,
    edited_eq_false_iff_sameOptional]
  simp only [h]

/-- The sides may be exchanged together with their texts. -/
theorem edited_mirrored (s t : String) (as : List Assignment) :
    ((empty t s).run (as.map mirrored)).edited = ((empty s t).run as).edited := by
  rw [← Bool.not_inj_iff, ← Bool.coe_false_iff_false, edited_eq_false_iff_sameOptional,
    edited_eq_false_iff_sameOptional]
  simp only [lastOn?_mirrored, Side.other]
  refine forall_congr' fun name => ?_
  rw [Excerpt.sameOptional_comm]

/-- **Two sides are compared by their last values.** However the
assignments to the two sides follow on each other, nothing counts as edited
exactly when the same names are assigned to on both sides and, for each of
them, the last values cover the same bytes. So of all assignments only the
last to each name on each side matters, two that concern different sides or
different names may change places, and the sides may be exchanged together
with their texts. -/
theorem edited_by_last_values :
    (∀ (s t : String) (as : List Assignment), ((empty s t).run as).edited = false ↔
      (∀ name, (∃ a ∈ as, a.Concerns .old name) ↔ ∃ a ∈ as, a.Concerns .new name) ∧
        ∀ name a b, lastOn? as .old name = some a → lastOn? as .new name = some b →
          Excerpt.same ⟨s, a⟩ ⟨t, b⟩ = true) ∧
    (∀ (s t : String) (as bs : List Assignment),
      (∀ side name, lastOn? as side name = lastOn? bs side name) →
        ((empty s t).run as).edited = ((empty s t).run bs).edited) ∧
    (∀ (s t : String) (before : List Assignment) (a b : Assignment) (after : List Assignment),
      a.side ≠ b.side ∨ a.name ≠ b.name →
        ((empty s t).run (before ++ a :: b :: after)).edited =
          ((empty s t).run (before ++ b :: a :: after)).edited) ∧
    ∀ (s t : String) (as : List Assignment),
      ((empty t s).run (as.map mirrored)).edited = ((empty s t).run as).edited := by
  refine ⟨edited_eq_false_iff, fun s t _ _ => edited_congr s t, ?_, edited_mirrored⟩
  intro s t before a b after h
  refine edited_congr s t fun side name => ?_
  have hswap := lastOn?_swap h side name
  calc lastOn? (before ++ a :: b :: after) side name
    _ = lastOn? (before ++ ([a, b] ++ after)) side name := rfl
    _ = lastOn? (before ++ ([b, a] ++ after)) side name := by
      simp only [lastOn?_append, hswap]
    _ = lastOn? (before ++ b :: a :: after) side name := rfl

/-- A name that is given two values on the older side, the second of them
behind the value on the newer side. -/
def overwritten : List Assignment :=
  [⟨.old, "x", ⟨0, 1⟩⟩, ⟨.new, "x", ⟨0, 1⟩⟩, ⟨.old, "x", ⟨1, 2⟩⟩]

theorem edited_by_last_values_overwritten :
    ((empty "12" "21").run overwritten).edited = false ∧
    ((empty "12" "21").run (overwritten.drop 1)).edited = false ∧
    (Side.new ≠ Side.old ∨ "x" ≠ "x") ∧
    ((empty "12" "21").run [⟨.old, "x", ⟨0, 1⟩⟩, ⟨.old, "x", ⟨1, 2⟩⟩, ⟨.new, "x", ⟨0, 1⟩⟩]).edited =
      false ∧
    ((empty "12" "12").run overwritten).edited = true := by
  obtain ⟨hedited, hlast, hswap, -⟩ := edited_by_last_values
  have hsides : Side.new ≠ Side.old ∨ "x" ≠ "x" := by decide
  have hnames : ∀ name, (∃ a ∈ overwritten, a.Concerns .old name) ↔
      ∃ a ∈ overwritten, a.Concerns .new name := by
    intro name
    simp [overwritten, Concerns]
  have hsame : ((empty "12" "21").run overwritten).edited = false := by
    refine (hedited _ _ _).2 ⟨hnames, ?_⟩
    intro name a b ha hb
    by_cases hx : "x" = name
    · subst hx
      cases ha
      cases hb
      decide
    · simp [overwritten, lastOn?, Concerns, hx] at ha
  refine ⟨hsame, ?_, hsides, ?_, ?_⟩
  · rw [← hsame]
    refine hlast _ _ _ _ fun side name => ?_
    cases side <;> by_cases h : "x" = name <;> simp [overwritten, lastOn?, Concerns, h]
  · rw [← hsame]
    exact hswap _ _ [⟨.old, "x", ⟨0, 1⟩⟩] ⟨.old, "x", ⟨1, 2⟩⟩ ⟨.new, "x", ⟨0, 1⟩⟩ [] (by decide)
  · rw [← Bool.not_eq_false]
    intro hfalse
    have hx := ((hedited _ _ _).1 hfalse).2 "x" ⟨1, 2⟩ ⟨0, 1⟩ (by decide) (by decide)
    exact absurd hx (by decide)

end LastValues

end HotSwap
