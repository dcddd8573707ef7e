/-
HotSwap.Proofs.Numbering — the ids that the classes of a draft get.

Counting stops at the last id there is, so the ids of a file are the
numbers from its first id on, each clamped (`classIds_eq`). They are
distinct exactly as long as the count does not run out
(`nodup_map_after_iff`).
-/
import Mathlib.Data.List.Nodup
import HotSwap.Draft.Layout

namespace HotSwap

/-- The id that lies `n` ids behind this one, or the last id. -/
def ClassId.after (id : ClassId) (n : Nat) : ClassId := ⟨.ofNatClamp (id.number.toNat + n)⟩

theorem ClassId.toNat_after (id : ClassId) (n : Nat) :
    (id.after n).number.toNat = min (id.number.toNat + n) Span.maxOffset :=
  Span.toNat_ofNatClamp _

theorem ClassId.eq_of_toNat_eq {a b : ClassId} (h : a.number.toNat = b.number.toNat) : a = b :=
  congrArg mk (UInt32.toNat_inj.1 h)

theorem ClassId.toNat_le (id : ClassId) : id.number.toNat ≤ Span.maxOffset :=
  Nat.le_pred_of_lt id.number.toNat_lt

theorem ClassId.after_zero (id : ClassId) : id.after 0 = id := by
  have hle := id.toNat_le
  refine eq_of_toNat_eq ?_
  rw [toNat_after]
  omega

theorem ClassId.after_next (id : ClassId) (n : Nat) : id.next.after n = id.after (n + 1) := by
  refine eq_of_toNat_eq ?_
  rw [toNat_after, toNat_after, show id.next = id.after 1 from rfl, toNat_after]
  omega

theorem ClassId.next_after (id : ClassId) (n : Nat) : (id.after n).next = id.after (n + 1) := by
  refine eq_of_toNat_eq ?_
  rw [toNat_after, show (id.after n).next = (id.after n).after 1 from rfl, toNat_after, toNat_after]
  omega

/-- Ids in a row are distinct unless the last id comes up twice. -/
theorem ClassId.nodup_map_after_iff (id : ClassId) (n : Nat) :
    ((List.range n).map id.after).Nodup ↔
      n = 0 ∨ id.number.toNat + n - 1 ≤ Span.maxOffset := by
  have hle := id.toNat_le
  rw [List.nodup_map_iff_inj_on List.nodup_range]
  constructor
  · intro hinj
    by_contra hout
    have hlast : id.after (n - 2) = id.after (n - 1) := by
      refine eq_of_toNat_eq ?_
      rw [toNat_after, toNat_after]
      omega
    have hsame := hinj (n - 2) (List.mem_range.2 (by omega)) (n - 1)
      (List.mem_range.2 (by omega)) hlast
    omega
  · intro hin i hi j hj heq
    have hnumbers := congrArg (·.number.toNat) heq
    simp only [toNat_after] at hnumbers
    rw [List.mem_range] at hi hj
    omega

namespace Draft

/-- The steps of a file, each with the id that a class there would get. -/
def numbered (id : ClassId) : List Statement → List (ClassId × Statement)
  | [] => []
  | .verbatim piece :: rest => (id, .verbatim piece) :: numbered id rest
  | .declare c :: rest => (id, .declare c) :: numbered id.next rest

/-- The class that a step declares, if it declares one. -/
def Statement.class? : Statement → Option Class
  | verbatim _ => none
  | declare c => some c

/-- The classes of a file, in order. -/
def File.classes (f : File) : List Class := f.statements.filterMap (·.class?)

/-- The id of a numbered step's class. -/
def classId? (step : ClassId × Statement) : Option ClassId := step.2.class?.map fun _ => step.1

theorem map_snd_numbered (id : ClassId) (steps : List Statement) :
    (numbered id steps).map (·.2) = steps := by
  induction steps generalizing id with
  | nil => rfl
  | cons step steps ih =>
    cases step with
    | verbatim piece => rw [numbered, List.map_cons, ih]
    | declare c => rw [numbered, List.map_cons, ih]

/-- The classes of a file get the ids from the first one on. -/
theorem classIds_eq (id : ClassId) (steps : List Statement) :
    (numbered id steps).filterMap classId? =
      (List.range (steps.filterMap (·.class?)).length).map id.after := by
  induction steps generalizing id with
  | nil => rfl
  | cons step steps ih =>
    cases step with
    | verbatim piece => exact ih id
    | declare c =>
      have hrest : (List.range (steps.filterMap (·.class?)).length).map id.next.after =
          (List.range (steps.filterMap (·.class?)).length).map (id.after ∘ (· + 1)) :=
        List.map_congr_left fun n _ => id.after_next n
      show id :: (numbered id.next steps).filterMap classId? = _
      rw [ih, hrest, ← List.map_map]
      show _ = (List.range ((steps.filterMap (·.class?)).length + 1)).map id.after
      rw [List.range_succ_eq_map, List.map_cons, id.after_zero]

/-- The ids are distinct if the count does not run out. -/
theorem nodup_classIds {id : ClassId} {steps : List Statement}
    (h : id.number.toNat + (steps.filterMap (·.class?)).length ≤ UInt32.size) :
    ((numbered id steps).filterMap classId?).Nodup := by
  rw [classIds_eq, id.nodup_map_after_iff, Span.maxOffset]
  omega

end Draft

end HotSwap
