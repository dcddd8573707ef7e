/-
HotSwap.Proofs.Related — options, lists and results that are related item
by item.

Two computations over related data are compared by carrying the relation
along: an option is looked through (`rel_cases`), a list is searched or
mapped, and a result is passed on (`AlikeResults.bind`).
-/
import Mathlib.Data.List.Forall2

namespace HotSwap

variable {α β δ ε : Type}

/-! ## Options -/

theorem rel_cases {R : α → β → Prop} {a : Option α} {b : Option β} (h : Option.Rel R a b) :
    (a = none ∧ b = none) ∨ ∃ x y, a = some x ∧ b = some y ∧ R x y := by
  cases h with
  | none => exact .inl ⟨rfl, rfl⟩
  | some h => exact .inr ⟨_, _, rfl, rfl, h⟩

theorem rel_map {R : α → β → Prop} {S : δ → ε → Prop} {f : α → δ} {g : β → ε} {a : Option α}
    {b : Option β} (h : Option.Rel R a b) (hmap : ∀ x y, R x y → S (f x) (g y)) :
    Option.Rel S (a.map f) (b.map g) := by
  cases h with
  | none => exact .none
  | some h => exact .some (hmap _ _ h)

theorem rel_map_right {R : α → β → Prop} {S : α → ε → Prop} {g : β → ε} {a : Option α}
    {b : Option β} (h : Option.Rel R a b) (hmap : ∀ x y, R x y → S x (g y)) :
    Option.Rel S a (b.map g) := by
  cases h with
  | none => exact .none
  | some h => exact .some (hmap _ _ h)

theorem rel_map_self {S : α → β → Prop} {g : α → β} {o : Option α}
    (h : ∀ a ∈ o, S a (g a)) : Option.Rel S o (o.map g) := by
  cases o with
  | none => exact .none
  | some a => exact .some (h a rfl)

theorem forall₂_toList {R : α → β → Prop} {a : Option α} {b : Option β}
    (h : Option.Rel R a b) : List.Forall₂ R a.toList b.toList := by
  cases h with
  | none => exact .nil
  | some h => exact .cons h .nil

/-! ## Lists -/

theorem forall₂_map_self {S : α → β → Prop} {g : α → β} {l : List α}
    (h : ∀ a ∈ l, S a (g a)) : List.Forall₂ S l (l.map g) := by
  rw [List.forall₂_map_right_iff, List.forall₂_same]
  exact h

theorem exists_mem_of_forall₂_right {R : α → β → Prop} {l : List α} {m : List β}
    (h : List.Forall₂ R l m) {b : β} (hb : b ∈ m) : ∃ a ∈ l, R a b := by
  induction h with
  | nil => cases hb
  | cons hfirst _ ih =>
    rcases List.mem_cons.1 hb with rfl | hb
    · exact ⟨_, List.mem_cons_self, hfirst⟩
    · obtain ⟨a, ha, hab⟩ := ih hb
      exact ⟨a, List.mem_cons_of_mem _ ha, hab⟩

/-- Lists that are related through a third are related. -/
theorem forall₂_trans {R : α → β → Prop} {S : β → δ → Prop} {T : α → δ → Prop} {l : List α}
    {m : List β} {n : List δ} (hR : List.Forall₂ R l m) (hS : List.Forall₂ S m n)
    (h : ∀ a b c, R a b → S b c → T a c) : List.Forall₂ T l n := by
  induction hR generalizing n with
  | nil =>
    cases hS
    exact .nil
  | cons hfirst _ ih =>
    cases hS with
    | cons hfirst' hrest' => exact .cons (h _ _ _ hfirst hfirst') (ih hrest')

theorem rel_getElem? {R : α → β → Prop} {l : List α} {m : List β} (h : List.Forall₂ R l m)
    (i : Nat) : Option.Rel R l[i]? m[i]? := by
  induction h generalizing i with
  | nil => exact .none
  | cons hfirst _ ih =>
    cases i with
    | zero => exact .some hfirst
    | succ i => exact ih i

/-- Lists of one length have items at the same places. -/
theorem exists_getElem?_of_length_eq {l : List α} {m : List β} (h : l.length = m.length)
    {i : Nat} {a : α} (ha : l[i]? = some a) : ∃ b, m[i]? = some b := by
  obtain ⟨hi, -⟩ := List.getElem?_eq_some_iff.1 ha
  exact ⟨_, List.getElem?_eq_getElem (h ▸ hi)⟩

theorem rel_find? {R : α → β → Prop} {p : α → Bool} {q : β → Bool} {l : List α} {m : List β}
    (h : List.Forall₂ R l m) (hpq : ∀ a b, R a b → p a = q b) :
    Option.Rel R (l.find? p) (m.find? q) := by
  induction h with
  | nil => exact .none
  | cons hfirst _ ih =>
    rw [List.find?_cons, List.find?_cons, hpq _ _ hfirst]
    split
    · exact .some hfirst
    · exact ih

theorem findIdx?_eq_of_related {R : α → β → Prop} {p : α → Bool} {q : β → Bool} {l : List α}
    {m : List β} (h : List.Forall₂ R l m) (hpq : ∀ a b, R a b → p a = q b) :
    l.findIdx? p = m.findIdx? q := by
  induction h with
  | nil => rfl
  | cons hfirst _ ih => rw [List.findIdx?_cons, List.findIdx?_cons, hpq _ _ hfirst, ih]

/-- Lists of related items are read as related lists, or neither is
read. -/
theorem rel_mapM {R : α → β → Prop} {S : δ → ε → Prop} {f : α → Option δ} {g : β → Option ε}
    {l : List α} {m : List β} (h : List.Forall₂ R l m)
    (hfg : ∀ a b, R a b → Option.Rel S (f a) (g b)) :
    Option.Rel (List.Forall₂ S) (l.mapM f) (m.mapM g) := by
  induction h with
  | nil => exact .some .nil
  | cons hfirst _ ih =>
    rw [List.mapM_cons, List.mapM_cons]
    rcases rel_cases (hfg _ _ hfirst) with ⟨ha, hb⟩ | ⟨x, y, ha, hb, hxy⟩
    · rw [ha, hb]
      exact .none
    · rcases rel_cases ih with ⟨hl, hm⟩ | ⟨xs, ys, hl, hm, hxys⟩
      · rw [ha, hb, hl, hm]
        exact .none
      · rw [ha, hb, hl, hm]
        exact .some (.cons hxy hxys)

/-- A relation between two lists can be read off from lists that they are
related to. -/
theorem forall₂_iff_of_related {D : δ → α → Prop} {E : ε → β → Prop} {R : α → β → Prop}
    {S : δ → ε → Prop} {ds : List δ} {es : List ε} {as : List α} {bs : List β}
    (ha : List.Forall₂ D ds as) (hb : List.Forall₂ E es bs)
    (h : ∀ d e a b, D d a → E e b → (R a b ↔ S d e)) :
    List.Forall₂ R as bs ↔ List.Forall₂ S ds es := by
  induction ha generalizing es bs with
  | nil => cases hb <;> simp
  | cons hfirst _ ih =>
    cases hb with
    | nil => simp
    | cons hfirst' hrest' =>
      rw [List.forall₂_cons, List.forall₂_cons, h _ _ _ _ hfirst hfirst', ih hrest']

theorem map_eq_of_related {γ : Type} {R : α → β → Prop} {f : α → γ} {g : β → γ} {l : List α}
    {m : List β} (h : List.Forall₂ R l m) (hfg : ∀ a b, R a b → f a = g b) :
    l.map f = m.map g := by
  rw [← List.forall₂_eq_eq_eq]
  exact List.rel_map hfg h

theorem filterMap_eq_of_related {γ : Type} {R : α → β → Prop} {f : α → Option γ}
    {g : β → Option γ} {l : List α} {m : List β} (h : List.Forall₂ R l m)
    (hfg : ∀ a b, R a b → f a = g b) : l.filterMap f = m.filterMap g := by
  have hmap := congrArg (List.filterMap id) (map_eq_of_related h hfg)
  rwa [List.filterMap_map, List.filterMap_map, Function.id_comp, Function.id_comp] at hmap

theorem forall₂_zip {D : δ → α → Prop} {E : ε → β → Prop} {R : α → β → Prop} {ds : List δ}
    {es : List ε} {as : List α} {bs : List β} (ha : List.Forall₂ D ds as)
    (hb : List.Forall₂ E es bs) (hR : List.Forall₂ R as bs) :
    List.Forall₂ (fun (p : α × β) (q : δ × ε) => D q.1 p.1 ∧ E q.2 p.2 ∧ R p.1 p.2)
      (as.zip bs) (ds.zip es) := by
  induction ha generalizing es bs with
  | nil => exact .nil
  | cons hfirst _ ih =>
    cases hb with
    | nil => exact .nil
    | cons hfirst' hrest' =>
      cases hR with
      | cons hR hRs => exact .cons ⟨hfirst, hfirst', hR⟩ (ih hrest' hRs)

/-! ## Results -/

/-- Both computations stop with the same error, or both give values that
are related. -/
inductive AlikeResults {ω : Type} (S : α → α → Prop) : Except ω α → Except ω α → Prop where
  | ok {a b : α} (h : S a b) : AlikeResults S (.ok a) (.ok b)
  | error (e : ω) : AlikeResults S (.error e) (.error e)

namespace AlikeResults

variable {ω : Type} {S : α → α → Prop} {T : β → β → Prop}

theorem bind {x y : Except ω α} {next next' : α → Except ω β} (h : AlikeResults S x y)
    (hnext : ∀ a b, S a b → AlikeResults T (next a) (next' b)) :
    AlikeResults T (x >>= next) (y >>= next') := by
  cases h with
  | ok h => exact hnext _ _ h
  | error e => exact .error e

theorem of_eq {x y : Except ω α} (h : x = y) : AlikeResults (· = ·) x y := by
  subst h
  cases x with
  | ok a => exact .ok rfl
  | error e => exact .error e

theorem eq {x y : Except ω α} (h : AlikeResults (· = ·) x y) : x = y := by
  cases h with
  | ok h => rw [h]
  | error e => rfl

end AlikeResults

end HotSwap
