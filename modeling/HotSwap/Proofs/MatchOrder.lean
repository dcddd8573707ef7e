/-
HotSwap.Proofs.MatchOrder — which older field a newer one is matched with.

Older fields come to wait and newer ones are matched in any order of the
two. A match takes the field that has waited longest, whether or not the
two are the same, and it takes none if none waits. `Tally` keeps the books
of a history by this rule alone: every field that ever waited and every
match that took one. The queue is what the books say
(`Agrees.step`, `agrees_run`), so the n-th match that takes a field is
compared with the n-th field that came to wait (`answers_run`).
-/
import Mathlib.Data.List.Forall2
import Mathlib.Data.List.Induction
import HotSwap.Metadata.Change

namespace HotSwap

namespace Pending

/-! ## The books of a history -/

/-- The fields that came to wait and the matches that took one, each from
the first to the last. -/
structure Tally where
  pushed : List Span
  taken : List Excerpt

/-- A match takes a field unless each field that came to wait is taken. -/
def Tally.note (t : Tally) : Move → Tally
  | .push field => { t with pushed := t.pushed ++ [field] }
  | .matchNext field =>
    if t.taken.length < t.pushed.length then { t with taken := t.taken ++ [field] } else t

/-- The books of a history. -/
def tally (moves : List Move) : Tally := moves.foldl Tally.note ⟨[], []⟩

/-- What a match answers that takes an older field of a text. -/
def compared (text : String) (older : Span) (newer : Excerpt) : Except Obstacle Unit :=
  if Excerpt.same ⟨text, older⟩ newer then .ok () else .error .fixedChanged

theorem tally_append_singleton (moves : List Move) (move : Move) :
    tally (moves ++ [move]) = (tally moves).note move := by
  simp [tally]

theorem run_append (p : Pending) (moves more : List Move) :
    p.run (moves ++ more) =
      ((p.run moves).1 ++ ((p.run moves).2.run more).1, ((p.run moves).2.run more).2) := by
  induction moves generalizing p with
  | nil => rfl
  | cons move moves ih => simp [run, ih]

theorem run_append_singleton (p : Pending) (moves : List Move) (move : Move) :
    p.run (moves ++ [move]) =
      ((p.run moves).1 ++ ((p.run moves).2.step move).1.toList, ((p.run moves).2.step move).2) := by
  simp [run_append, run]

/-! ## The queue is what the books say -/

/-- The fields that wait are those that came to wait and are not taken. -/
structure Agrees (p : Pending) (t : Tally) : Prop where
  queue : p.queue = t.pushed.drop t.taken.length
  le : t.taken.length ≤ t.pushed.length

namespace Agrees

variable {p : Pending} {t : Tally}

theorem queue_eq_nil_iff (h : p.Agrees t) :
    p.queue = [] ↔ t.taken.length = t.pushed.length := by
  have hle := h.le
  rw [h.queue, List.drop_eq_nil_iff]
  omega

/-- The field at the head of the queue is the first that is not taken. -/
theorem head_eq (h : p.Agrees t) {head : Span} {rest : List Span}
    (hqueue : p.queue = head :: rest) :
    t.pushed[t.taken.length]? = some head ∧ rest = t.pushed.drop (t.taken.length + 1) := by
  have hdrop : t.pushed.drop t.taken.length = head :: rest := h.queue ▸ hqueue
  refine ⟨?_, ?_⟩
  · rw [← List.head?_drop, hdrop]
    rfl
  · rw [← List.tail_drop, hdrop]
    rfl

theorem step (h : p.Agrees t) (move : Move) : (p.step move).2.Agrees (t.note move) := by
  have hle := h.le
  cases move with
  | push field =>
    refine ⟨?_, ?_⟩
    · show p.queue ++ [field] = (t.pushed ++ [field]).drop t.taken.length
      rw [h.queue, List.drop_append_of_le_length hle]
    · show t.taken.length ≤ (t.pushed ++ [field]).length
      rw [List.length_append]
      omega
  | matchNext field =>
    cases hqueue : p.queue with
    | nil =>
      -- Nothing waits, so nothing is taken.
      have hall := h.queue_eq_nil_iff.1 hqueue
      have hnote : t.note (.matchNext field) = t := by
        simp [Tally.note, hall]
      rw [hnote]
      refine ⟨?_, hle⟩
      simp [Pending.step, matchNext, hqueue, ← h.queue]
    | cons head rest =>
      obtain ⟨hhead, hrest⟩ := h.head_eq hqueue
      have hlt : t.taken.length < t.pushed.length := (List.getElem?_eq_some_iff.1 hhead).1
      have hnote : t.note (.matchNext field) = { t with taken := t.taken ++ [field] } := by
        simp [Tally.note, hlt]
      rw [hnote]
      refine ⟨?_, ?_⟩
      · show (p.matchNext field).2.queue = t.pushed.drop (t.taken ++ [field]).length
        rw [List.length_append, List.length_singleton, ← hrest]
        simp [matchNext, hqueue]
      · show (t.taken ++ [field]).length ≤ t.pushed.length
        rw [List.length_append, List.length_singleton]
        omega

end Agrees

theorem text_step (p : Pending) (move : Move) : (p.step move).2.text = p.text := by
  cases move with
  | push field => rfl
  | matchNext field =>
    unfold step matchNext
    cases p.queue <;> rfl

theorem text_run (p : Pending) (moves : List Move) : (p.run moves).2.text = p.text := by
  induction moves using List.reverseRecOn with
  | nil => rfl
  | append_singleton moves move ih => rw [run_append_singleton, text_step, ih]

theorem agrees_run (text : String) (moves : List Move) :
    ((empty text).run moves).2.Agrees (tally moves) := by
  induction moves using List.reverseRecOn with
  | nil => exact ⟨rfl, Nat.le_refl 0⟩
  | append_singleton moves move ih =>
    rw [run_append_singleton, tally_append_singleton]
    exact ih.step move

/-! ## Answers -/

namespace Agrees

variable {p : Pending} {t : Tally}

/-- A match answers that a field was added exactly when each field that
came to wait is taken. -/
theorem matchNext_eq_fixedAdded_iff (h : p.Agrees t) (field : Excerpt) :
    (p.matchNext field).1 = .error .fixedAdded ↔ t.taken.length = t.pushed.length := by
  rw [← h.queue_eq_nil_iff]
  unfold matchNext
  cases p.queue with
  | nil => simp
  | cons head rest =>
    simp only [reduceCtorEq, iff_false]
    split <;> simp

/-- A match that takes a field is compared with the first that is not
taken yet. -/
theorem matchNext_eq_compared (h : p.Agrees t) (field : Excerpt) {older : Span}
    (holder : t.pushed[t.taken.length]? = some older) :
    (p.matchNext field).1 = compared p.text older field := by
  cases hqueue : p.queue with
  | nil =>
    have hlt := (List.getElem?_eq_some_iff.1 holder).1
    have hall := h.queue_eq_nil_iff.1 hqueue
    omega
  | cons head rest =>
    obtain ⟨hhead, -⟩ := h.head_eq hqueue
    rw [holder, Option.some.injEq] at hhead
    subst hhead
    simp [matchNext, hqueue, compared]

theorem finish_eq (h : p.Agrees t) :
    p.finish = if t.taken.length = t.pushed.length then .ok () else .error .fixedRemoved := by
  unfold finish
  simp only [← h.queue_eq_nil_iff, List.isEmpty_iff]

end Agrees

theorem compared_ne_fixedAdded (text : String) (older : Span) (newer : Excerpt) :
    compared text older newer ≠ .error .fixedAdded := by
  unfold compared
  split <;> simp

/-- The matches that take a field answer, one after another, how they
compare with the fields in the order in which these came to wait. -/
theorem answers_run (text : String) (moves : List Move) :
    ((empty text).run moves).1.filter (· ≠ .error .fixedAdded) =
      List.zipWith (compared text) ((tally moves).pushed.take (tally moves).taken.length)
        (tally moves).taken := by
  induction moves using List.reverseRecOn with
  | nil => rfl
  | append_singleton moves move ih =>
    have hagrees := agrees_run text moves
    have hle := hagrees.le
    rw [run_append_singleton, tally_append_singleton, List.filter_append, ih]
    cases move with
    | push field => simp [step, Tally.note, List.take_append_of_le_length hle]
    | matchNext field =>
      show _ ++ List.filter _ [(((empty text).run moves).2.matchNext field).1] = _
      by_cases hlt : (tally moves).taken.length < (tally moves).pushed.length
      · -- The match takes the first field that is not taken, which then is the
        -- last one on either side of the `zipWith`.
        have holder := List.getElem?_eq_getElem hlt
        have htaken : ((tally moves).pushed.take (tally moves).taken.length).length =
            (tally moves).taken.length := by
          rw [List.length_take]
          omega
        rw [hagrees.matchNext_eq_compared field holder, text_run, Tally.note, if_pos hlt,
          List.length_append, List.length_singleton, List.take_add_one, holder,
          List.zipWith_append htaken]
        simp [compared_ne_fixedAdded, empty]
      · -- The answer is that a field was added, which the filter leaves out.
        have hall : (tally moves).taken.length = (tally moves).pushed.length := by omega
        rw [(hagrees.matchNext_eq_fixedAdded_iff field).2 hall]
        simp [Tally.note, hlt]

/-! ## First all older fields, then all newer ones -/

theorem run_push (p : Pending) (fields : List Span) :
    p.run (fields.map .push) = ([], { p with queue := p.queue ++ fields }) := by
  induction fields generalizing p with
  | nil => simp [run]
  | cons field fields ih => simp [run, step, push, ih]

/-- All matches succeed and no field is left over exactly when the fields
that wait are the same as the newer ones, one for one. -/
theorem run_matchNext_ok_iff (p : Pending) (newer : List Excerpt) :
    ((∀ answer ∈ (p.run (newer.map .matchNext)).1, answer = .ok ()) ∧
        (p.run (newer.map .matchNext)).2.finish = .ok ()) ↔
      List.Forall₂ (fun f g => Excerpt.same ⟨p.text, f⟩ g = true) p.queue newer := by
  induction newer generalizing p with
  | nil =>
    unfold finish
    cases hqueue : p.queue <;> simp [run, hqueue]
  | cons field newer ih =>
    cases hqueue : p.queue with
    | nil => simp [run, step, matchNext, hqueue]
    | cons head rest =>
      have hrest := ih { p with queue := rest }
      -- One match that fails is enough, whatever the later ones answer.
      cases hsame : Excerpt.same ⟨p.text, head⟩ field with
      | false => simp [run, step, matchNext, hqueue, hsame]
      | true => simpa [run, step, matchNext, hqueue, hsame] using hrest

/-! ## Histories in full -/

/-- All that a history of moves answers is read off its books. -/
structure InOrder (text : String) (moves : List Move) : Prop where
  queue : ((empty text).run moves).2.queue =
    (tally moves).pushed.drop (tally moves).taken.length
  taken_le : (tally moves).taken.length ≤ (tally moves).pushed.length
  /-- No field waits for the next match. -/
  added : ∀ field, (((empty text).run moves).2.matchNext field).1 = .error .fixedAdded ↔
    (tally moves).taken.length = (tally moves).pushed.length
  /-- The next match is compared with the first field that is not taken. -/
  compared : ∀ field older, (tally moves).pushed[(tally moves).taken.length]? = some older →
    (((empty text).run moves).2.matchNext field).1 = compared text older field
  /-- So the matches that took a field were compared with the fields that
  came to wait, the first with the first and so on. -/
  answers : ((empty text).run moves).1.filter (· ≠ .error .fixedAdded) =
    List.zipWith (Pending.compared text) ((tally moves).pushed.take (tally moves).taken.length)
      (tally moves).taken
  finish : ((empty text).run moves).2.finish =
    if (tally moves).taken.length = (tally moves).pushed.length then .ok ()
    else .error .fixedRemoved

theorem inOrder (text : String) (moves : List Move) : InOrder text moves where
  queue := (agrees_run text moves).queue
  taken_le := (agrees_run text moves).le
  added := (agrees_run text moves).matchNext_eq_fixedAdded_iff
  compared field older holder := by
    rw [(agrees_run text moves).matchNext_eq_compared field holder, text_run]
    rfl
  answers := answers_run text moves
  finish := (agrees_run text moves).finish_eq

/-- **Fields are matched in the order in which they came to wait.** At any
point of any history, a match answers that a field was added exactly when
each field that came to wait before is taken. Otherwise it takes one field,
also if the two differ, and the n-th match that takes one is compared with
the n-th field that came to wait. No field is left over exactly when as
many were taken as came to wait. So if all fields come to wait before the
first match, all answers are good exactly when the older fields and the
newer ones are the same, one for one and in order. -/
theorem matched_in_order :
    (∀ (text : String) (moves : List Move), InOrder text moves) ∧
    ∀ (text : String) (fields : List Span) (newer : List Excerpt),
      ((∀ answer ∈ ((empty text).run (fields.map .push ++ newer.map .matchNext)).1,
          answer = .ok ()) ∧
        ((empty text).run (fields.map .push ++ newer.map .matchNext)).2.finish = .ok ()) ↔
      List.Forall₂ (fun f g => Excerpt.same ⟨text, f⟩ g = true) fields newer := by
  refine ⟨inOrder, ?_⟩
  intro text fields newer
  simp only [run_append, run_push, List.nil_append]
  exact run_matchNext_ok_iff ⟨text, fields⟩ newer

/-- A match that comes too early takes nothing, and one that fails takes
the field all the same. -/
def unevenMoves : List Move :=
  [.matchNext ⟨"ab", ⟨0, 1⟩⟩, .push ⟨0, 1⟩, .push ⟨1, 2⟩, .matchNext ⟨"b", ⟨0, 1⟩⟩,
    .matchNext ⟨"b", ⟨0, 1⟩⟩]

theorem matched_in_order_unevenMoves :
    ((empty "ab").run unevenMoves).1.filter (· ≠ .error .fixedAdded) =
      [.error .fixedChanged, .ok ()] ∧
    ((empty "ab").run unevenMoves).2.finish = .ok () ∧
    (tally (unevenMoves.take 4)).pushed[(tally (unevenMoves.take 4)).taken.length]? =
      some ⟨1, 2⟩ ∧
    (((empty "ab").run (unevenMoves.take 4)).2.matchNext ⟨"ab", ⟨1, 2⟩⟩).1 = .ok () := by
  obtain ⟨hinOrder, -⟩ := matched_in_order
  have holder : (tally (unevenMoves.take 4)).pushed[(tally (unevenMoves.take 4)).taken.length]? =
      some ⟨1, 2⟩ := by decide
  refine ⟨?_, ?_, holder, ?_⟩
  · rw [(hinOrder "ab" unevenMoves).answers]
    decide
  · rw [(hinOrder "ab" unevenMoves).finish]
    decide
  · rw [(hinOrder "ab" (unevenMoves.take 4)).compared _ _ holder]
    decide

end Pending

end HotSwap
