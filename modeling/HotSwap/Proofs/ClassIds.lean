/-
HotSwap.Proofs.ClassIds — the ids that classes are given as a file is
written, and the classes that are found by them.

A file that is written step by step is the file that is laid out as a
whole: each step continues the text and the tree of the steps before it
(`step_written`), so a run does (`run_written`). The steps answer with the
ids in a row (`answers_run`), and a file is searched from the front
(`Source.class?_eq_some_iff`). So an id that was given once finds its own
class, and the last id, which is given again and again when the count has
run out, finds the first class that got it (`classes_found_by_id`).
-/
import HotSwap.Draft.Manuscript
import HotSwap.Proofs.Concatenation
import HotSwap.Proofs.DraftDiff

namespace HotSwap

/-! ## Writing step by step -/

namespace Draft

open HotSwap.Layout (joined)

theorem idsUsed_append (a b : List Statement) : idsUsed (a ++ b) = idsUsed a + idsUsed b := by
  rw [idsUsed, List.filterMap_append, List.length_append, ← idsUsed, ← idsUsed]

namespace Manuscript

/-- The manuscript in which a draft has been written. -/
def written (f : File) : Manuscript :=
  ⟨f.path, f.text, f.source.statements, f.firstId.after (idsUsed f.statements)⟩

theorem start_eq_written (path : String) (first : ClassId) :
    start path first = written ⟨path, first, []⟩ := by
  rw [written, start, idsUsed, List.filterMap_nil, List.length_nil, first.after_zero]
  rfl

theorem separator_written (path : String) (first : ClassId) {steps : List Statement}
    (h : steps ≠ []) : (written ⟨path, first, steps⟩).separator = "\n" := by
  obtain ⟨l, ls, hls⟩ := List.exists_cons_of_ne_nil (statementLayouts_ne_nil first h)
  have hstatements : (written ⟨path, first, steps⟩).statements ≠ [] := by
    simp [written, File.source, File.layout, hls, joined]
  rw [separator, if_neg (by simpa using hstatements)]

/-- A statement that is appended continues the text and the tree. -/
theorem append_written (path : String) (first : ClassId) (steps : List Statement)
    (step : Statement) {l : Layout HotSwap.Statement}
    (hl : statementLayouts (first.after (idsUsed steps)) [step] = [l]) :
    (written ⟨path, first, steps⟩).append l =
      { written ⟨path, first, steps ++ [step]⟩ with
        nextId := first.after (idsUsed steps) } := by
  have htext : (File.mk path (first.after (idsUsed steps)) [step]).text = l.text := by
    rw [← File.text_layout, File.layout, hl]
    simp [joined, Layout.each]
  have hplace : ∀ n, (File.mk path (first.after (idsUsed steps)) [step]).layout.place n =
      [l.place n] := by
    intro n
    rw [File.layout, hl]
    rfl
  rcases eq_or_ne steps [] with rfl | hsteps
  · have hids : first.after (idsUsed []) = first := first.after_zero
    rw [hids] at htext hplace ⊢
    rw [← start_eq_written]
    simp only [append, start, separator, written, List.nil_append, Manuscript.mk.injEq, true_and,
      and_true]
    exact ⟨by simpa using htext.symm, (hplace 0).symm⟩
  · have hstep : [step] ≠ [] := List.cons_ne_nil _ _
    have htexts := File.text_append path first (first.after (idsUsed steps)) hsteps hstep
    have hstatements := File.statements_source_append path first hsteps hstep
    rw [htext] at htexts
    rw [hplace] at hstatements
    rw [append, separator_written path first hsteps, String.utf8ByteSize_append]
    simp only [written, htexts, hstatements]
    rfl

theorem step_written (path : String) (first : ClassId) (steps : List Statement)
    (step : Statement) :
    ((written ⟨path, first, steps⟩).step step).2 = written ⟨path, first, steps ++ [step]⟩ := by
  cases step with
  | verbatim piece =>
    have hids : idsUsed (steps ++ [.verbatim piece]) = idsUsed steps := idsUsed_append steps _
    rw [Manuscript.step, write, append_written path first steps (.verbatim piece) rfl, written,
      hids]
  | declare c =>
    have hids : idsUsed (steps ++ [.declare c]) = idsUsed steps + 1 := idsUsed_append steps _
    have hnext : (written ⟨path, first, steps⟩).nextId = first.after (idsUsed steps) := rfl
    rw [Manuscript.step, declare, hnext, append_written path first steps (.declare c) rfl,
      first.next_after, ← hids]
    rfl

/-- Steps that are taken after others continue what those have written. -/
theorem run_written (path : String) (first : ClassId) (before steps : List Statement) :
    ((written ⟨path, first, before⟩).run steps).2 = written ⟨path, first, before ++ steps⟩ := by
  induction steps generalizing before with
  | nil =>
    rw [List.append_nil]
    rfl
  | cons step steps ih =>
    rw [List.append_cons, ← ih, ← step_written]
    rfl

/-- Each step answers with the id that its class gets. -/
theorem answers_run (m : Manuscript) (steps : List Statement) :
    (m.run steps).1 = (numbered m.nextId steps).map classId? := by
  induction steps generalizing m with
  | nil => rfl
  | cons step steps ih =>
    cases step with
    | verbatim piece => exact congrArg (none :: ·) (ih (m.write piece))
    | declare c => exact congrArg (some m.nextId :: ·) (ih (m.declare c).2)

/-- A file that is written step by step is the one that is laid out as a
whole. -/
theorem finish_run_start (f : File) :
    ((start f.path f.firstId).run f.statements).2.finish = f.build := by
  rw [start_eq_written, run_written, List.nil_append, finish, File.build, written,
    ← File.text_source]
  rfl

/-- The answers of a run are the ids in a row, one for each class. -/
theorem reduceOption_answers_run (f : File) :
    ((start f.path f.firstId).run f.statements).1.reduceOption =
      (List.range f.classes.length).map f.firstId.after := by
  rw [answers_run]
  show ((numbered f.firstId f.statements).map classId?).filterMap id = _
  rw [List.filterMap_map]
  exact classIds_eq f.firstId f.statements

end Manuscript

/-- The classes of a tree depict the classes of the draft, in order. -/
theorem File.Depicts.classes {f : File} {s : Source} (h : f.Depicts s) :
    List.Forall₂ (fun c placed => c.Depicts s.text placed.id placed) f.classes s.classes := by
  have hdrafted : f.classes =
      (numbered f.firstId f.statements).filterMap fun step => step.2.class? := by
    conv_lhs => rw [File.classes, ← map_snd_numbered f.firstId f.statements, List.filterMap_map]
    rfl
  rw [hdrafted, Source.classes]
  refine List.rel_filterMap (fun step x hx => ?_) h
  obtain ⟨id, a⟩ := step
  cases a with
  | verbatim piece =>
    rw [hx.declared_eq_none]
    exact .none
  | declare c =>
    obtain ⟨placed, hplaced, hc⟩ := hx.exists_declared
    rw [hplaced]
    exact .some (hc.id ▸ hc)

/-- The place of a class among the classes says which id it has. -/
theorem File.Depicts.toNat_id {f : File} {s : Source} (h : f.Depicts s) {i : Nat}
    {placed : HotSwap.Class} (hplaced : s.classes[i]? = some placed) :
    placed.id.number.toNat = min (f.firstId.number.toNat + i) Span.maxOffset := by
  have hids : s.classes.map (·.id) = (List.range f.classes.length).map f.firstId.after :=
    h.map_id_classes.trans (classIds_eq f.firstId f.statements)
  obtain ⟨hi, -⟩ := List.getElem?_eq_some_iff.1 hplaced
  have hid : (s.classes.map (·.id))[i]? = some placed.id := by
    rw [List.getElem?_map, hplaced]
    rfl
  rw [hids, List.getElem?_map, List.getElem?_range (h.classes.length_eq ▸ hi)] at hid
  rw [← Option.some.inj hid, ClassId.toNat_after]

end Draft

/-! ## Finding a class by its id -/

namespace Source

/-- Of the classes with an id, the first one is found. -/
theorem class?_eq_some_iff (s : Source) (id : ClassId) (c : Class) :
    s.class? id = some c ↔ ∃ i : Nat, s.classes[i]? = some c ∧ c.id = id ∧
      ∀ j < i, (s.classes.map (·.id))[j]? ≠ some id := by
  rw [class?, List.find?_eq_some_iff_getElem]
  simp only [decide_eq_true_eq, List.getElem?_eq_some_iff, List.getElem?_map, Bool.not_eq_true',
    decide_eq_false_iff_not, ne_eq, Option.map_eq_some_iff]
  constructor
  · rintro ⟨hid, i, hi, rfl, hbefore⟩
    refine ⟨i, ⟨hi, rfl⟩, hid, fun j hj h => ?_⟩
    obtain ⟨d, ⟨hlt, rfl⟩, hd⟩ := h
    exact hbefore j hj hd
  · rintro ⟨i, ⟨hi, rfl⟩, hid, hbefore⟩
    exact ⟨hid, i, hi, rfl, fun j hj hd => hbefore j hj ⟨_, ⟨Nat.lt_trans hj hi, rfl⟩, hd⟩⟩

theorem class?_eq_none_iff (s : Source) (id : ClassId) :
    s.class? id = none ↔ id ∉ s.classes.map (·.id) := by
  simp [class?, List.find?_eq_none]

/-- Where ids are distinct, each class is found by its own. -/
theorem class?_of_nodup {s : Source} (hnodup : (s.classes.map (·.id)).Nodup) {i : Nat}
    {c : Class} (hc : s.classes[i]? = some c) : s.class? c.id = some c := by
  have hid : (s.classes.map (·.id))[i]? = some c.id := by
    rw [List.getElem?_map, hc]
    rfl
  obtain ⟨hi, -⟩ := List.getElem?_eq_some_iff.1 hid
  refine (s.class?_eq_some_iff c.id c).2 ⟨i, hc, rfl, fun j hj hsame => ?_⟩
  exact List.nodup_iff_getElem?_ne_getElem?.1 hnodup j i hj hi (hsame.trans hid.symm)

end Source

/-! ## The ids of a file -/

/-- The last id there is. -/
def ClassId.last : ClassId := ⟨.ofNatClamp Span.maxOffset⟩

theorem ClassId.toNat_last : last.number.toNat = Span.maxOffset := rfl

namespace Draft.File

/-- Where the last id is reached, it finds the first class that got it. -/
theorem Depicts.class?_last {f : File} {s : Source} (h : f.Depicts s)
    (hreached : Span.maxOffset < f.firstId.number.toNat + f.classes.length) :
    ∃ (i : Nat) (placed : HotSwap.Class), f.firstId.number.toNat + i = Span.maxOffset ∧
      s.classes[i]? = some placed ∧ placed.id = .last ∧
      (∀ j < i, (s.classes.map (·.id))[j]? ≠ some .last) ∧ s.class? .last = some placed := by
  have hle := f.firstId.toNat_le
  obtain ⟨i, hi⟩ := Nat.exists_eq_add_of_le hle
  have hlt : i < s.classes.length := by
    rw [← h.classes.length_eq]
    omega
  have hplaced : s.classes[i]? = some s.classes[i] := List.getElem?_eq_getElem hlt
  have hlast : s.classes[i].id = .last := by
    refine ClassId.eq_of_toNat_eq ?_
    rw [h.toNat_id hplaced, ClassId.toNat_last]
    omega
  have hfirst : ∀ j < i, (s.classes.map (·.id))[j]? ≠ some .last := by
    intro j hj hsame
    rw [List.getElem?_map] at hsame
    obtain ⟨earlier, hearlier, hid⟩ := Option.map_eq_some_iff.1 hsame
    have hnumber := h.toNat_id hearlier
    rw [hid, ClassId.toNat_last] at hnumber
    omega
  exact ⟨i, _, hi.symm, hplaced, hlast, hfirst,
    (s.class?_eq_some_iff _ _).2 ⟨i, hplaced, hlast, hfirst⟩⟩

/-- **Classes by their ids.** When a draft that fits is written step by
step, its classes answer with the numbers from the first id on, each of
them at most the last id, and carry the id that they answered with. These
ids are distinct exactly if the count does not run past the last id, and
then each of them finds its own class. Other ids find nothing, and if the
last id is reached, it finds the first class that got it. -/
theorem classes_found_by_id (f : File) (hfits : f.text.utf8ByteSize ≤ Span.maxOffset) :
    ∃ (ids : List ClassId) (s : Source),
      ((Manuscript.start f.path f.firstId).run f.statements).1.reduceOption = ids ∧
      ((Manuscript.start f.path f.firstId).run f.statements).2.finish = .ok s ∧
      f.build = .ok s ∧ ids.length = f.classes.length ∧
      (∀ (i : Nat) (c : Class), f.classes[i]? = some c → ∃ placed : HotSwap.Class,
        ids[i]? = some placed.id ∧
          placed.id.number.toNat = min (f.firstId.number.toNat + i) Span.maxOffset ∧
          s.classes[i]? = some placed ∧ c.Depicts s.text placed.id placed) ∧
      (ids.Nodup ↔ f.classes.length = 0 ∨
        f.firstId.number.toNat + f.classes.length - 1 ≤ Span.maxOffset) ∧
      (ids.Nodup → ∀ (i : Nat) (id : ClassId), ids[i]? = some id →
        s.class? id = s.classes[i]?) ∧
      (∀ id, id ∉ ids → s.class? id = none) ∧
      (Span.maxOffset < f.firstId.number.toNat + f.classes.length →
        ∃ (i : Nat) (placed : HotSwap.Class), f.firstId.number.toNat + i = Span.maxOffset ∧
          s.classes[i]? = some placed ∧ placed.id = .last ∧
          (∀ j < i, ids[j]? ≠ some .last) ∧ s.class? .last = some placed) := by
  have hdepicts := f.depicts_source hfits
  have hids : (List.range f.classes.length).map f.firstId.after = f.source.classes.map (·.id) :=
    (hdepicts.map_id_classes.trans (classIds_eq f.firstId f.statements)).symm
  refine ⟨_, f.source, Manuscript.reduceOption_answers_run f, ?_, f.build_eq_ok hfits, ?_, ?_,
    f.firstId.nodup_map_after_iff _, ?_, ?_, ?_⟩
  · rw [Manuscript.finish_run_start, f.build_eq_ok hfits]
  · rw [List.length_map, List.length_range]
  · intro i c hc
    obtain ⟨hnone, -⟩ | ⟨_, placed, hsome, hplaced, hdepicted⟩ :=
      rel_cases (rel_getElem? hdepicts.classes i)
    · rw [hc] at hnone
      cases hnone
    · cases hc.symm.trans hsome
      refine ⟨placed, ?_, hdepicts.toNat_id hplaced, hplaced, hdepicted⟩
      rw [hids, List.getElem?_map, hplaced]
      rfl
  · rw [hids]
    intro hnodup i id hid
    rw [List.getElem?_map] at hid
    obtain ⟨placed, hplaced, rfl⟩ := Option.map_eq_some_iff.1 hid
    rw [hplaced]
    exact Source.class?_of_nodup hnodup hplaced
  · rw [hids]
    exact fun id hid => (f.source.class?_eq_none_iff id).2 hid
  · rw [hids]
    exact hdepicts.class?_last

/-- A file whose count of classes runs out: the last id is given twice. -/
def crowdFile : File where
  path := "crowd.ts"
  firstId := ⟨4294967294⟩
  statements := [.verbatim "", .declare { name := some "A" }, .declare { name := some "B" },
    .verbatim "let x;", .declare { name := some "C" }]

theorem classes_found_by_id_crowdFile :
    crowdFile.text.utf8ByteSize ≤ Span.maxOffset ∧
    Span.maxOffset < crowdFile.firstId.number.toNat + crowdFile.classes.length ∧
    ∃ (ids : List ClassId) (s : Source),
      ((Manuscript.start "crowd.ts" ⟨4294967294⟩).run crowdFile.statements).1.reduceOption = ids ∧
      crowdFile.build = .ok s ∧ ¬ ids.Nodup ∧ ⟨3⟩ ∉ ids ∧ s.class? ⟨3⟩ = none ∧
      (s.class? .last).map (·.nameText?) = some (some "B") := by
  have hfits : crowdFile.text.utf8ByteSize ≤ Span.maxOffset := by decide
  have hreached : Span.maxOffset < crowdFile.firstId.number.toNat + crowdFile.classes.length := by
    decide
  obtain ⟨ids, s, hids, -, hbuild, -, hclasses, hnodup, -, hother, hlast⟩ :=
    classes_found_by_id crowdFile hfits
  have hthree : ⟨3⟩ ∉ ids := by
    rw [← hids]
    decide
  obtain ⟨b, -, -, hb, hdepicts⟩ := hclasses 1 { name := some "B" } rfl
  obtain ⟨i, placed, hi, hplaced, -, -, hfound⟩ := hlast hreached
  have hfirst : crowdFile.firstId.number.toNat + 1 = Span.maxOffset := rfl
  have hone : i = 1 := by omega
  rw [hone] at hplaced
  cases hplaced.symm.trans hb
  refine ⟨hfits, hreached, ids, s, hids, hbuild, ?_, hthree, hother _ hthree, ?_⟩
  · rw [hnodup]
    decide
  · rw [hfound]
    exact congrArg some hdepicts.nameText?_eq

end Draft.File

end HotSwap
