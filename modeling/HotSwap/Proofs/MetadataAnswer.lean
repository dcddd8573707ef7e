/-
HotSwap.Proofs.MetadataAnswer — the answer to every comparison of two
metadata literals.

The older fixed fields wait in a queue and the newer ones are matched with
it one by one, in between the live fields. `Pending.matchAll_eq` says what
a whole run of matches comes to: it compares two lists place by place. So
the answer is read off the two lists of fixed fields and the last values of
the live ones (`change_of_fields`), also where the newer literal breaks off
at a property that is no field (`change_of_broken`). Exchanging the two
sides exchanges what was added and what was removed (`change_swapped`).
-/
import HotSwap.Proofs.Rebuilds
import HotSwap.Proofs.Unedited

namespace HotSwap

/-! ## Two lists of fields, place by place -/

/-- At some place that both lists have, the spans cover different bytes. -/
def Differs (oldText newText : String) (old new : List Span) : Prop :=
  ∃ (i : Nat) (a b : Span), old[i]? = some a ∧ new[i]? = some b ∧
    Excerpt.same ⟨oldText, a⟩ ⟨newText, b⟩ = false

section Differs

variable {s t : String}

theorem not_differs_nil_left (new : List Span) : ¬ Differs s t [] new := by
  rintro ⟨i, a, b, ha, -⟩
  simp at ha

theorem not_differs_nil_right (old : List Span) : ¬ Differs s t old [] := by
  rintro ⟨i, a, b, -, hb, -⟩
  simp at hb

theorem differs_cons_iff (a b : Span) (old new : List Span) :
    Differs s t (a :: old) (b :: new) ↔
      Excerpt.same ⟨s, a⟩ ⟨t, b⟩ = false ∨ Differs s t old new := by
  constructor
  · rintro ⟨i, x, y, hx, hy, hsame⟩
    cases i with
    | zero =>
      cases hx
      cases hy
      exact .inl hsame
    | succ i => exact .inr ⟨i, x, y, hx, hy, hsame⟩
  · rintro (hsame | ⟨i, x, y, hx, hy, hsame⟩)
    · exact ⟨0, a, b, rfl, rfl, hsame⟩
    · exact ⟨i + 1, x, y, hx, hy, hsame⟩

instance decidableDiffers : (old new : List Span) → Decidable (Differs s t old new)
  | [], new => isFalse (not_differs_nil_left new)
  | _ :: _, [] => isFalse (not_differs_nil_right _)
  | a :: old, b :: new =>
    have := decidableDiffers old new
    decidable_of_iff' _ (differs_cons_iff a b old new)

theorem differs_comm (old new : List Span) : Differs s t old new ↔ Differs t s new old := by
  constructor
  · rintro ⟨i, a, b, ha, hb, hsame⟩
    exact ⟨i, b, a, hb, ha, by rw [Excerpt.same_comm, hsame]⟩
  · rintro ⟨i, a, b, ha, hb, hsame⟩
    exact ⟨i, b, a, hb, ha, by rw [Excerpt.same_comm, hsame]⟩

end Differs

namespace Pending

/-- Match newer fields one after another, up to the first that does not
fit. -/
def matchAll (text : String) (p : Pending) : List Span → Except Obstacle Pending
  | [] => .ok p
  | field :: rest => do
    let (matched, p) := p.matchNext ⟨text, field⟩
    matched
    matchAll text p rest

/-- A run of matches takes as many fields from the queue as it is long. It
stops at the first place where the two differ, or at the end of the queue,
whichever comes first. -/
theorem matchAll_eq (text : String) (p : Pending) (fields : List Span) :
    p.matchAll text fields =
      if Differs p.text text p.queue fields then .error .fixedChanged
      else if p.queue.length < fields.length then .error .fixedAdded
      else .ok { p with queue := p.queue.drop fields.length } := by
  induction fields generalizing p with
  | nil => simp [matchAll, not_differs_nil_right]
  | cons field rest ih =>
    cases hqueue : p.queue with
    | nil => simp [matchAll, matchNext, hqueue, not_differs_nil_left]
    | cons head queue =>
      cases hsame : Excerpt.same ⟨p.text, head⟩ ⟨text, field⟩ with
      | false => simp [matchAll, matchNext, hqueue, hsame, differs_cons_iff]
      | true => simp [matchAll, matchNext, hqueue, hsame, differs_cons_iff, ih]

end Pending

theorem Property.not_isPlain_iff (p : Property) : ¬ p.IsPlain ↔ p.field? = none := by
  rw [p.isPlain_iff, not_exists, Option.eq_none_iff_forall_ne_some]

/-! ## The passes over a literal -/

namespace Metadata

/-- Where the fields stand that have to stay the same, in order. -/
def fixedSpans (fields : List Field) : List Span := (fixed fields).map (·.span)

theorem fixedSpans_cons_of_live {f : Field} (h : f.isLive = true) (fs : List Field) :
    fixedSpans (f :: fs) = fixedSpans fs := by
  rw [fixedSpans, fixed_cons_of_live h, ← fixedSpans]

theorem fixedSpans_cons_of_not_live {f : Field} (h : f.isLive = false) (fs : List Field) :
    fixedSpans (f :: fs) = f.span :: fixedSpans fs := by
  rw [fixedSpans, fixed_cons_of_not_live h, List.map_cons, ← fixedSpans]

/-- Reading the newer literal, up to any place in it, matches the fixed
fields up to there and records the live ones. -/
theorem matchNew_append (text : String) (pending : Pending) (latest : Latest)
    {before : List Property} {gs : List Field} (h : fields? before = some gs)
    (rest : List Property) :
    matchNew text pending latest (before ++ rest) =
      pending.matchAll text (fixedSpans gs) >>= fun pending =>
        matchNew text pending (latest.recordAll gs) rest := by
  induction before generalizing pending latest gs with
  | nil =>
    cases h
    rfl
  | cons p before ih =>
    cases hp : p.field? with
    | none => simp [fields?_cons_of_none hp] at h
    | some g =>
      rw [fields?_cons_of_some hp, Option.map_eq_some_iff] at h
      obtain ⟨gs, hgs, rfl⟩ := h
      rw [List.cons_append, matchNew, fieldOf_of_some hp, ok_bind]
      cases hlive : g.isLive with
      | true =>
        rw [fixedSpans_cons_of_live hlive, Latest.recordAll_cons_of_live hlive]
        exact ih pending _ hgs
      | false =>
        rw [fixedSpans_cons_of_not_live hlive, Latest.recordAll_cons_of_not_live hlive,
          Pending.matchAll]
        cases hnext : pending.matchNext ⟨text, g.span⟩ with
        | mk matched pending' =>
          cases matched with
          | error obstacle => rfl
          | ok _ => exact ih pending' latest hgs

/-- The older literal leaves its fixed fields waiting. -/
theorem liveSides_of_old {old : Metadata} {fs : List Field}
    (h : fields? old.properties = some fs) (new : Metadata) :
    liveSides old new =
      matchNew new.text ⟨old.text, fixedSpans fs⟩ (.empty new.text) new.properties >>=
        fun newValues => .ok ((Latest.empty old.text).recordAll fs, newValues) := by
  rw [liveSides, sortOld_eq, h]
  rfl

theorem fields?_eq_none_of_not_plain {ps : List Property} (h : ∃ p ∈ ps, ¬ p.IsPlain) :
    fields? ps = none := by
  rw [Option.eq_none_iff_forall_not_mem]
  intro fs hfs
  obtain ⟨p, hp, hplain⟩ := h
  exact hplain ((fields?_isSome_iff ps).1 ⟨fs, hfs⟩ p hp)

/-! ## The answer in full -/

/-- The last value of the name is on one side only, or covers different
bytes on the two sides. -/
def ValueDiffers (oldText newText : String) (old new : List Field) (name : String) : Prop :=
  (lastValue? old name).isSome ≠ (lastValue? new name).isSome ∨
    ∃ a b, lastValue? old name = some a ∧ lastValue? new name = some b ∧
      Excerpt.same ⟨oldText, a⟩ ⟨newText, b⟩ = false

section ValueDiffers

variable {s t : String} {fs gs : List Field}

theorem valueDiffers_iff (name : String) :
    ValueDiffers s t fs gs name ↔
      Excerpt.sameOptional ((lastValue? fs name).map (⟨s, ·⟩))
        ((lastValue? gs name).map (⟨t, ·⟩)) = false := by
  unfold ValueDiffers
  cases lastValue? fs name <;> cases lastValue? gs name <;> simp [Excerpt.sameOptional]

instance (name : String) : Decidable (ValueDiffers s t fs gs name) :=
  decidable_of_iff' _ (valueDiffers_iff name)

theorem lastValue?_of_not_mem {name : String} (h : name ∉ liveFields) (fs : List Field) :
    lastValue? fs name = none := by
  rw [lastValue?, Option.map_eq_none_iff, List.find?_eq_none]
  intro f _ hf
  obtain ⟨hlive, rfl⟩ := of_decide_eq_true hf
  exact h (List.contains_iff_mem.1 hlive)

/-- Only the names of live fields have to be looked at. -/
theorem exists_valueDiffers_iff :
    (∃ name ∈ liveFields, ValueDiffers s t fs gs name) ↔ ¬ SameLive s t fs gs := by
  simp only [SameLive, valueDiffers_iff, not_forall, Bool.not_eq_true]
  constructor
  · rintro ⟨name, -, h⟩
    exact ⟨name, h⟩
  · rintro ⟨name, h⟩
    refine ⟨name, ?_, h⟩
    by_contra hname
    simp [lastValue?_of_not_mem hname, Excerpt.sameOptional] at h

theorem valueDiffers_comm (name : String) :
    ValueDiffers s t fs gs name ↔ ValueDiffers t s gs fs name := by
  rw [valueDiffers_iff, valueDiffers_iff, Excerpt.sameOptional_comm]

end ValueDiffers

/-- The answer on two literals of fields: fixed fields are compared place
by place, then counted, and only then do live fields matter. -/
theorem change_of_fields {old new : Metadata} {fs gs : List Field}
    (hfs : fields? old.properties = some fs) (hgs : fields? new.properties = some gs) :
    change old new =
      if Differs old.text new.text (fixedSpans fs) (fixedSpans gs) then .blocked .fixedChanged
      else if (fixedSpans fs).length < (fixedSpans gs).length then .blocked .fixedAdded
      else if (fixedSpans gs).length < (fixedSpans fs).length then .blocked .fixedRemoved
      else if ∃ name ∈ liveFields, ValueDiffers old.text new.text fs gs name then .live
      else .unchanged := by
  have happend := matchNew_append new.text ⟨old.text, fixedSpans fs⟩ (.empty new.text) hgs []
  rw [List.append_nil] at happend
  rw [change, liveSides_of_old hfs, happend, Pending.matchAll_eq]
  by_cases hdiffers : Differs old.text new.text (fixedSpans fs) (fixedSpans gs)
  case pos => simp [hdiffers]
  by_cases hadded : (fixedSpans fs).length < (fixedSpans gs).length
  case pos => simp [hdiffers, hadded]
  by_cases hremoved : (fixedSpans gs).length < (fixedSpans fs).length
  case pos =>
    simp [hdiffers, hadded, hremoved, Nat.not_le.2 hremoved, matchNew, Pending.finish]
  have hempty : (fixedSpans fs).length ≤ (fixedSpans gs).length := Nat.not_lt.1 hremoved
  simp only [exists_valueDiffers_iff, ← agree_recordAll_iff]
  cases hagree : ((Latest.empty old.text).recordAll fs).agree
      ((Latest.empty new.text).recordAll gs) <;>
    simp [hdiffers, hadded, hremoved, hempty, hagree, matchNew, Pending.finish]

/-- The answer where the newer literal breaks off at a property that is no
field. A fixed field before that property is met first. -/
theorem change_of_broken {old new : Metadata} {fs gs : List Field} {before after : List Property}
    {p : Property} (hfs : fields? old.properties = some fs)
    (hnew : new.properties = before ++ p :: after) (hgs : fields? before = some gs)
    (hp : p.field? = none) :
    change old new =
      if Differs old.text new.text (fixedSpans fs) (fixedSpans gs) then .blocked .fixedChanged
      else if (fixedSpans fs).length < (fixedSpans gs).length then .blocked .fixedAdded
      else .blocked .notAField := by
  rw [change, liveSides_of_old hfs, hnew, matchNew_append _ _ _ hgs, Pending.matchAll_eq]
  by_cases hdiffers : Differs old.text new.text (fixedSpans fs) (fixedSpans gs)
  case pos => simp [hdiffers]
  by_cases hadded : (fixedSpans fs).length < (fixedSpans gs).length
  case pos => simp [hdiffers, hadded]
  simp [hdiffers, hadded, matchNew, fieldOf_of_none hp]

/-- **The answer to a comparison of two literals.** A property of the older
literal that is no field is what is reported, whatever else there is, and
one of the newer literal blocks the edit too. Otherwise the fixed fields
are compared place by place, as far as both literals have them, then their
numbers, and then the last value of each live name. A property of the newer
literal that is no field is reported only if the fixed fields before it
have found their like. -/
theorem change_exact (old new : Metadata) :
    ((∃ p ∈ old.properties, ¬ p.IsPlain) → change old new = .blocked .notAField) ∧
    ((∃ p ∈ new.properties, ¬ p.IsPlain) → ∃ obstacle, change old new = .blocked obstacle) ∧
    ((∀ p ∈ old.properties, p.IsPlain) → (∀ p ∈ new.properties, p.IsPlain) →
      ∃ fs gs, fields? old.properties = some fs ∧ fields? new.properties = some gs ∧
        change old new =
          if Differs old.text new.text (fixedSpans fs) (fixedSpans gs) then .blocked .fixedChanged
          else if (fixedSpans fs).length < (fixedSpans gs).length then .blocked .fixedAdded
          else if (fixedSpans gs).length < (fixedSpans fs).length then .blocked .fixedRemoved
          else if ∃ name ∈ liveFields, ValueDiffers old.text new.text fs gs name then .live
          else .unchanged) ∧
    (∀ before p after, (∀ q ∈ old.properties, q.IsPlain) →
      new.properties = before ++ p :: after → (∀ q ∈ before, q.IsPlain) → ¬ p.IsPlain →
      ∃ fs gs, fields? old.properties = some fs ∧ fields? before = some gs ∧
        change old new =
          if Differs old.text new.text (fixedSpans fs) (fixedSpans gs) then .blocked .fixedChanged
          else if (fixedSpans fs).length < (fixedSpans gs).length then .blocked .fixedAdded
          else .blocked .notAField) := by
  refine ⟨fun hold => ?_, fun hnew => ?_, fun hold hnew => ?_,
    fun before p after hold hnew hbefore hp => ?_⟩
  · exact change_of_fields?_eq_none (fields?_eq_none_of_not_plain hold)
  · by_contra hne
    obtain ⟨fs, gs, -, hgs, -⟩ := (change_ne_blocked_iff old new).1 (not_exists.1 hne)
    rw [fields?_eq_none_of_not_plain hnew] at hgs
    cases hgs
  · obtain ⟨fs, hfs⟩ := (fields?_isSome_iff old.properties).2 hold
    obtain ⟨gs, hgs⟩ := (fields?_isSome_iff new.properties).2 hnew
    exact ⟨fs, gs, hfs, hgs, change_of_fields hfs hgs⟩
  · obtain ⟨fs, hfs⟩ := (fields?_isSome_iff old.properties).2 hold
    obtain ⟨gs, hgs⟩ := (fields?_isSome_iff before).2 hbefore
    exact ⟨fs, gs, hfs, hgs, change_of_broken hfs hnew hgs (p.not_isPlain_iff.1 hp)⟩

/-- A literal with a fixed field and a live one, whose values have one byte
each, and whatever stands behind them. -/
def badge (count template : String) (behind : String) (more : List Property) : Metadata where
  text := "count: " ++ count ++ ", template: " ++ template ++ behind
  properties :=
    .assign ⟨0, 8⟩ (.identifier ⟨"count", ⟨0, 5⟩⟩) (.verbatim ⟨7, 8⟩) ::
      .assign ⟨10, 21⟩ (.identifier ⟨"template", ⟨10, 18⟩⟩) (.verbatim ⟨20, 21⟩) :: more

/-- The fields of such a literal. -/
def badgeFields : List Field := [⟨"count", ⟨0, 8⟩, ⟨7, 8⟩⟩, ⟨"template", ⟨10, 21⟩, ⟨20, 21⟩⟩]

/-- Three dots behind the two fields. -/
def looseBadge (count : String) : Metadata :=
  badge count "b" ", ...r" [.spread ⟨23, 27⟩ (.verbatim ⟨26, 27⟩)]

/-- The fixed field once more behind the two fields. -/
def countedTwice : Metadata :=
  badge "1" "b" ", count: 1"
    [.assign ⟨23, 31⟩ (.identifier ⟨"count", ⟨23, 28⟩⟩) (.verbatim ⟨30, 31⟩)]

theorem change_exact_badge :
    fields? (badge "1" "a" "" []).properties = some badgeFields ∧
    (looseBadge "1").properties =
      (badge "1" "b" "" []).properties ++ .spread ⟨23, 27⟩ (.verbatim ⟨26, 27⟩) :: [] ∧
    ¬ (Property.spread ⟨23, 27⟩ (.verbatim ⟨26, 27⟩)).IsPlain ∧
    change (looseBadge "1") (badge "1" "a" "" []) = .blocked .notAField ∧
    change (badge "1" "a" "" []) (badge "1" "b" "" []) = .live ∧
    change (badge "1" "a" "" []) countedTwice = .blocked .fixedAdded ∧
    change (badge "1" "a" "" []) (looseBadge "1") = .blocked .notAField ∧
    change (badge "1" "a" "" []) (looseBadge "2") = .blocked .fixedChanged := by
  have hspread : ¬ (Property.spread ⟨23, 27⟩ (.verbatim ⟨26, 27⟩)).IsPlain := id
  have hbadge : ∀ count template : String,
      fields? (badge count template "" []).properties = some badgeFields := fun _ _ => rfl
  have hplain : ∀ count template : String,
      ∀ p ∈ (badge count template "" []).properties, p.IsPlain :=
    fun count template => (fields?_isSome_iff _).1 ⟨_, hbadge count template⟩
  have htwice : fields? countedTwice.properties =
      some (badgeFields ++ [⟨"count", ⟨23, 31⟩, ⟨30, 31⟩⟩]) := rfl
  refine ⟨rfl, rfl, hspread, ?_, ?_, ?_, ?_, ?_⟩
  · exact (change_exact (looseBadge "1") _).1 ⟨_, by simp [looseBadge, badge], hspread⟩
  · obtain ⟨fs, gs, hfs, hgs, h⟩ :=
      (change_exact _ _).2.2.1 (hplain "1" "a") (hplain "1" "b")
    cases (hbadge "1" "a").symm.trans hfs
    cases (hbadge "1" "b").symm.trans hgs
    rw [h]
    decide
  · obtain ⟨fs, gs, hfs, hgs, h⟩ :=
      (change_exact _ _).2.2.1 (hplain "1" "a") ((fields?_isSome_iff _).1 ⟨_, htwice⟩)
    cases (hbadge "1" "a").symm.trans hfs
    cases htwice.symm.trans hgs
    rw [h]
    decide
  · obtain ⟨fs, gs, hfs, hgs, h⟩ := (change_exact _ (looseBadge "1")).2.2.2 _ _ []
      (hplain "1" "a") rfl (hplain "1" "b") hspread
    cases (hbadge "1" "a").symm.trans hfs
    cases (hbadge "1" "b").symm.trans hgs
    rw [h]
    decide
  · obtain ⟨fs, gs, hfs, hgs, h⟩ := (change_exact _ (looseBadge "2")).2.2.2 _ _ []
      (hplain "1" "a") rfl (hplain "2" "b") hspread
    cases (hbadge "1" "a").symm.trans hfs
    cases (hbadge "2" "b").symm.trans hgs
    rw [h]
    decide

/-! ## Two sides exchanged -/

end Metadata

/-- The obstacle that is met from the other side. -/
def Obstacle.mirrored : Obstacle → Obstacle
  | notAField => notAField
  | fixedChanged => fixedChanged
  | fixedAdded => fixedRemoved
  | fixedRemoved => fixedAdded

/-- The change that is seen from the other side. -/
def Change.mirrored : Change → Change
  | unchanged => unchanged
  | live => live
  | blocked obstacle => blocked obstacle.mirrored

namespace Metadata

theorem change_mirrored_of_fields {old new : Metadata} {fs gs : List Field}
    (hfs : fields? old.properties = some fs) (hgs : fields? new.properties = some gs) :
    change new old = (change old new).mirrored := by
  have hvalue : ∀ name, ValueDiffers new.text old.text gs fs name ↔
      ValueDiffers old.text new.text fs gs name := fun name => valueDiffers_comm name
  rw [change_of_fields hfs hgs, change_of_fields hgs hfs]
  simp only [differs_comm (fixedSpans gs), hvalue]
  by_cases hdiffers : Differs old.text new.text (fixedSpans fs) (fixedSpans gs)
  case pos => simp [hdiffers, Change.mirrored, Obstacle.mirrored]
  rcases Nat.lt_trichotomy (fixedSpans fs).length (fixedSpans gs).length with hlt | heq | hgt
  · simp [hdiffers, hlt, Nat.lt_asymm hlt, Change.mirrored, Obstacle.mirrored]
  · by_cases hlive : ∃ name ∈ liveFields, ValueDiffers old.text new.text fs gs name <;>
      simp only [hdiffers, heq, hlive, Nat.lt_irrefl, if_true, if_false, Change.mirrored]
  · simp [hdiffers, hgt, Nat.lt_asymm hgt, Change.mirrored, Obstacle.mirrored]

theorem change_ne_notAField {old new : Metadata} {fs gs : List Field}
    (hfs : fields? old.properties = some fs) (hgs : fields? new.properties = some gs) :
    change old new ≠ .blocked .notAField := by
  rw [change_of_fields hfs hgs]
  split_ifs <;> simp

theorem change_blocked_symm {old new : Metadata}
    (h : ∃ obstacle, change old new = .blocked obstacle) :
    ∃ obstacle, change new old = .blocked obstacle := by
  by_contra hne
  obtain ⟨obstacle, hblocked⟩ := h
  exact change_ne_blocked_symm (not_exists.1 hne) obstacle hblocked

theorem change_eq_unchanged_symm {old new : Metadata} (h : change old new = .unchanged) :
    change new old = .unchanged := by
  cases hnew : change new old with
  | unchanged => rfl
  | live =>
    have hold := change_eq_live_symm hnew
    rw [h] at hold
    cases hold
  | blocked obstacle =>
    obtain ⟨obstacle', hold⟩ := change_blocked_symm ⟨obstacle, hnew⟩
    rw [h] at hold
    cases hold

/-- **A comparison and its reverse.** Seen from the other side, unchanged
metadata is unchanged, a live edit is a live edit, and what is blocked is
blocked. If all properties are fields, what was added is what is removed,
and no property is reported for its shape. -/
theorem change_swapped (old new : Metadata) :
    (change new old = .unchanged ↔ change old new = .unchanged) ∧
    (change new old = .live ↔ change old new = .live) ∧
    ((∃ obstacle, change new old = .blocked obstacle) ↔
      ∃ obstacle, change old new = .blocked obstacle) ∧
    ((∀ p ∈ old.properties, p.IsPlain) → (∀ p ∈ new.properties, p.IsPlain) →
      change new old = (change old new).mirrored ∧
      change old new ≠ .blocked .notAField ∧ change new old ≠ .blocked .notAField) := by
  refine ⟨⟨change_eq_unchanged_symm, change_eq_unchanged_symm⟩,
    ⟨change_eq_live_symm, change_eq_live_symm⟩,
    ⟨change_blocked_symm, change_blocked_symm⟩, ?_⟩
  intro hold hnew
  obtain ⟨fs, hfs⟩ := (fields?_isSome_iff old.properties).2 hold
  obtain ⟨gs, hgs⟩ := (fields?_isSome_iff new.properties).2 hnew
  exact ⟨change_mirrored_of_fields hfs hgs, change_ne_notAField hfs hgs,
    change_ne_notAField hgs hfs⟩

theorem change_swapped_badge :
    (∀ p ∈ (badge "1" "a" "" []).properties, p.IsPlain) ∧
    (∀ p ∈ countedTwice.properties, p.IsPlain) ∧
    change (badge "1" "a" "" []) countedTwice = .blocked .fixedAdded ∧
    change countedTwice (badge "1" "a" "" []) = .blocked .fixedRemoved := by
  have hfs : fields? (badge "1" "a" "" []).properties = some badgeFields := rfl
  have hgs : fields? countedTwice.properties =
      some (badgeFields ++ [⟨"count", ⟨23, 31⟩, ⟨30, 31⟩⟩]) := rfl
  have hold := (fields?_isSome_iff _).1 ⟨_, hfs⟩
  have hnew := (fields?_isSome_iff _).1 ⟨_, hgs⟩
  have hadded : change (badge "1" "a" "" []) countedTwice = .blocked .fixedAdded := by
    rw [change_of_fields hfs hgs]
    decide
  refine ⟨hold, hnew, hadded, ?_⟩
  rw [((change_swapped _ _).2.2.2 hold hnew).1, hadded]
  rfl

end Metadata

end HotSwap
