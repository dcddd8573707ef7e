/-
HotSwap.Proofs.Relocation — a comparison does not depend on where the
pieces of a file stand.

Two sources are alike if their trees agree in all but their spans and the
spans at the same place cover the same piece, each in its own text
(`Source.Alike`). The steps of a comparison only ever compare a span of
the older source with one of the newer, each against its own text
(`same_of_samePiece`), so each step gives the same result on alike
sources. The lemmas follow the comparison from the inside out: metadata,
headers, components, statements, files.
-/
import HotSwap.Program
import HotSwap.Proofs.Depiction
import HotSwap.Proofs.FileDiff
import HotSwap.Proofs.Tree

namespace HotSwap

/-! ## Alike sources -/

/-- The two spans cover the same piece, each in its own source. -/
def Source.SamePiece (s s' : Source) (a b : Span) : Prop :=
  ∃ piece, s.string? a = some piece ∧ s'.string? b = some piece

/-- The trees agree in all but their spans, and spans at the same place
cover the same piece. -/
def Source.Alike (s s' : Source) : Prop :=
  List.Forall₂ (Statement.Alike (s.SamePiece s')) s.statements s'.statements

theorem Source.SamePiece.bytes?_eq {s s' : Source} {a b : Span} (h : s.SamePiece s' a b) :
    (s.excerpt a).bytes? = (s'.excerpt b).bytes? := by
  obtain ⟨piece, ha, hb⟩ := h
  rw [Excerpt.bytes?_of_covers (Excerpt.covers_of_string? ha),
    Excerpt.bytes?_of_covers (Excerpt.covers_of_string? hb)]

theorem Source.samePiece_of_covers {s s' : Source} {a b : Span} {piece : String}
    (ha : (s.excerpt a).Covers piece) (hb : (s'.excerpt b).Covers piece) :
    s.SamePiece s' a b :=
  ⟨piece, Excerpt.string?_of_covers ha, Excerpt.string?_of_covers hb⟩

theorem Source.Alike.length_eq {s s' : Source} (h : s.Alike s') :
    s.statements.length = s'.statements.length :=
  List.Forall₂.length_eq h

/-! ## Metadata -/

/-- Queues of two sources that hold the same bytes. -/
structure Pending.Alike (s s' : Source) (p p' : Pending) : Prop where
  text : p.text = s.text
  text' : p'.text = s'.text
  bytes : (p.queue.map fun a => (s.excerpt a).bytes?) =
    p'.queue.map fun a => (s'.excerpt a).bytes?

/-- Last values of two sources that have the same bytes under each name. -/
structure Latest.Alike (s s' : Source) (l l' : Latest) : Prop where
  text : l.text = s.text
  text' : l'.text = s'.text
  bytes : ∀ name, (l.value? name).map Excerpt.bytes? = (l'.value? name).map Excerpt.bytes?

theorem Pending.alike_empty (s s' : Source) :
    Pending.Alike s s' (.empty s.text) (.empty s'.text) :=
  ⟨rfl, rfl, rfl⟩

theorem Pending.Alike.push {s s' : Source} {p p' : Pending} {a a' : Span}
    (h : Pending.Alike s s' p p') (ha : s.SamePiece s' a a') :
    Pending.Alike s s' (p.push a) (p'.push a') := by
  refine ⟨h.text, h.text', ?_⟩
  simp only [Pending.push, List.map_append, List.map_cons, List.map_nil]
  rw [h.bytes, ha.bytes?_eq]

theorem Latest.alike_empty (s s' : Source) :
    Latest.Alike s s' (.empty s.text) (.empty s'.text) :=
  ⟨rfl, rfl, fun name => by rw [value?_empty, value?_empty]⟩

theorem Latest.Alike.record {s s' : Source} {l l' : Latest} {v v' : Span}
    (h : Latest.Alike s s' l l') (name : String) (hv : s.SamePiece s' v v') :
    Latest.Alike s s' (l.record name v) (l'.record name v') := by
  refine ⟨h.text, h.text', fun other => ?_⟩
  rw [value?_record, value?_record, h.text, h.text']
  split
  · exact congrArg some hv.bytes?_eq
  · exact h.bytes other

theorem Latest.agree_congr {s s' u u' : Source} {a a' b b' : Latest}
    (ha : Latest.Alike s s' a a') (hb : Latest.Alike u u' b b') :
    a.agree b = a'.agree b' := by
  rw [Bool.eq_iff_iff, agree_iff, agree_iff]
  refine forall_congr' fun name => ?_
  rw [Excerpt.sameOptional_congr (ha.bytes name) (hb.bytes name)]

namespace Metadata

/-- Fields of one name whose spans are related. -/
structure Field.Alike (R : Span → Span → Prop) (f g : Field) : Prop where
  name : f.name = g.name
  span : R f.span g.span
  value : R f.value g.value

theorem Field.Alike.isLive_eq {R : Span → Span → Prop} {f g : Field} (h : f.Alike R g) :
    f.isLive = g.isLive := by
  rw [isLive, isLive, h.name]

end Metadata

theorem Key.Alike.text?_eq {R : Span → Span → Prop} {k l : Key} (h : k.Alike R l) :
    k.text? = l.text? := by
  cases k <;> cases l <;> simp only [Key.Alike] at h <;> simp [Key.text?]
  all_goals exact h.1

theorem Property.Alike.field? {R : Span → Span → Prop} {p q : Property} (h : p.Alike R q) :
    Option.Rel (Metadata.Field.Alike R) p.field? q.field? := by
  cases p <;> cases q <;> simp only [Property.Alike] at h
  case assign.assign s k value t l value' =>
    obtain ⟨hspan, hkey, hvalue⟩ := h
    rw [Property.field?, Property.field?, hkey.text?_eq]
    cases l.text? with
    | none => exact .none
    | some name => exact .some ⟨rfl, hspan, hvalue.span⟩
  all_goals exact .none

namespace Metadata

variable {s s' u u' : Source}

theorem fieldOf_alike {p p' : Property} (h : p.Alike (s.SamePiece s') p') :
    AlikeResults (Field.Alike (s.SamePiece s')) (fieldOf p) (fieldOf p') := by
  unfold fieldOf
  rcases rel_cases h.field? with ⟨hnone, hnone'⟩ | ⟨f, f', hsome, hsome', hf⟩
  · rw [hnone, hnone']
    exact .error _
  · rw [hsome, hsome']
    exact .ok hf

theorem sortOld_alike {ps ps' : List Property}
    (hps : List.Forall₂ (Property.Alike (s.SamePiece s')) ps ps') {p p' : Pending}
    {l l' : Latest} (hp : Pending.Alike s s' p p') (hl : Latest.Alike s s' l l') :
    AlikeResults (fun a b => Pending.Alike s s' a.1 b.1 ∧ Latest.Alike s s' a.2 b.2)
      (sortOld p l ps) (sortOld p' l' ps') := by
  induction hps generalizing p p' l l' with
  | nil => exact .ok ⟨hp, hl⟩
  | cons hfirst hrest ih =>
    refine (fieldOf_alike hfirst).bind fun f f' hf => ?_
    rw [← hf.isLive_eq, ← hf.name]
    split
    · exact ih hp (hl.record f.name hf.value)
    · exact ih (hp.push hf.span) hl

/-- A newer field is matched alike with the heads of alike queues. -/
theorem matchNext_alike {p p' : Pending} {a a' : Span} (hp : Pending.Alike s s' p p')
    (ha : u.SamePiece u' a a') :
    (p.matchNext ⟨u.text, a⟩).1 = (p'.matchNext ⟨u'.text, a'⟩).1 ∧
      Pending.Alike s s' (p.matchNext ⟨u.text, a⟩).2 (p'.matchNext ⟨u'.text, a'⟩).2 := by
  obtain ⟨⟨text, queue⟩, ⟨text', queue'⟩, rfl, rfl, hbytes⟩ := p, p', hp
  cases queue with
  | nil =>
    cases queue' with
    | nil => exact ⟨rfl, rfl, rfl, rfl⟩
    | cons head' rest' => simp at hbytes
  | cons head rest =>
    cases queue' with
    | nil => simp at hbytes
    | cons head' rest' =>
      obtain ⟨hhead, hrest⟩ := List.cons.inj hbytes
      have hsame := Excerpt.same_congr hhead ha.bytes?_eq
      simp only [Source.excerpt] at hsame
      refine ⟨?_, rfl, rfl, hrest⟩
      simp only [Pending.matchNext, hsame]

theorem finish_congr {p p' : Pending} (hp : Pending.Alike s s' p p') :
    p.finish = p'.finish := by
  have hlength := congrArg List.length hp.bytes
  rw [List.length_map, List.length_map] at hlength
  simp only [Pending.finish, List.isEmpty_iff_length_eq_zero, hlength]

theorem matchNew_alike {qs qs' : List Property}
    (hqs : List.Forall₂ (Property.Alike (u.SamePiece u')) qs qs') {p p' : Pending}
    {l l' : Latest} (hp : Pending.Alike s s' p p') (hl : Latest.Alike u u' l l') :
    AlikeResults (Latest.Alike u u') (matchNew u.text p l qs) (matchNew u'.text p' l' qs') := by
  induction hqs generalizing p p' l l' with
  | nil =>
    refine AlikeResults.bind (.of_eq (finish_congr hp)) fun _ _ _ => ?_
    exact .ok hl
  | cons hfirst hrest ih =>
    refine (fieldOf_alike hfirst).bind fun f f' hf => ?_
    rw [← hf.isLive_eq, ← hf.name]
    split
    · exact ih hp (hl.record f.name hf.value)
    · obtain ⟨hmatched, hpending⟩ := matchNext_alike hp hf.span
      refine AlikeResults.bind (.of_eq hmatched) fun _ _ _ => ?_
      exact ih hpending hl

theorem change_congr {ps ps' qs qs' : List Property}
    (hps : List.Forall₂ (Property.Alike (s.SamePiece s')) ps ps')
    (hqs : List.Forall₂ (Property.Alike (u.SamePiece u')) qs qs') :
    change ⟨s.text, ps⟩ ⟨u.text, qs⟩ = change ⟨s'.text, ps'⟩ ⟨u'.text, qs'⟩ := by
  have hsides : AlikeResults
      (fun a b => Latest.Alike s s' a.1 b.1 ∧ Latest.Alike u u' a.2 b.2)
      (liveSides ⟨s.text, ps⟩ ⟨u.text, qs⟩) (liveSides ⟨s'.text, ps'⟩ ⟨u'.text, qs'⟩) := by
    refine (sortOld_alike hps (Pending.alike_empty s s') (Latest.alike_empty s s')).bind ?_
    rintro ⟨p, l⟩ ⟨p', l'⟩ ⟨hp, hl⟩
    refine (matchNew_alike hqs hp (Latest.alike_empty u u')).bind fun m m' hm => ?_
    exact .ok ⟨hl, hm⟩
  unfold change
  generalize liveSides ⟨s.text, ps⟩ ⟨u.text, qs⟩ = x at hsides
  generalize liveSides ⟨s'.text, ps'⟩ ⟨u'.text, qs'⟩ = y at hsides
  cases hsides with
  | error obstacle => rfl
  | ok h => simp only [Latest.agree_congr h.1 h.2]

end Metadata

/-! ## Headers and components -/

theorem Class.Alike.nameText?_eq {R : Span → Span → Prop} {c d : Class} (h : c.Alike R d) :
    c.nameText? = d.nameText? := by
  unfold nameText?
  rcases rel_cases h.name with ⟨hnone, hnone'⟩ | ⟨name, name', hsome, hsome', hname⟩
  · rw [hnone, hnone']
  · rw [hsome, hsome']
    exact congrArg some hname.1

theorem Class.Alike.keywords_eq {R : Span → Span → Prop} {c d : Class} (h : c.Alike R d) :
    c.keywords = d.keywords := by
  have hwords : c.modifiers.map (·.keyword) = d.modifiers.map (·.keyword) := by
    rw [← List.forall₂_eq_eq_eq, List.forall₂_map_left_iff, List.forall₂_map_right_iff]
    exact h.modifiers.imp fun _ _ hm => hm.1
  rw [Class.keywords, Class.keywords, hwords]

theorem Decorator.Alike.call? {R : Span → Span → Prop} {d e : Decorator} (h : d.Alike R e) :
    Option.Rel (Call.Alike R) d.call? e.call? := by
  cases d <;> cases e <;> simp only [Decorator.Alike] at h
  · exact .some h.2
  · exact .none

theorem Call.Alike.soleObject? {R : Span → Span → Prop} {c d : Call} (h : c.Alike R d) :
    Option.Rel (List.Forall₂ (Property.Alike R)) c.soleObject? d.soleObject? := by
  have hitems := h.arguments.items
  unfold Call.soleObject?
  generalize c.arguments.items = es at hitems
  generalize d.arguments.items = fs at hitems
  cases hitems with
  | nil => exact .none
  | cons hfirst hrest =>
    cases hrest with
    | cons _ _ => exact .none
    | nil =>
      rename_i e f
      cases e <;> cases f <;> simp only [Expr.Alike] at hfirst
      · exact .none
      · exact .some ((Property.alikeLists_iff _ _).1 hfirst.2)

namespace Revision

variable {s s' u u' : Source}

theorem same_of_samePiece {a a' b b' : Span} (ha : s.SamePiece s' a a')
    (hb : u.SamePiece u' b b') :
    (Revision.mk s u).same a b = (Revision.mk s' u').same a' b' :=
  Excerpt.same_congr ha.bytes?_eq hb.bytes?_eq

theorem sameLists_of_alike {α : Type} {S T : α → α → Prop} {a a' b b' : Option (Delimited α)}
    (ha : Option.Rel (Delimited.Alike (s.SamePiece s') S) a a')
    (hb : Option.Rel (Delimited.Alike (u.SamePiece u') T) b b') :
    (Revision.mk s u).sameLists a b = (Revision.mk s' u').sameLists a' b' := by
  cases ha with
  | none => cases hb <;> rfl
  | some ha =>
    cases hb with
    | none => rfl
    | some hb => exact same_of_samePiece ha.span hb.span

theorem require_alike {α : Type} {S : α → α → Prop} {o o' : Option α} (h : Option.Rel S o o')
    (cause : Cause) : AlikeResults S (require o cause) (require o' cause) := by
  cases h with
  | none => exact .error cause
  | some h => exact .ok h

theorem checkHeader_congr {c c' d d' : Class} (hc : c.Alike (s.SamePiece s') c')
    (hd : d.Alike (u.SamePiece u') d') :
    (Revision.mk s u).checkHeader c d = (Revision.mk s' u').checkHeader c' d' := by
  have hheritage := sameLists_of_alike hc.heritage hd.heritage
  have hparams := sameLists_of_alike hc.typeParams hd.typeParams
  rw [checkHeader, checkHeader, hc.nameText?_eq, hd.nameText?_eq, hheritage, hparams,
    hc.modifiers.length_eq, hd.modifiers.length_eq, hc.keywords_eq, hd.keywords_eq]

theorem checkComponent_congr {c c' d d' : Class} (hc : c.Alike (s.SamePiece s') c')
    (hd : d.Alike (u.SamePiece u') d') (index : Nat) :
    (Revision.mk s u).checkComponent c d index =
      (Revision.mk s' u').checkComponent c' d' index := by
  apply AlikeResults.eq
  rw [checkComponent, checkComponent, hc.decorators.length_eq, hd.decorators.length_eq]
  refine AlikeResults.bind (.of_eq rfl) fun _ _ _ => ?_
  refine AlikeResults.bind (.of_eq rfl) fun _ _ _ => ?_
  refine (require_alike (rel_getElem? hc.decorators index) _).bind fun _ _ hold => ?_
  refine (require_alike (rel_getElem? hd.decorators index) _).bind fun _ _ hnew => ?_
  refine (require_alike hold.call? _).bind fun m m' hm => ?_
  refine (require_alike hnew.call? _).bind fun n n' hn => ?_
  refine (require_alike hm.soleObject? _).bind fun ps ps' hps => ?_
  refine (require_alike hn.soleObject? _).bind fun qs qs' hqs => ?_
  have hcallee := same_of_samePiece hm.callee hn.callee
  have hmembers := same_of_samePiece hc.members.span hd.members.span
  have hchange := Metadata.change_congr hps hqs
  exact .of_eq (by simp only [hcallee, hmembers, hchange])

/-! ## Statements and files -/

variable {v : View}

theorem checkStatement_congr {a a' b b' : Statement}
    (hv : ∀ c d : Class, c.id = d.id → v.marking? c = v.marking? d)
    (ha : a.Alike (s.SamePiece s') a') (hb : b.Alike (u.SamePiece u') b') :
    (Revision.mk s u).checkStatement v.metadataIndex? a b =
      (Revision.mk s' u').checkStatement v.metadataIndex? a' b' := by
  have htext := same_of_samePiece ha.span hb.span
  unfold checkStatement
  simp only [checkText, htext]
  rcases rel_cases ha.declared with ⟨hold, hold'⟩ | ⟨c, c', hold, hold', hc⟩
  · rw [hold, hold']
  · rcases rel_cases hb.declared with ⟨hnew, hnew'⟩ | ⟨d, d', hnew, hnew', hd⟩
    · rw [hold, hold', hnew, hnew']
    · have hindex : v.metadataIndex? d = v.metadataIndex? d' := by
        rw [View.metadataIndex?, View.metadataIndex?, hv d d' hd.id]
      rw [hold, hold', hnew, hnew']
      simp only [checkHeader_congr hc hd, checkComponent_congr hc hd, hindex, hd.id]

theorem checkStatements_congr
    (hv : ∀ c d : Class, c.id = d.id → v.marking? c = v.marking? d) (index : Nat)
    {as as' bs bs' : List Statement}
    (ha : List.Forall₂ (Statement.Alike (s.SamePiece s')) as as')
    (hb : List.Forall₂ (Statement.Alike (u.SamePiece u')) bs bs') :
    (Revision.mk s u).checkStatements v.metadataIndex? index as bs =
      (Revision.mk s' u').checkStatements v.metadataIndex? index as' bs' := by
  induction ha generalizing index bs bs' with
  | nil => rfl
  | cons hfirst _ ih =>
    cases hb with
    | nil => rfl
    | cons hfirst' hrest' =>
      rw [checkStatements, checkStatements, checkStatement_congr hv hfirst hfirst',
        ih (index + 1) hrest']

/-- Comparing alike sources gives one answer, a refusal included. -/
theorem swaps_congr (hv : ∀ c d : Class, c.id = d.id → v.marking? c = v.marking? d)
    (hs : s.Alike s') (hu : u.Alike u') :
    (Revision.mk s u).swaps v.metadataIndex? = (Revision.mk s' u').swaps v.metadataIndex? := by
  simp only [swaps, hs.length_eq, hu.length_eq, checkStatements_congr hv 0 hs hu]

end Revision

/-! ## Text before and behind -/

/-- The span with both offsets moved by a number of bytes. -/
def Span.moved (n : Nat) (span : Span) : Span :=
  .ofOffsets (span.start.toNat + n) (span.stop.toNat + n)

namespace Source

/-- The source with a text put before its own, and all spans moved behind
that text. -/
def prefixed (before : String) (s : Source) : Source where
  path := s.path
  text := before ++ s.text
  statements := s.statements.map (·.mapSpans (.moved before.utf8ByteSize))

/-- The source with a text put behind its own. -/
def appended (s : Source) (behind : String) : Source := { s with text := s.text ++ behind }

theorem alike_of_statements {s s' : Source} {f : Span → Span}
    (hstatements : s'.statements = s.statements.map (·.mapSpans f))
    (h : ∀ span ∈ s.spans, s.SamePiece s' span (f span)) : s.Alike s' := by
  rw [Alike, hstatements]
  refine forall₂_map_self fun a ha => Statement.alike_mapSpans fun span hspan => ?_
  exact h span (List.mem_flatMap.2 ⟨a, ha, hspan⟩)

theorem alike_prefixed {s : Source} (hs : s.Valid) (before : String)
    (hfits : (before ++ s.text).utf8ByteSize ≤ Span.maxOffset) : s.Alike (s.prefixed before) := by
  refine alike_of_statements rfl fun span hspan => ?_
  obtain ⟨piece, hcovers⟩ := hs span hspan
  refine samePiece_of_covers hcovers ?_
  obtain ⟨head, tail, htext, hstart, hstop⟩ := hcovers
  simp only [excerpt] at htext hstart hstop
  have hsize := congrArg String.utf8ByteSize htext
  simp only [String.utf8ByteSize_append] at hsize hfits
  refine ⟨before ++ head, tail, ?_, ?_, ?_⟩
  · simp only [excerpt, prefixed, htext, String.append_assoc]
  · rw [excerpt, Span.moved, Span.start_ofOffsets (by omega), String.utf8ByteSize_append]
    omega
  · rw [excerpt, Span.moved, Span.stop_ofOffsets _ (by omega), String.utf8ByteSize_append]
    omega

theorem alike_appended {s : Source} (hs : s.Valid) (behind : String) :
    s.Alike (s.appended behind) := by
  have hstatements : (s.appended behind).statements = s.statements.map (·.mapSpans id) := by
    simp [appended, Statement.mapSpans_id]
  refine alike_of_statements hstatements fun span hspan => ?_
  obtain ⟨piece, hcovers⟩ := hs span hspan
  refine samePiece_of_covers hcovers ?_
  obtain ⟨head, tail, htext, hstart, hstop⟩ := hcovers
  simp only [excerpt] at htext
  refine ⟨head, tail ++ behind, ?_, hstart, hstop⟩
  simp only [excerpt, appended, htext, String.append_assoc]

theorem alike_refl {s : Source} (hs : s.Valid) : s.Alike s := by
  have happended : s.appended "" = s := by rw [appended, String.append_empty]
  have h := alike_appended hs ""
  rwa [happended] at h

end Source

namespace Revision

open Draft (cardFile)

/-- **A comparison does not depend on offsets.** Take a program whose
answer about a class depends on nothing but the class's id. Comparing
alike sources gives one answer, a refusal included. So no answer changes
when, on either side, a text is put before a source, with its spans moved
behind that text, or a text is put behind it. -/
theorem swaps_position_free (v : View)
    (hv : ∀ c d : Class, c.id = d.id → v.marking? c = v.marking? d) :
    (∀ s s' u u' : Source, s.Alike s' → u.Alike u' →
      (Revision.mk s u).swaps v.metadataIndex? = (Revision.mk s' u').swaps v.metadataIndex?) ∧
    ∀ (s u : Source) (before behind : String), s.validated = .ok s → u.validated = .ok u →
      ((before ++ s.text).utf8ByteSize ≤ Span.maxOffset →
        (Revision.mk (s.prefixed before) u).swaps v.metadataIndex? =
          (Revision.mk s u).swaps v.metadataIndex?) ∧
      ((before ++ u.text).utf8ByteSize ≤ Span.maxOffset →
        (Revision.mk s (u.prefixed before)).swaps v.metadataIndex? =
          (Revision.mk s u).swaps v.metadataIndex?) ∧
      (Revision.mk (s.appended behind) u).swaps v.metadataIndex? =
        (Revision.mk s u).swaps v.metadataIndex? ∧
      (Revision.mk s (u.appended behind)).swaps v.metadataIndex? =
        (Revision.mk s u).swaps v.metadataIndex? := by
  refine ⟨fun s s' u u' hs hu => swaps_congr hv hs hu, ?_⟩
  intro s u before behind hs hu
  obtain ⟨-, -, hsValid⟩ := (Source.validated_eq_ok_iff s s).1 hs
  obtain ⟨-, -, huValid⟩ := (Source.validated_eq_ok_iff u u).1 hu
  have hsSelf := Source.alike_refl hsValid
  have huSelf := Source.alike_refl huValid
  refine ⟨?_, ?_, ?_, ?_⟩
  · intro hfits
    exact (swaps_congr hv (Source.alike_prefixed hsValid before hfits) huSelf).symm
  · intro hfits
    exact (swaps_congr hv hsSelf (Source.alike_prefixed huValid before hfits)).symm
  · exact (swaps_congr hv (Source.alike_appended hsValid behind) huSelf).symm
  · exact (swaps_congr hv hsSelf (Source.alike_appended huValid behind)).symm

/-- The program that knows class 0 as a component. -/
def cardView : View := (Program.empty.mark ⟨0⟩ ⟨0, true⟩).view

theorem swaps_position_free_card :
    (∀ c d : Class, c.id = d.id → cardView.marking? c = cardView.marking? d) ∧
    (cardFile "'old'").source.validated = .ok (cardFile "'old'").source ∧
    (cardFile "'new'").source.validated = .ok (cardFile "'new'").source ∧
    ("// moved\n" ++ (cardFile "'old'").source.text).utf8ByteSize ≤ Span.maxOffset ∧
    (Revision.mk ((cardFile "'old'").source.prefixed "// moved\n")
        (cardFile "'new'").source).swaps cardView.metadataIndex? =
      (Revision.mk (cardFile "'old'").source (cardFile "'new'").source).swaps
        cardView.metadataIndex? := by
  have hv : ∀ c d : Class, c.id = d.id → cardView.marking? c = cardView.marking? d := by
    intro c d h
    simp only [cardView, Program.view, h]
  have hold : (cardFile "'old'").source.validated = .ok (cardFile "'old'").source :=
    (cardFile "'old'").build_eq_ok (by decide)
  have hnew : (cardFile "'new'").source.validated = .ok (cardFile "'new'").source :=
    (cardFile "'new'").build_eq_ok (by decide)
  have hfits : ("// moved\n" ++ (cardFile "'old'").source.text).utf8ByteSize ≤
      Span.maxOffset := by decide
  have hmoved := (swaps_position_free cardView hv).2 _ _ "// moved\n" "" hold hnew
  exact ⟨hv, hold, hnew, hfits, hmoved.1 hfits⟩

end Revision

end HotSwap
