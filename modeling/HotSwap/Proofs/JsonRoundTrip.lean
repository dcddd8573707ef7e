/-
HotSwap.Proofs.JsonRoundTrip — sources survive being written as JSON and
read again.

Every node loses nothing on the way to JSON and back (`Json.RoundTrips`):
what is written is read as it was, and a value of the node's shape that
can be read is written as the tidy value. Each node's theorem is put
together from those of its parts. Expressions and properties contain each
other, so theirs come in pairs: what is written is followed along the
tree, and what is read along the depth of the JSON value, as reading
itself is.
-/
import HotSwap.Proofs.Excerpt
import HotSwap.Proofs.JsonShape

namespace HotSwap

open Json

/-! ## Numbers, texts and words -/

theorem Json.roundTrips_word : RoundTrips .scalar word? ofWord where
  fits_write _ := by simp [ofWord, Shape.fits]
  read_write := word?_ofWord
  write_read := by
    intro j n _ hread
    unfold word? at hread
    split at hread
    · split at hread
      · rename_i m hm
        cases hread
        simp [ofWord, UInt32.toNat_ofNat_of_lt' hm]
      · simp at hread
    · simp at hread

theorem Json.roundTrips_str : RoundTrips .scalar str? .str where
  fits_write _ := by simp [Shape.fits]
  read_write _ := rfl
  write_read := by
    intro j text _ hread
    cases j <;> simp [str?] at hread
    simp [hread]

/-- Values that are written as their names. -/
theorem Json.roundTrips_name {α : Type} {all : List α} {name : α → String}
    (hall : ∀ a, all.find? (name · = name a) = some a) :
    RoundTrips .scalar
      (fun j => do
        let (found, .null) ← j.variant? | none
        all.find? (name · = found))
      fun a => .str (name a) where
  fits_write _ := by simp [Shape.fits]
  read_write := hall
  write_read := by
    intro j a hfits hread
    cases j with
    | str found =>
      have hname := List.find?_some (l := all) hread
      simpa using hname
    | arr => simp [Shape.fits, Shape.expand] at hfits
    | obj => simp [Shape.fits, Shape.expand] at hfits
    | _ => simp [variant?] at hread

theorem Keyword.roundTrips : RoundTrips .scalar Keyword.ofJson? Keyword.toJson :=
  roundTrips_name fun k => by cases k <;> decide

theorem HeritageKind.roundTrips : RoundTrips .scalar HeritageKind.ofJson? HeritageKind.toJson :=
  roundTrips_name fun k => by cases k <;> decide

theorem ClassId.roundTrips : RoundTrips .scalar ClassId.ofJson? ClassId.toJson where
  fits_write id := roundTrips_word.fits_write id.number
  read_write id := by simp [ClassId.ofJson?, ClassId.toJson]
  write_read := by
    intro j id hfits hread
    simp only [ClassId.ofJson?, Option.map_eq_map, Option.map_eq_some_iff] at hread
    obtain ⟨n, hn, rfl⟩ := hread
    exact roundTrips_word.write_read hfits hn

/-! ## Records of two parts -/

theorem Span.roundTrips : RoundTrips Span.shape Span.ofJson? Span.toJson :=
  RoundTrips.pair roundTrips_word roundTrips_word (by decide) rfl rfl (fun _ => rfl)
    fun _ _ => ⟨rfl, rfl⟩

theorem Name.roundTrips : RoundTrips Name.shape Name.ofJson? Name.toJson :=
  RoundTrips.pair roundTrips_str Span.roundTrips (by decide) rfl rfl (fun _ => rfl)
    fun _ _ => ⟨rfl, rfl⟩

theorem Modifier.roundTrips : RoundTrips Modifier.shape Modifier.ofJson? Modifier.toJson :=
  RoundTrips.pair Keyword.roundTrips Span.roundTrips (by decide) rfl rfl (fun _ => rfl)
    fun _ _ => ⟨rfl, rfl⟩

theorem HeritageClause.roundTrips :
    RoundTrips HeritageClause.shape HeritageClause.ofJson? HeritageClause.toJson :=
  RoundTrips.pair HeritageKind.roundTrips Span.roundTrips (by decide) rfl rfl (fun _ => rfl)
    fun _ _ => ⟨rfl, rfl⟩

theorem Delimited.roundTrips {α : Type} {shape : Shape} {read : Json → Option α}
    {write : α → Json} (h : RoundTrips shape read write) :
    RoundTrips (Delimited.shape shape) (Delimited.ofJson? read) (Delimited.toJson write) :=
  RoundTrips.pair Span.roundTrips h.list (by decide) rfl rfl (fun _ => rfl)
    fun _ _ => ⟨rfl, rfl⟩

/-! ## Keys -/

theorem Key.roundTrips : RoundTrips Key.shape Key.ofJson? Key.toJson where
  fits_write := by
    intro key
    cases key with
    | identifier name | quoted name | number name =>
      exact Shape.fits_carrying (by rfl) (Name.roundTrips.fits_write name)
    | computed span => exact Shape.fits_carrying (by rfl) (Span.roundTrips.fits_write span)
  read_write := by
    intro key
    cases key with
    | identifier name | quoted name | number name =>
      simp [Key.ofJson?, Key.toJson, variant?, Name.roundTrips.read_write]
    | computed span => simp [Key.ofJson?, Key.toJson, variant?, Span.roundTrips.read_write]
  write_read := by
    intro j key hfits hread
    simp only [Key.ofJson?, Option.bind_eq_bind, Option.bind_eq_some_iff] at hread
    obtain ⟨variant, hvariant, hread⟩ := hread
    split at hread <;>
      simp only [Option.bind_eq_some_iff, Option.pure_def, Option.some.injEq, reduceCtorEq] at hread
      <;> obtain ⟨carried, hcarried, rfl⟩ := hread
    · exact Name.roundTrips.write_variant rfl rfl hfits hvariant hcarried
    · exact Name.roundTrips.write_variant rfl rfl hfits hvariant hcarried
    · exact Name.roundTrips.write_variant rfl rfl hfits hvariant hcarried
    · exact Span.roundTrips.write_variant rfl rfl hfits hvariant hcarried

/-! ## Nodes -/

@[simp] theorem Json.node?_node (span : Span) (kind : Json) :
    (Json.node span kind).node? = kind.variant?.map (span, ·) := by
  unfold Json.node Json.node?
  rw [record?_obj (by rfl) (by simp)]
  cases h : kind.variant? <;> simp [h, Span.roundTrips.read_write]

namespace Json.Shape

variable {carrying : List (String × Shape)} {j : Json} {span : Span} {name : String}

theorem fits_node {kindShape : Shape} {kind : Json} (hkind : kindShape.fits kind = true)
    (span : Span) : (Shape.node kindShape).fits (.node span kind) = true := by
  refine fits_obj (by simp) ?_
  simp [Span.roundTrips.fits_write, hkind]

/-- A node that can be read is left with its span and its kind. -/
theorem tidy_of_node? {variant : String × Json}
    (hfits : (Shape.node (.variant carrying)).fits j = true)
    (hread : j.node? = some (span, variant)) :
    ∃ kind : Json, (Shape.variant carrying).fits kind = true ∧ kind.variant? = some variant ∧
      (Shape.node (.variant carrying)).tidy j =
        .node span ((Shape.variant carrying).tidy kind) := by
  simp only [node?, Option.bind_eq_bind, Option.bind_eq_some_iff] at hread
  obtain ⟨values, hvalues, hread⟩ := hread
  obtain ⟨hfit, htidy⟩ := Shape.tidy_of_record? (by simp) hfits hvalues
  obtain _ | ⟨hspanFits, _ | ⟨hkindFits, ⟨⟩⟩⟩ := hfit
  rename_i spanJson kind
  simp only [Option.bind_eq_some_iff, Option.pure_def, Option.some.injEq, Prod.mk.injEq] at hread
  obtain ⟨_, hspan, _, hkind, rfl, rfl⟩ := hread
  refine ⟨kind, hkindFits, hkind, ?_⟩
  show (Shape.record _).tidy j = _
  rw [htidy, Json.node, Span.roundTrips.write_read hspanFits hspan]
  rfl

/-- A node of a kind that carries nothing. -/
theorem tidy_of_bareNode (hfits : (Shape.node (.variant carrying)).fits j = true)
    (hread : j.node? = some (span, name, .null)) (hname : carrying.lookup name = none) :
    (Shape.node (.variant carrying)).tidy j = .node span (.str name) := by
  obtain ⟨kind, hkind, hvariant, htidy⟩ := tidy_of_node? hfits hread
  rw [htidy, tidy_of_bare hkind hvariant hname]

/-- A node of a kind that carries something. -/
theorem tidy_of_carryingNode {shape : Shape} {carried : Json}
    (hfits : (Shape.node (.variant carrying)).fits j = true)
    (hread : j.node? = some (span, name, carried)) (hname : carrying.lookup name = some shape)
    (hcarried : carried ≠ .null) :
    shape.fits carried = true ∧
      (Shape.node (.variant carrying)).tidy j = .node span (.obj [(name, shape.tidy carried)]) := by
  obtain ⟨kind, hkind, hvariant, htidy⟩ := tidy_of_node? hfits hread
  obtain ⟨hfit, hkindTidy⟩ := tidy_of_carrying hkind hvariant hname hcarried
  exact ⟨hfit, by rw [htidy, hkindTidy]⟩

end Json.Shape

/-! ## Expressions -/

theorem Expr.ofJson?_eq (j : Json) : Expr.ofJson? j = (do
    match ← j.node? with
    | (span, "Other", .null) => return .verbatim span
    | (span, "ObjectLiteral", literal) =>
      return .object span (← Property.listOfJson? literal)
    | _ => none) := by
  rw [← Expr.readWithin_eq_ofJson? (Nat.le_succ j.depth), Expr.readWithin]
  refine Option.bind_congr fun node hnode => ?_
  split
  · rfl
  · have hliteral := depth_lt_of_node? hnode
    simp only [Property.listOfJson?, Option.bind_eq_bind, Option.bind_assoc]
    refine Option.bind_congr fun items hitems => ?_
    rw [mapM_congr_of_mem fun item hitem => ?_]
    have := depth_lt_of_mem_properties? hitems hitem
    exact Property.readWithin_eq_ofJson? (by omega)
  · simp_all

theorem Property.ofJson?_eq (j : Json) : Property.ofJson? j = (do
    match ← j.node? with
    | (span, "Assignment", assignment) =>
      let [key, value] ← assignment.named? [.required "name", .required "initializer"] | none
      return .assign span (← Key.ofJson? key) (← Expr.ofJson? value)
    | (span, "Shorthand", name) => return .shorthand span (← Name.ofJson? name)
    | (span, "Spread", value) => return .spread span (← Expr.ofJson? value)
    | (span, "Method", named) =>
      let [key] ← named.named? [.required "name"] | none
      return .method span (← Key.ofJson? key)
    | _ => none) := by
  rw [← Property.readWithin_eq_ofJson? (Nat.le_succ j.depth), Property.readWithin]
  refine Option.bind_congr fun node hnode => ?_
  split
  · have hassignment := depth_lt_of_node? hnode
    refine Option.bind_congr fun parts hparts => ?_
    split
    · rename_i key value
      have hvalue : value ∈ [key, value] := by simp
      have := depth_lt_of_mem_named? hparts hvalue
      rw [Expr.readWithin_eq_ofJson? (by omega)]
    · simp_all
  · rfl
  · have hvalue := depth_lt_of_node? hnode
    simp [Expr.readWithin_eq_ofJson? (Nat.le_of_lt hvalue)]
  · rfl
  · simp_all

mutual
theorem Expr.fits_write : ∀ e : Expr, Expr.shape.fits e.toJson = true
  | .verbatim span => Shape.fits_node (by simp [Shape.fits]) span
  | .object span properties => by
    refine Shape.fits_node (Shape.fits_carrying (by rfl) (Shape.fits_obj (by simp) ?_)) span
    simpa [Shape.fits, Shape.expand, Shape.fitsItems_eq_true_iff]
      using Property.listFits_write properties
theorem Property.fits_write : ∀ p : Property, Property.shape.fits p.toJson = true
  | .assign span key value => by
    refine Shape.fits_node (Shape.fits_carrying (by rfl) (Shape.fits_obj (by simp) ?_)) span
    simp [Key.roundTrips.fits_write, Expr.fits_write value]
  | .shorthand span name =>
    Shape.fits_node (Shape.fits_carrying (by rfl) (Name.roundTrips.fits_write name)) span
  | .spread span value => by
    refine Shape.fits_node (Shape.fits_carrying (by rfl) ?_) span
    simpa using Expr.fits_write value
  | .method span key => by
    refine Shape.fits_node (Shape.fits_carrying (by rfl) (Shape.fits_obj (by simp) ?_)) span
    simp [Key.roundTrips.fits_write]
theorem Property.listFits_write : ∀ properties : List Property,
    ∀ item ∈ Property.listToJson properties, Property.shape.fits item = true
  | [] => by simp [Property.listToJson]
  | property :: rest => by
    simpa [Property.listToJson, Property.fits_write property] using Property.listFits_write rest
end

mutual
theorem Expr.read_write : ∀ e : Expr, Expr.ofJson? e.toJson = some e
  | .verbatim span => by
    rw [Expr.ofJson?_eq]
    simp [Expr.toJson, variant?]
  | .object span properties => by
    rw [Expr.ofJson?_eq]
    have hproperties : properties? (.obj [("properties", .arr (Property.listToJson properties))]) =
        some (Property.listToJson properties) := rfl
    simp [Expr.toJson, variant?, Property.listOfJson?, hproperties,
      Property.listRead_write properties]
theorem Property.read_write : ∀ p : Property, Property.ofJson? p.toJson = some p
  | .assign span key value => by
    have hparts : (Json.obj [("name", key.toJson), ("initializer", value.toJson)]).named?
        [.required "name", .required "initializer"] = some [key.toJson, value.toJson] :=
      named?_obj rfl (by simp)
    rw [Property.ofJson?_eq]
    simp [Property.toJson, variant?, hparts, Key.roundTrips.read_write, Expr.read_write value]
  | .shorthand span name => by
    rw [Property.ofJson?_eq]
    simp [Property.toJson, variant?, Name.roundTrips.read_write]
  | .spread span value => by
    rw [Property.ofJson?_eq]
    simp [Property.toJson, variant?, Expr.read_write value]
  | .method span key => by
    have hparts : (Json.obj [("name", key.toJson)]).named? [.required "name"] =
        some [key.toJson] := named?_obj rfl (by simp)
    rw [Property.ofJson?_eq]
    simp [Property.toJson, variant?, hparts, Key.roundTrips.read_write]
theorem Property.listRead_write : ∀ properties : List Property,
    (Property.listToJson properties).mapM Property.ofJson? = some properties
  | [] => rfl
  | property :: rest => by
    simp [Property.listToJson, Property.read_write property, Property.listRead_write rest]
end

/-! ### What is left of an expression that was read -/

/-- The items of a property list are of the shape of properties, and the
list is left with them, tidy. -/
theorem Json.Shape.tidy_of_properties? {j : Json} {items : List Json}
    (hfits : (Shape.record [("properties", .list .property)]).fits j = true)
    (hread : j.properties? = some items) :
    (∀ item ∈ items, Property.shape.fits item = true) ∧
      (Shape.record [("properties", .list .property)]).tidy j =
        .obj [("properties", .arr (items.map Property.shape.tidy))] := by
  simp only [properties?, Option.bind_eq_bind, Option.bind_eq_some_iff] at hread
  obtain ⟨values, hvalues, hread⟩ := hread
  obtain ⟨hfit, htidy⟩ := Shape.tidy_of_record? (by simp) hfits hvalues
  obtain _ | ⟨hlist, ⟨⟩⟩ := hfit
  rename_i list
  cases list <;> simp only [arr?, reduceCtorEq, Option.some.injEq] at hread
  subst hread
  simp only [Shape.fits, Shape.expand, Shape.fitsItems_eq_true_iff, Shape.fits_property] at hlist
  refine ⟨hlist, ?_⟩
  simp [htidy, Shape.tidy, Shape.expand, Shape.tidyItems_eq_map, funext Shape.tidy_property]

-- The recursion is on the depth of the JSON value, not on the tree: which
-- kind of node it holds is only known when it is read, and what a node
-- contains is read from a value less deep than the node's.
mutual
theorem Expr.write_read {j : Json} {e : Expr} (hfits : Expr.shape.fits j = true)
    (hread : Expr.ofJson? j = some e) : e.toJson = Expr.shape.tidy j := by
  rw [Expr.ofJson?_eq] at hread
  simp only [Option.bind_eq_bind, Option.bind_eq_some_iff] at hread
  obtain ⟨node, hnode, hread⟩ := hread
  show e.toJson = (Shape.node _).tidy j
  split at hread
  · cases hread
    rw [Shape.tidy_of_bareNode hfits hnode (by simp), Expr.toJson]
  · simp only [Property.listOfJson?, Option.bind_eq_bind, Option.bind_eq_some_iff, Option.pure_def,
      Option.some.injEq] at hread
    obtain ⟨properties, ⟨items, hitems, hproperties⟩, rfl⟩ := hread
    obtain ⟨hliteral, htidy⟩ :=
      Shape.tidy_of_carryingNode hfits hnode (by rfl) (ne_null_of_read hitems rfl)
    obtain ⟨hitemsFit, hlistTidy⟩ := Shape.tidy_of_properties? hliteral hitems
    have hwritten := map_write_of_mapM hproperties fun item hitem property hproperty =>
      have : item.depth < j.depth :=
        Nat.lt_trans (depth_lt_of_mem_properties? hitems hitem) (depth_lt_of_node? hnode)
      Property.write_read (hitemsFit item hitem) hproperty
    rw [htidy, hlistTidy, Expr.toJson, Property.listToJson_eq_map, hwritten]
  · simp at hread
termination_by j.depth

theorem Property.write_read {j : Json} {p : Property} (hfits : Property.shape.fits j = true)
    (hread : Property.ofJson? j = some p) : p.toJson = Property.shape.tidy j := by
  rw [Property.ofJson?_eq] at hread
  simp only [Option.bind_eq_bind, Option.bind_eq_some_iff] at hread
  obtain ⟨node, hnode, hread⟩ := hread
  show p.toJson = (Shape.node _).tidy j
  split at hread
  · simp only [Option.bind_eq_some_iff] at hread
    obtain ⟨values, hvalues, hread⟩ := hread
    obtain ⟨hassignment, htidy⟩ :=
      Shape.tidy_of_carryingNode hfits hnode (by rfl) (ne_null_of_read hvalues rfl)
    obtain ⟨hparts, hpartsTidy⟩ :=
      Shape.tidy_of_record? (by decide) hassignment (record?_of_named? hvalues)
    obtain _ | ⟨hkeyFits, _ | ⟨hvalueFits, ⟨⟩⟩⟩ := hparts
    rename_i keyJson valueJson
    simp only [Option.bind_eq_some_iff, Option.pure_def, Option.some.injEq] at hread
    obtain ⟨key, hkey, value, hvalue, rfl⟩ := hread
    have : valueJson.depth < j.depth :=
      Nat.lt_trans (depth_lt_of_mem_named? hvalues (by simp)) (depth_lt_of_node? hnode)
    have hwritten := Expr.write_read (by simpa using hvalueFits) hvalue
    rw [htidy, hpartsTidy, Property.toJson, Key.roundTrips.write_read hkeyFits hkey, hwritten]
    simp
  · simp only [Option.bind_eq_some_iff, Option.pure_def, Option.some.injEq] at hread
    obtain ⟨name, hname, rfl⟩ := hread
    obtain ⟨hnameFits, htidy⟩ :=
      Shape.tidy_of_carryingNode hfits hnode (by rfl) (ne_null_of_read hname rfl)
    rw [htidy, Property.toJson, Name.roundTrips.write_read hnameFits hname]
  · rename_i valueJson
    simp only [Option.bind_eq_some_iff, Option.pure_def, Option.some.injEq] at hread
    obtain ⟨value, hvalue, rfl⟩ := hread
    obtain ⟨hvalueFits, htidy⟩ :=
      Shape.tidy_of_carryingNode hfits hnode (by rfl) (ne_null_of_read hvalue rfl)
    have : valueJson.depth < j.depth := depth_lt_of_node? hnode
    have hwritten := Expr.write_read (by simpa using hvalueFits) hvalue
    rw [htidy, Property.toJson, hwritten, Shape.tidy_expr]
  · simp only [Option.bind_eq_some_iff] at hread
    obtain ⟨values, hvalues, hread⟩ := hread
    obtain ⟨hmethod, htidy⟩ :=
      Shape.tidy_of_carryingNode hfits hnode (by rfl) (ne_null_of_read hvalues rfl)
    obtain ⟨hparts, hpartsTidy⟩ :=
      Shape.tidy_of_record? (by decide) hmethod (record?_of_named? hvalues)
    obtain _ | ⟨hkeyFits, ⟨⟩⟩ := hparts
    simp only [Option.bind_eq_some_iff, Option.pure_def, Option.some.injEq] at hread
    obtain ⟨key, hkey, rfl⟩ := hread
    rw [htidy, hpartsTidy, Property.toJson, Key.roundTrips.write_read hkeyFits hkey]
    rfl
  · simp at hread
termination_by j.depth
end

theorem Expr.roundTrips : RoundTrips .expr Expr.ofJson? Expr.toJson where
  fits_write e := by simpa using e.fits_write
  read_write := Expr.read_write
  write_read := by
    intro j e hfits hread
    rw [Shape.fits_expr] at hfits
    rw [Shape.tidy_expr]
    exact Expr.write_read hfits hread

/-! ## Classes and statements -/

theorem Call.roundTrips : RoundTrips Call.shape Call.ofJson? Call.toJson where
  fits_write call := by
    refine Shape.fits_obj (by simp) ?_
    simp [Span.roundTrips.fits_write, (Delimited.roundTrips Expr.roundTrips).fits_write]
  read_write := by
    intro call
    unfold Call.ofJson? Call.toJson
    rw [record?_obj (by rfl) (by simp)]
    simp [Span.roundTrips.read_write, (Delimited.roundTrips Expr.roundTrips).read_write]
  write_read := by
    intro j call hfits hread
    simp only [Call.ofJson?, Option.bind_eq_bind, Option.bind_eq_some_iff] at hread
    obtain ⟨values, hvalues, hread⟩ := hread
    obtain ⟨hparts, htidy⟩ := Shape.tidy_of_record? (by simp) hfits hvalues
    obtain _ | ⟨hspanFits, _ | ⟨hcalleeFits, _ | ⟨hargumentsFit, ⟨⟩⟩⟩⟩ := hparts
    simp only [Option.bind_eq_some_iff, Option.pure_def, Option.some.injEq] at hread
    obtain ⟨span, hspan, callee, hcallee, arguments, harguments, rfl⟩ := hread
    show _ = (Shape.record _).tidy j
    rw [htidy, Call.toJson, Span.roundTrips.write_read hspanFits hspan,
      Span.roundTrips.write_read hcalleeFits hcallee,
      (Delimited.roundTrips Expr.roundTrips).write_read hargumentsFit harguments]
    rfl

theorem Decorator.roundTrips : RoundTrips Decorator.shape Decorator.ofJson? Decorator.toJson where
  fits_write := by
    intro decorator
    cases decorator with
    | call span application =>
      have happlication := Call.roundTrips.fits_write application
      refine Shape.fits_obj (by simp) (.cons ⟨rfl, Span.roundTrips.fits_write span⟩
        (.cons ⟨rfl, ?_⟩ .nil))
      exact Shape.fits_carrying (by rfl) happlication
    | bare span target =>
      have htarget := Span.roundTrips.fits_write target
      refine Shape.fits_obj (by simp) (.cons ⟨rfl, Span.roundTrips.fits_write span⟩
        (.cons ⟨rfl, ?_⟩ .nil))
      exact Shape.fits_carrying (by rfl) htarget
  read_write := by
    intro decorator
    cases decorator <;> unfold Decorator.ofJson? Decorator.toJson <;>
      rw [record?_obj (by rfl) (by simp)] <;>
      simp [variant?, Span.roundTrips.read_write, Call.roundTrips.read_write]
  write_read := by
    intro j decorator hfits hread
    simp only [Decorator.ofJson?, Option.bind_eq_bind, Option.bind_eq_some_iff] at hread
    obtain ⟨values, hvalues, hread⟩ := hread
    obtain ⟨hparts, htidy⟩ := Shape.tidy_of_record? (by simp) hfits hvalues
    obtain _ | ⟨hspanFits, _ | ⟨hexpressionFits, ⟨⟩⟩⟩ := hparts
    simp only [Option.bind_eq_some_iff] at hread
    obtain ⟨span, hspan, variant, hvariant, hread⟩ := hread
    show _ = (Shape.record _).tidy j
    split at hread
    · simp only [Option.bind_eq_some_iff, Option.pure_def, Option.some.injEq] at hread
      obtain ⟨application, happlication, rfl⟩ := hread
      rw [htidy, Decorator.toJson, Span.roundTrips.write_read hspanFits hspan,
        Call.roundTrips.write_variant rfl rfl hexpressionFits hvariant happlication]
      rfl
    · simp only [Option.bind_eq_some_iff, Option.pure_def, Option.some.injEq] at hread
      obtain ⟨target, htarget, rfl⟩ := hread
      rw [htidy, Decorator.toJson, Span.roundTrips.write_read hspanFits hspan,
        Span.roundTrips.write_variant rfl rfl hexpressionFits hvariant htarget]
      rfl
    · simp at hread

theorem Class.roundTrips : RoundTrips Class.shape Class.ofJson? Class.toJson where
  fits_write c := by
    refine Shape.fits_obj (by simp) ?_
    simp only [List.forall₂_cons, ClassId.roundTrips.fits_write, Span.roundTrips.fits_write,
      (Name.roundTrips.option rfl).fits_write, Decorator.roundTrips.list.fits_write,
      Modifier.roundTrips.list.fits_write,
      ((Delimited.roundTrips Span.roundTrips).option rfl).fits_write,
      ((Delimited.roundTrips HeritageClause.roundTrips).option rfl).fits_write,
      (Delimited.roundTrips Span.roundTrips).fits_write, and_self, List.Forall₂.nil]
  read_write := by
    intro c
    unfold Class.ofJson? Class.toJson
    rw [record?_obj (by rfl) (by simp)]
    simp [ClassId.roundTrips.read_write, Span.roundTrips.read_write,
      (Name.roundTrips.option rfl).read_write, Decorator.roundTrips.list.read_write,
      Modifier.roundTrips.list.read_write,
      ((Delimited.roundTrips Span.roundTrips).option rfl).read_write,
      ((Delimited.roundTrips HeritageClause.roundTrips).option rfl).read_write,
      (Delimited.roundTrips Span.roundTrips).read_write]
  write_read := by
    intro j c hfits hread
    simp only [Class.ofJson?, Option.bind_eq_bind, Option.bind_eq_some_iff] at hread
    obtain ⟨values, hvalues, hread⟩ := hread
    obtain ⟨hparts, htidy⟩ := Shape.tidy_of_record? (by simp) hfits hvalues
    obtain _ | ⟨hidFits, _ | ⟨hspanFits, _ | ⟨hnameFits, _ | ⟨hdecoratorsFit, _ |
      ⟨hmodifiersFit, _ | ⟨htypeParamsFit, _ | ⟨hheritageFits, _ | ⟨hmembersFit, ⟨⟩⟩⟩⟩⟩⟩⟩⟩⟩ :=
      hparts
    simp only [Option.bind_eq_some_iff, Option.pure_def, Option.some.injEq] at hread
    obtain ⟨id, hid, span, hspan, name, hname, decorators, hdecorators, modifiers, hmodifiers,
      typeParams, htypeParams, heritage, hheritage, members, hmembers, rfl⟩ := hread
    show _ = (Shape.record _).tidy j
    rw [htidy, Class.toJson, ClassId.roundTrips.write_read hidFits hid,
      Span.roundTrips.write_read hspanFits hspan,
      (Name.roundTrips.option rfl).write_read hnameFits hname,
      Decorator.roundTrips.list.write_read hdecoratorsFit hdecorators,
      Modifier.roundTrips.list.write_read hmodifiersFit hmodifiers,
      ((Delimited.roundTrips Span.roundTrips).option rfl).write_read htypeParamsFit htypeParams,
      ((Delimited.roundTrips HeritageClause.roundTrips).option rfl).write_read hheritageFits
        hheritage,
      (Delimited.roundTrips Span.roundTrips).write_read hmembersFit hmembers]
    rfl

theorem Statement.roundTrips :
    RoundTrips Statement.shape Statement.ofJson? Statement.toJson where
  fits_write := by
    intro statement
    obtain ⟨span, declared⟩ := statement
    cases declared with
    | none => exact Shape.fits_node (by simp [Shape.fits]) span
    | some c =>
      exact Shape.fits_node (Shape.fits_carrying (by rfl) (Class.roundTrips.fits_write c)) span
  read_write := by
    intro statement
    obtain ⟨span, declared⟩ := statement
    cases declared <;> simp [Statement.ofJson?, Statement.toJson, variant?,
      Class.roundTrips.read_write]
  write_read := by
    intro j statement hfits hread
    simp only [Statement.ofJson?, Option.bind_eq_bind, Option.bind_eq_some_iff] at hread
    obtain ⟨node, hnode, hread⟩ := hread
    show _ = (Shape.node _).tidy j
    split at hread
    · cases hread
      rw [Shape.tidy_of_bareNode hfits hnode (by simp), Statement.toJson]
    · simp only [Option.bind_eq_some_iff, Option.pure_def, Option.some.injEq] at hread
      obtain ⟨c, hc, rfl⟩ := hread
      obtain ⟨hclass, htidy⟩ :=
        Shape.tidy_of_carryingNode hfits hnode (by rfl) (ne_null_of_read hc rfl)
      rw [htidy, ← Class.roundTrips.write_read hclass hc]
      rfl
    · simp at hread

theorem Source.roundTrips : RoundTrips Source.shape Source.ofJson? Source.toJson where
  fits_write s := by
    refine Shape.fits_obj (by simp) ?_
    simp only [List.forall₂_cons, roundTrips_str.fits_write, Statement.roundTrips.list.fits_write,
      and_self, List.Forall₂.nil]
  read_write := by
    intro s
    unfold Source.ofJson? Source.toJson
    rw [record?_obj (by rfl) (by simp)]
    simp [roundTrips_str.read_write, Statement.roundTrips.list.read_write]
  write_read := by
    intro j s hfits hread
    simp only [Source.ofJson?, Option.bind_eq_bind, Option.bind_eq_some_iff] at hread
    obtain ⟨values, hvalues, hread⟩ := hread
    obtain ⟨hparts, htidy⟩ := Shape.tidy_of_record? (by simp) hfits hvalues
    obtain _ | ⟨hpathFits, _ | ⟨htextFits, _ | ⟨hstatementsFit, ⟨⟩⟩⟩⟩ := hparts
    simp only [Option.bind_eq_some_iff, Option.pure_def, Option.some.injEq] at hread
    obtain ⟨path, hpath, text, htext, statements, hstatements, rfl⟩ := hread
    show _ = (Shape.record _).tidy j
    rw [htidy, Source.toJson, roundTrips_str.write_read hpathFits hpath,
      roundTrips_str.write_read htextFits htext,
      Statement.roundTrips.list.write_read hstatementsFit hstatements]
    rfl

/-! ## The main result -/

namespace Source

/-- Sources survive JSON. A source is read as it was written, whatever its
spans, so no two sources are written alike, and one that was let through
is let through again. What is written is of the documented shape and
tidy. And if a source is read from a JSON value of that shape, the tidy
value is written for it, from which the same source is read: all that is
gone are the keys that nobody knows, and those that a class may leave out
are null. -/
theorem json_round_trip :
    (∀ s : Source, ofJson? s.toJson = some s) ∧
    (∀ s t : Source, s.toJson = t.toJson → s = t) ∧
    (∀ s t : Source, s.validated = .ok t →
      (ofJson? t.toJson).map validated = some (.ok t)) ∧
    (∀ s : Source, shape.fits s.toJson = true ∧ shape.tidy s.toJson = s.toJson) ∧
    (∀ (j : Json) (s : Source), shape.fits j = true → ofJson? j = some s →
      s.toJson = shape.tidy j ∧ ofJson? (shape.tidy j) = some s) := by
  refine ⟨roundTrips.read_write, ?_, ?_, ?_, ?_⟩
  · intro s t h
    have hread : some s = some t := by
      rw [← roundTrips.read_write s, h, roundTrips.read_write t]
    exact Option.some.inj hread
  · intro s t h
    have ht : t = s := ((validated_eq_ok_iff s t).1 h).1
    rw [roundTrips.read_write t, Option.map_some, ht, h, ht]
  · intro s
    exact ⟨roundTrips.fits_write s, roundTrips.tidy_write s⟩
  · intro j s hfits hread
    have hwritten := roundTrips.write_read hfits hread
    exact ⟨hwritten, hwritten ▸ roundTrips.read_write s⟩

/-- A file with one class that has neither a name nor a header. -/
def tag : Source where
  path := "tag.ts"
  text := "@C(\x7bn\x7d)class \x7b\x7d"
  statements := [⟨⟨0, 15⟩, some {
    id := ⟨4⟩
    span := ⟨0, 15⟩
    name := none
    decorators := [.call ⟨0, 7⟩ ⟨⟨1, 7⟩, ⟨1, 2⟩,
      ⟨⟨2, 7⟩, [.object ⟨3, 6⟩ [.shorthand ⟨4, 5⟩ ⟨"n", ⟨4, 5⟩⟩]]⟩⟩]
    modifiers := []
    typeParams := none
    heritage := none
    members := ⟨⟨13, 15⟩, []⟩ }⟩]

/-- The file as JSON that leaves out what the class lacks and has keys
that nobody knows. -/
def tagJson : Json :=
  let literal : Json := .obj [("properties", .arr [.obj [("span", Span.toJson ⟨4, 5⟩),
    ("kind", .obj [("Shorthand", .obj [("text", .str "n"), ("quoted", .bool false),
      ("span", Span.toJson ⟨4, 5⟩)])])]])]
  let decorator : Json := .obj [("span", Span.toJson ⟨0, 7⟩), ("expression", .obj [("Call", .obj [
    ("callee", Span.toJson ⟨1, 2⟩), ("span", Span.toJson ⟨1, 7⟩),
    ("arguments", .obj [("span", Span.toJson ⟨2, 7⟩), ("items", .arr [.obj [
      ("span", Span.toJson ⟨3, 6⟩), ("kind", .obj [("ObjectLiteral", literal)])]])])])])]
  .obj [("version", .int 2), ("text", .str "@C(\x7bn\x7d)class \x7b\x7d"), ("path", .str "tag.ts"),
    ("statements", .arr [.obj [("span", Span.toJson ⟨0, 15⟩), ("kind", .obj [("Class", .obj [
      ("id", .int 4), ("span", Span.toJson ⟨0, 15⟩), ("decorators", .arr [decorator]),
      ("modifiers", .arr []), ("doc", .null),
      ("members", .obj [("span", Span.toJson ⟨13, 15⟩), ("items", .arr [])])])])]])]

theorem json_round_trip_tag :
    shape.fits tagJson = true ∧ ofJson? tagJson = some tag ∧ tag.validated = .ok tag ∧
    (tag.toJson = shape.tidy tagJson ∧ ofJson? (shape.tidy tagJson) = some tag) ∧
    (ofJson? tag.toJson).map validated = some (.ok tag) := by
  obtain ⟨-, -, hvalidated, -, hwritten⟩ := json_round_trip
  have hfits : shape.fits tagJson = true := by decide
  have hread : ofJson? tagJson = some tag := by decide
  have hvalid : tag.validated = .ok tag := by decide
  exact ⟨hfits, hread, hvalid, hwritten tagJson tag hfits hread, hvalidated tag tag hvalid⟩

end Source

end HotSwap
