import QueryPath.Proofs.Catalog.Use

/-!
# The metamodel of a checked definition

`LaidOut d stored m uses` says of a metamodel `m` that it describes the entities of the definition
`d` with their tables and the entities above and below them, and that the mappings of each entity
are those of the attributes that are listed for it in `stored`. The metamodel is made in steps that
keep this true while the list grows (`metamodel_spec`): for each entity it lists the identifier, the
attributes of the mapped supertypes up to the next entity, and its own. Before that, the entities
are declared and put under one another (`Skeleton`).

None of the steps fails. Each entity has a table and each name leads somewhere, as the check of the
definition has found; and names that do not clash in the definition do not clash among mappings.
-/

namespace QueryPath.Definition

open Physical (Metamodel UsageId Usage Mapping)

/-! ## Attributes stored with an entity -/

section StoredWith

variable (d : Definition Attribute)

/-- The attributes that are stored with an entity. -/
def storedWith (e : Entity Attribute) : List Attribute :=
  e.identifier.toList.map Identifier.attribute ++
    ((d.flattened e).flatMap (·.attributes) ++ e.attributes)

/-- The entities directly below the entity of a name, in the order of their declaration. -/
def below (entities : List (Entity Attribute)) (n : String) : List String :=
  (entities.filter fun c => (d.nearestEntity? c).map (·.name) == some n).map (·.name)

variable {d} (checked : Checked d)

include checked

/-- Attributes stored with an entity are declared by it or by a type above it. -/
theorem mem_storedWith (acyclic : Acyclic d.supertypeOf?) {e : Entity Attribute}
    (he : e ∈ d.entities) {a : Attribute} (ha : a ∈ d.storedWith e) :
    ∃ n ∈ d.typeNames, a ∈ d.members n := by
  have nodup := checked.nodup_typeNames
  obtain ⟨-, -, hflat, -⟩ := exists_segments checked.wellNamed acyclic he
  have own : ∀ a, a ∈ e.identifier.toList.map Identifier.attribute ++ e.attributes →
      ∃ n ∈ d.typeNames, a ∈ d.members n := fun a ha =>
    ⟨e.name, mem_typeNames_of_entity he, by rwa [members_entity nodup he]⟩
  rcases List.mem_append.1 ha with ha | ha
  · exact own a (List.mem_append_left _ ha)
  · rcases List.mem_append.1 ha with ha | ha
    · obtain ⟨s, hs, ha⟩ := List.mem_flatMap.1 ha
      have hs := hflat s hs
      exact ⟨s.name, mem_typeNames.2 (.inr (.inl ⟨s, hs, rfl⟩)),
        by rwa [members_mappedSupertype nodup hs]⟩
    · exact own a (List.mem_append_right _ ha)

/-- The attributes along the chain of an entity are those stored with it and then those along the
chain of the nearest entity above it. -/
theorem members_chain (acyclic : Acyclic d.supertypeOf?) {e : Entity Attribute}
    (he : e ∈ d.entities) : ∃ l rest, Walk d.supertypeOf? e.name l ∧
      (l.flatMap d.members).Perm (d.storedWith e ++ rest.flatMap d.members) ∧
      d.ChainOf (d.nearestEntity? e) rest := by
  have nodup := checked.nodup_typeNames
  obtain ⟨rest, hl, hflat, hnext⟩ := exists_segments checked.wellNamed acyclic he
  refine ⟨_, rest, hl, ?_, hnext⟩
  have hmapped : ((d.flattened e).map (·.name)).flatMap d.members =
      (d.flattened e).flatMap (·.attributes) := by
    rw [List.flatMap_map]
    apply List.flatMap_congr
    intro s hs
    exact members_mappedSupertype nodup (hflat s hs)
  rw [List.cons_append, List.flatMap_cons, List.flatMap_append, ← List.append_assoc]
  apply List.Perm.append_right _
  rw [List.map_reverse, members_entity nodup he, storedWith, List.append_assoc]
  refine List.Perm.append_left _ (List.perm_append_comm.trans (List.Perm.append_right _ ?_))
  rw [← hmapped]
  exact (List.reverse_perm _).flatMap_right _

theorem nodup_storedWith (acyclic : Acyclic d.supertypeOf?) (distinct : DistinctNames d.outline)
    {e : Entity Attribute} (he : e ∈ d.entities) : ((d.storedWith e).map (·.name)).Nodup := by
  obtain ⟨l, rest, hl, hperm, -⟩ := members_chain checked acyclic he
  have hnodup := nodup_chain distinct (mem_typeNames_of_entity he) hl
  rw [(hperm.map _).nodup_iff, List.map_append] at hnodup
  exact (List.nodup_append.1 hnodup).1

/-- Each embeddable that an attribute refers to can be used. -/
theorem addsUse_of_mem (distinct : DistinctNames d.outline) {n : String} {a : Attribute}
    (ha : a ∈ d.members n) {target : String} (htarget : a.shape.embedded? = some target) :
    AddsUse d (addUsage d.embeddables) target := by
  have hshape := checked.checkShape _ (mem_members.1 ha)
  have hsome : (d.embeddable? target).isSome = true := by
    cases hs : a.shape with
    | embedded t start =>
      rw [hs] at htarget hshape
      obtain rfl : t = target := Option.some.inj htarget
      exact checkEmbeddable_eq_ok.1 hshape
    | plural p =>
      rw [hs] at htarget hshape
      have helement := (checkPlural_eq_ok.1 hshape).1
      cases he : p.element with
      | embedded t start =>
        rw [he] at helement
        simp only [Shape.embedded?, he, Option.some.injEq] at htarget
        exact htarget ▸ checkEmbeddable_eq_ok.1 helement
      | basic kind column => simp [Shape.embedded?, he] at htarget
      | entity t column => simp [Shape.embedded?, he] at htarget
    | basic kind column storedAs => simp [hs, Shape.embedded?] at htarget
    | toOne t column => simp [hs, Shape.embedded?] at htarget
    | any t => simp [hs, Shape.embedded?] at htarget
  obtain ⟨e, he⟩ := Option.isSome_iff_exists.1 hsome
  obtain ⟨hmem, rfl⟩ := embeddable?_mem he
  refine addUsage_spec checked (fun e he => ?_) (List.Sublist.refl _) ?_
  · exact distinct.embeddable (e.map Attribute.name) (List.mem_map_of_mem he)
  · exact forM_eq_ok.1 checked.nesting e.name (List.mem_map_of_mem hmem)

end StoredWith

/-! ## Entities and what lies above and below them -/

/-- The descriptor of an entity has its table and the entities above and below it, as far as the
entities in `linked` are taken into account, and no mappings. -/
structure Linked (d : Definition Attribute) (linked : List (Entity Attribute))
    (e : Entity Attribute) (x : Physical.Entity) : Prop where
  table : d.tableOf? e.name = some x.table
  supertype : x.supertype = ((linked.find? (·.name == e.name)).bind d.nearestEntity?).map (·.name)
  subtypes : x.subtypes = d.below linked e.name
  mappings : x.mappings = []

/-- The metamodel has the entities in `declared` with the links of those in `linked`, and nothing
else. -/
structure Skeleton (d : Definition Attribute) (declared linked : List (Entity Attribute))
    (m : Metamodel) : Prop where
  entityNames : m.entityNames = declared.map (·.name)
  usages : m.usages = []
  entity : ∀ e ∈ declared, ∃ x, m.entity? e.name = some x ∧ Linked d linked e x

section Links

variable {d : Definition Attribute} {m : Metamodel}

/-- One more entity is declared under a name that is new. -/
theorem Skeleton.declare (nodup : d.typeNames.Nodup) {done rest : List (Entity Attribute)}
    {e : Entity Attribute} (hl : d.entities = done ++ e :: rest) (h : Skeleton d done [] m)
    {table : String} (htable : d.tableOf? e.name = some table) :
    ∃ m', m.declareEntity e.name table = .ok m' ∧ Skeleton d (done ++ [e]) [] m' := by
  have hnone : m.entity? e.name = none := by
    rw [← Option.not_isSome_iff_eq_none, Metamodel.entity?_isSome, h.entityNames]
    exact not_mem_before (nodup_entities nodup) hl
  refine ⟨{ m with entities := m.entities ++ [{ name := e.name, table }] },
    by rw [Metamodel.declareEntity, hnone], ?_, h.usages, fun e' he' => ?_⟩
  · rw [List.map_append, ← h.entityNames, Metamodel.entityNames, List.map_append]
    rfl
  · rw [Metamodel.entity?, List.find?_append]
    rcases List.mem_append.1 he' with hdone | hlast
    · obtain ⟨x, hx, hlink⟩ := h.entity e' hdone
      rw [Metamodel.entity?] at hx
      exact ⟨x, by rw [hx, Option.some_or], hlink⟩
    · obtain rfl := List.mem_singleton.1 hlast
      rw [Metamodel.entity?] at hnone
      rw [hnone, Option.none_or, List.find?_singleton, if_pos BEq.rfl]
      exact ⟨_, rfl, htable, rfl, rfl, rfl⟩

/-- The entities of a checked definition can be declared, since they have tables and their names
differ. -/
theorem declareEntities_spec (checked : Checked d) :
    Ensures (d.entities.foldlM d.declareEntity {}) (Skeleton d d.entities []) fun _ => False := by
  refine ensures_foldlM (fun done => Skeleton d done []) ⟨rfl, rfl, fun e he => by cases he⟩ ?_
  intro done e rest m hl h
  obtain ⟨table, htable⟩ := checked.exists_table e (hl ▸ List.mem_append_right _ List.mem_cons_self)
  obtain ⟨m', hm', h'⟩ := h.declare checked.nodup_typeNames hl htable
  refine .of_exists_ok ⟨m', ?_, h'⟩
  rw [declareEntity, htable]
  exact mapError_eq_ok.2 hm'

theorem below_append (d : Definition Attribute) (done : List (Entity Attribute))
    (c : Entity Attribute) (n : String) : d.below (done ++ [c]) n =
      d.below done n ++ if (d.nearestEntity? c).map (·.name) = some n then [c.name] else [] := by
  rw [below, below, List.filter_append, List.map_append]
  congr 1
  simp only [List.filter_cons, List.filter_nil, beq_iff_eq]
  split <;> rfl

theorem find?_before (nodup : d.typeNames.Nodup) {done rest : List (Entity Attribute)}
    {c : Entity Attribute} (hl : d.entities = done ++ c :: rest) :
    done.find? (·.name == c.name) = none := by
  apply List.find?_eq_none.2
  intro y hy hyn
  exact not_mem_before (nodup_entities nodup) hl (List.mem_map.2 ⟨y, hy, beq_iff_eq.1 hyn⟩)

/-- Taking one more entity into account. -/
theorem Linked.step (nodup : d.typeNames.Nodup) {done rest : List (Entity Attribute)}
    {c e : Entity Attribute} {x : Physical.Entity} (hl : d.entities = done ++ c :: rest)
    (h : Linked d done e x) : Linked d (done ++ [c]) e { x with
      supertype := if e.name = c.name then (d.nearestEntity? c).map (·.name) else x.supertype
      subtypes := if (d.nearestEntity? c).map (·.name) = some e.name then x.subtypes ++ [c.name]
        else x.subtypes } := by
  refine ⟨h.table, ?_, ?_, h.mappings⟩
  · rw [List.find?_append]
    by_cases hn : e.name = c.name
    · rw [if_pos hn, hn, find?_before nodup hl]
      simp
    · rw [if_neg hn, h.supertype]
      cases done.find? (·.name == e.name) with
      | some y => rfl
      | none => simp [Ne.symm hn]
  · rw [below_append, h.subtypes]
    by_cases hb : (d.nearestEntity? c).map (·.name) = some e.name
    · rw [if_pos hb, if_pos hb]
    · rw [if_neg hb, if_neg hb, List.append_nil]

theorem linkEntity_eq {e s : Entity Attribute} (hs : d.nearestEntity? e = some s)
    (he : e.name ∈ m.entityNames) (hmem : s.name ∈ m.entityNames) :
    d.linkEntity m e = (m.setSupertype e.name s.name).mapError .physical := by
  obtain ⟨x, hx, hxn, -⟩ := exists_declaredEntity he
  obtain ⟨y, hy, hyn, -⟩ := exists_declaredEntity hmem
  simp only [linkEntity, hs, hx, hy, bind, Except.bind, hxn, hyn]

/-- All entities have their links in the end. -/
theorem linkEntities_spec (checked : Checked d) (acyclic : Acyclic d.supertypeOf?)
    (h : Skeleton d d.entities [] m) :
    Ensures (d.entities.foldlM d.linkEntity m) (Skeleton d d.entities d.entities)
      fun _ => False := by
  have nodup := checked.nodup_typeNames
  refine ensures_foldlM (Skeleton d d.entities) h ?_
  rintro done c rest m hl ⟨hnames, husages, hlinked⟩
  have hc : c ∈ d.entities := hl ▸ List.mem_append_right _ List.mem_cons_self
  obtain ⟨_, _, _, _, hnext⟩ := members_chain checked acyclic hc
  cases hs : d.nearestEntity? c with
  | none =>
    rw [linkEntity, hs]
    refine ensures_ok.2 ⟨hnames, husages, fun e he => ?_⟩
    obtain ⟨x, hx, hlink⟩ := hlinked e he
    have hnone : (if e.name = c.name then none else x.supertype) = x.supertype := by
      split
      · rename_i hn
        rw [hlink.supertype, hn, find?_before nodup hl]
        rfl
      · rfl
    have hstep := hlink.step nodup hl
    rw [hs, Option.map_none, hnone] at hstep
    exact ⟨x, hx, by simpa using hstep⟩
  | some s =>
    rw [hs] at hnext
    have hcn : c.name ∈ m.entityNames := hnames ▸ List.mem_map_of_mem hc
    have hsn : s.name ∈ m.entityNames := hnames ▸ List.mem_map_of_mem hnext.1
    obtain ⟨m', hm', hnames', husages', hentity⟩ := Metamodel.setSupertype_spec hcn hsn
    rw [linkEntity_eq hs hcn hsn, hm']
    refine ensures_ok.2 ⟨hnames'.trans hnames, husages'.trans husages, fun e he => ?_⟩
    obtain ⟨x, hx, hlink⟩ := hlinked e he
    refine ⟨_, hentity _ _ hx, ?_⟩
    have hstep := hlink.step nodup hl
    rw [hs] at hstep
    simpa using hstep

end Links

/-! ## Mappings of entities -/

/-- The descriptor of an entity has its links, and mappings of some attributes. -/
structure EntityStored (d : Definition Attribute) (tableOf : String → String) (uses : Uses)
    (as : List Attribute) (e : Entity Attribute) (x : Physical.Entity) : Prop where
  table : d.tableOf? e.name = some x.table
  supertype : x.supertype = (d.nearestEntity? e).map (·.name)
  subtypes : x.subtypes = d.below d.entities e.name
  mappings : List.Forall₂ (Attribute.Stored tableOf uses ⟨e.name, tableOf e.name, ""⟩) as x.mappings

/-- The metamodel describes the entities of the definition, with mappings of the attributes that are
listed with their names. -/
structure LaidOut (d : Definition Attribute) (stored : List (String × Attribute)) (m : Metamodel)
    (uses : Uses) : Prop where
  entityNames : m.entityNames = d.entities.map (·.name)
  entity : ∀ e ∈ d.entities, ∃ x, m.entity? e.name = some x ∧
    EntityStored d m.tableOf uses ((stored.filter (·.1 == e.name)).map (·.2)) e x
  length : uses.length = m.usages.length
  complete : CompleteFrom d m.tableOf 0 uses m.usages

namespace LaidOut

variable {d : Definition Attribute} {m m' : Metamodel} {uses uses' : Uses}
  {stored : List (String × Attribute)}

theorem start (h : Skeleton d d.entities d.entities m) (nodup : d.typeNames.Nodup) :
    LaidOut d [] m [] := by
  refine ⟨h.entityNames, fun e he => ?_, by simp [h.usages],
    fun id u _ hu => by simp [h.usages] at hu⟩
  obtain ⟨x, hx, hlink⟩ := h.entity e he
  have hfind : d.entities.find? (·.name == e.name) = some e := entity?_of_mem nodup he
  refine ⟨x, hx, hlink.table, ?_, hlink.subtypes, hlink.mappings ▸ .nil⟩
  rw [hlink.supertype, hfind]
  rfl

theorem ready (h : LaidOut d stored m uses) : Ready d m uses := ⟨h.entityNames, h.length⟩

/-- Identifier and discriminator are of no concern. -/
theorem modifyEntity (h : LaidOut d stored m uses) (n : String)
    {f : Physical.Entity → Physical.Entity} (hf : ∀ x, (f x).name = x.name ∧ (f x).table = x.table ∧
      (f x).supertype = x.supertype ∧ (f x).subtypes = x.subtypes ∧ (f x).mappings = x.mappings) :
    LaidOut d stored (m.modifyEntity n f) uses := by
  have htable := Metamodel.tableOf_modifyEntity (fun x => (hf x).1) m n
    fun x => (hf x).2.1
  refine ⟨(Metamodel.entityNames_modifyEntity fun x => (hf x).1).trans h.entityNames,
    fun e he => ?_, h.length, htable ▸ h.complete⟩
  obtain ⟨x, hx, hs⟩ := h.entity e he
  rw [Metamodel.entity?_modifyEntity fun x => (hf x).1, hx, htable]
  refine ⟨_, rfl, ?_⟩
  dsimp only
  split
  · obtain ⟨-, h₁, h₂, h₃, h₄⟩ := hf x
    exact ⟨hs.table.trans (congrArg some h₁.symm), h₂.trans hs.supertype, h₃.trans hs.subtypes,
      h₄ ▸ hs.mappings⟩
  · exact hs

theorem adds (h : LaidOut d stored m uses) (hadds : Adds d m uses m' uses') :
    LaidOut d stored m' uses' := by
  have hentity : m'.entity? = m.entity? := by
    funext n
    rw [Metamodel.entity?, hadds.entities, Metamodel.entity?]
  refine ⟨?_, fun e he => ?_, hadds.length, ?_⟩
  · rw [Metamodel.entityNames, hadds.entities]
    exact h.entityNames
  · rw [hentity, hadds.tableOf]
    obtain ⟨x, hx, hs⟩ := h.entity e he
    exact ⟨x, hx, hs.table, hs.supertype, hs.subtypes, hs.mappings.imp fun _ _ => .mono hadds.uses⟩
  · rw [hadds.tableOf]
    exact h.complete.append hadds.usages hadds.uses hadds.complete

/-- One more mapping of an entity. -/
theorem addMapping (h : LaidOut d stored m uses) {e : Entity Attribute} (he : e ∈ d.entities)
    {a : Attribute} {x : Mapping}
    (hx : a.Stored m.tableOf uses ⟨e.name, m.tableOf e.name, ""⟩ x)
    (hn : a.name ∉ ((stored.filter (·.1 == e.name)).map (·.2)).map (·.name)) :
    ∃ m', m.addMapping e.name x = .ok m' ∧ m'.tableOf = m.tableOf ∧
      LaidOut d (stored ++ [(e.name, a)]) m' uses := by
  obtain ⟨y, hy, hs⟩ := h.entity e he
  have hname : x.name ∉ y.mappings.map Mapping.name := by
    rwa [Attribute.Stored.names_eq hs.mappings, hx.name_eq]
  have hnames : ∀ z : Physical.Entity,
      ({ z with mappings := z.mappings ++ [x] } : Physical.Entity).name = z.name := fun _ => rfl
  have htable := Metamodel.tableOf_modifyEntity hnames m e.name fun _ => rfl
  refine ⟨_, Metamodel.addMapping_eq_ok hy hname, htable,
    (Metamodel.entityNames_modifyEntity hnames).trans h.entityNames, fun e' he' => ?_, h.length,
    htable ▸ h.complete⟩
  obtain ⟨z, hz, hs'⟩ := h.entity e' he'
  rw [Metamodel.entity?_modifyEntity hnames, hz, htable, List.filter_append, List.map_append]
  refine ⟨_, rfl, ?_⟩
  dsimp only
  have hzn := Metamodel.entity?_name hz
  by_cases hen : e'.name = e.name
  · rw [if_pos (hzn.trans hen)]
    refine ⟨hs'.table, hs'.supertype, hs'.subtypes, List.rel_append hs'.mappings ?_⟩
    rw [← hen] at hx
    simpa [hen] using hx
  · rw [if_neg fun hzen => hen (hzn.symm.trans hzen)]
    simpa [Ne.symm hen] using hs'

end LaidOut

section Metamodel

variable {d : Definition Attribute} {m : Metamodel} {uses : Uses}
  {stored : List (String × Attribute)} {e : Entity Attribute} (he : e ∈ d.entities)

include he

/-- Declared attributes are stored one after another. -/
theorem storeAttributes_spec (checked : Checked d) (distinct : DistinctNames d.outline)
    (h : LaidOut d stored m uses) {as : List Attribute} (has : ∀ a ∈ as, ∃ n, a ∈ d.members n)
    (hnodup : (((stored.filter (·.1 == e.name)).map (·.2) ++ as).map (·.name)).Nodup) :
    Ensures (as.foldlM (d.storeAttribute e (m.tableOf e.name)) m)
      (fun m' => ∃ uses', LaidOut d (stored ++ as.map (e.name, ·)) m' uses') fun _ => False := by
  refine Ensures.imp (ensures_foldlM (fun done m' => m'.tableOf = m.tableOf ∧
    ∃ uses', LaidOut d (stored ++ done.map (e.name, ·)) m' uses') ⟨rfl, uses, by simpa⟩ ?_)
    fun m' h => h.2
  rintro done a rest m' hl ⟨htable, uses', hm'⟩
  obtain ⟨n, ha⟩ := has a (hl ▸ List.mem_append_right _ List.mem_cons_self)
  obtain ⟨x, m₁, uses₁, hm₁, hadds, hx⟩ := mappingAt_spec hm'.ready
    ⟨e.name, m.tableOf e.name, ""⟩ (checked.checkShape _ (mem_members.1 ha))
    fun target htarget => addsUse_of_mem checked distinct ha htarget
  have hfresh : a.name ∉
      (((stored ++ done.map (e.name, ·)).filter (·.1 == e.name)).map (·.2)).map (·.name) := by
    rw [hl, ← List.append_assoc] at hnodup
    simpa [List.filter_map, Function.comp_def] using not_mem_before hnodup rfl
  rw [← htable, ← hadds.tableOf] at hx
  obtain ⟨m₂, hm₂, htable₂, h₂⟩ := (hm'.adds hadds).addMapping he hx hfresh
  refine .of_exists_ok ⟨m₂, bind_eq_ok.2 ⟨_, hm₁, mapError_eq_ok.2 hm₂⟩, ?_, uses₁, ?_⟩
  · rw [htable₂, hadds.tableOf, htable]
  · simpa using h₂

/-- The identifier is stored like an attribute. -/
theorem storeIdentifier_spec (h : LaidOut d stored m uses)
    (hnone : stored.filter (·.1 == e.name) = []) :
    Ensures (storeIdentifier e (m.tableOf e.name) m)
      (fun m' => m'.tableOf = m.tableOf ∧ LaidOut d
        (stored ++ (e.identifier.toList.map Identifier.attribute).map (e.name, ·)) m' uses)
      fun _ => False := by
  unfold storeIdentifier
  cases e.identifier with
  | none => exact ensures_ok.2 ⟨rfl, by simpa using h⟩
  | some i =>
    have hx : i.attribute.Stored m.tableOf uses ⟨e.name, m.tableOf e.name, ""⟩
        (.column ⟨i.name, m.tableOf e.name, Place.column ⟨e.name, m.tableOf e.name, ""⟩ i.column,
          i.kind⟩) := .basic
    rw [Place.column, String.empty_append] at hx
    obtain ⟨m', hm', htable, h'⟩ := h.addMapping he hx (by simp [hnone])
    dsimp only
    rw [Metamodel.setIdentifier, hm']
    refine ensures_ok.2 ⟨?_, h'.modifyEntity e.name fun _ => ⟨rfl, rfl, rfl, rfl, rfl⟩⟩
    rw [Metamodel.tableOf_modifyEntity, htable] <;> exact fun _ => rfl

theorem storeDiscriminator_spec (h : LaidOut d stored m uses) :
    Ensures (storeDiscriminator e m)
      (fun m' => m'.tableOf = m.tableOf ∧ LaidOut d stored m' uses) fun _ => False := by
  unfold storeDiscriminator
  cases e.discriminator with
  | none => exact ensures_ok.2 ⟨rfl, h⟩
  | some x =>
    obtain ⟨y, hy, -⟩ := h.entity e he
    dsimp only
    rw [Metamodel.setDiscriminator, Metamodel.entity_eq_ok.2 hy]
    refine ensures_ok.2 ⟨?_, h.modifyEntity e.name fun _ => ⟨rfl, rfl, rfl, rfl, rfl⟩⟩
    rw [Metamodel.tableOf_modifyEntity] <;> exact fun _ => rfl

/-- All mappings of an entity. -/
theorem layOutEntity_spec (checked : Checked d) (acyclic : Acyclic d.supertypeOf?)
    (distinct : DistinctNames d.outline) (h : LaidOut d stored m uses)
    (hnone : stored.filter (·.1 == e.name) = []) :
    Ensures (d.layOutEntity m e)
      (fun m' => ∃ uses', LaidOut d (stored ++ (d.storedWith e).map (e.name, ·)) m' uses')
      fun _ => False := by
  have hnodup := nodup_storedWith checked acyclic distinct he
  obtain ⟨x, hx, -, htable⟩ := exists_declaredEntity (h.entityNames ▸ List.mem_map_of_mem he)
  unfold layOutEntity
  rw [hx]
  dsimp only [bind, Except.bind]
  rw [htable]
  refine (storeIdentifier_spec he h hnone).bind fun m₁ ⟨htable₁, h₁⟩ => ?_
  refine (storeDiscriminator_spec he h₁).bind fun m₂ ⟨htable₂, h₂⟩ => ?_
  rw [← htable₁, ← htable₂]
  refine (storeAttributes_spec he checked distinct h₂ (fun a ha => ?_) ?_).imp ?_
  · obtain ⟨n, -, hn⟩ := mem_storedWith checked acyclic he (List.mem_append_right _ ha)
    exact ⟨n, hn⟩
  · simpa [hnone, List.filter_map, Function.comp_def, storedWith] using hnodup
  · rintro m' ⟨uses', h'⟩
    exact ⟨uses', by simpa [storedWith] using h'⟩

omit he in
/-- A checked definition has a metamodel, unless its supertypes have a cycle or names of its
attributes clash. -/
theorem metamodel_spec (checked : Checked d) (acyclic : Acyclic d.supertypeOf?)
    (distinct : DistinctNames d.outline) : ∃ m uses, d.metamodel = .ok m ∧
      LaidOut d (d.entities.flatMap fun e => (d.storedWith e).map (e.name, ·)) m uses := by
  suffices h : Ensures d.metamodel (fun m => ∃ uses, LaidOut d
      (d.entities.flatMap fun e => (d.storedWith e).map (e.name, ·)) m uses) fun _ => False by
    obtain ⟨m, hm, uses, hlaid⟩ := h.exists_ok
    exact ⟨m, uses, hm, hlaid⟩
  refine (declareEntities_spec checked).bind fun m hm => ?_
  refine (linkEntities_spec checked acyclic hm).bind fun m hm => ?_
  refine ensures_foldlM (fun done m => ∃ uses, LaidOut d
    (done.flatMap fun e => (d.storedWith e).map (e.name, ·)) m uses)
    ⟨[], .start hm checked.nodup_typeNames⟩ ?_
  rintro done e rest m hl ⟨uses, h⟩
  rw [List.flatMap_append, List.flatMap_singleton]
  refine layOutEntity_spec (hl ▸ List.mem_append_right _ List.mem_cons_self) checked acyclic
    distinct h ?_
  have hdone := List.find?_eq_none.1 (find?_before checked.nodup_typeNames hl)
  apply List.filter_eq_nil_iff.2
  intro x hx hn
  obtain ⟨e', he', hx⟩ := List.mem_flatMap.1 hx
  obtain ⟨a, -, rfl⟩ := List.mem_map.1 hx
  exact hdone e' he' hn

-- It is the check that makes the difference: the metamodel finds fault with these two itself.
example : Definition.metamodel { entities := [{ name := "Bid" }] } =
    .error (.invalid (.noTable "Bid")) := by rfl

example : Definition.metamodel { entities := [{
      name := "Bid", table := some "bids"
      attributes := [⟨"auction", .toOne "Auction" "auction_id", false⟩] }] } =
    .error (.invalid (.undeclaredEntity "Auction")) := by rfl

end Metamodel

end QueryPath.Definition
