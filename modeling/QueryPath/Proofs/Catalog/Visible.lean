import QueryPath.Proofs.Catalog.Correspondence

/-!
# Attributes that a type has

The attributes of a type are those that its definition declares along its chain. The domain model
finds them on the chain of types (`exists_member_of_attribute`), the metamodel in the lineage of an
entity, where the attributes of mapped supertypes are stored with the first entity below them
(`entityPart?_spec`). So an attribute leads to a part on both sides or on neither.
-/

namespace QueryPath.Catalog.MadeFrom

open Definition (Attribute Identifier)
open Logical (TypeId)
open Physical (Metamodel Part)

variable {c : Catalog} {d : Definition Attribute} {uses : Definition.Uses}
  (made : c.MadeFrom d uses)

include made

/-! ## In the domain model -/

section Logical

variable {n : String} {id : TypeId} (hid : c.logical.find? n = some id) {l : List String}
  (hl : Walk d.supertypeOf? n l)

include hid hl

/-- The chain of a type goes along with that of its name. -/
theorem chain_eq :
    List.Forall₂ (fun n id => c.logical.find? n = some id) l (c.logical.chain id) := by
  obtain ⟨ids, hids, hrel⟩ := made.drafted.walk made.checked hid hl
  have hwalk := made.regular.walk_chain (Logical.Draft.lt_of_find? hid)
  rwa [hwalk.unique hids]

/-- An attribute of a type comes from a declaration along its chain. -/
theorem exists_member_of_attribute {x : TypeId × Logical.Attribute}
    (hx : x ∈ c.logical.attributesOf id) :
    ∃ n' ∈ l, ∃ a ∈ d.members n', a.Becomes c.logical.toDraft x.2 := by
  obtain ⟨t, b⟩ := x
  obtain ⟨ht, hb⟩ := Logical.Draft.mem_attributesOf.1 hx
  obtain ⟨n', hn', hfind⟩ := exists_mem_of_forall₂' (made.chain_eq hid hl) ht
  obtain ⟨a, ha, hbec⟩ := exists_mem_of_forall₂' (made.drafted.attributes n' t hfind) hb
  exact ⟨n', hn', a, ha, hbec⟩

/-- A declaration along the chain of a type gives it an attribute. -/
theorem exists_attribute_of_member {n' : String} (hn' : n' ∈ l) {a : Attribute}
    (ha : a ∈ d.members n') :
    ∃ x ∈ c.logical.attributesOf id, a.Becomes c.logical.toDraft x.2 := by
  obtain ⟨t, ht, hfind⟩ := exists_mem_of_forall₂ (made.chain_eq hid hl) hn'
  obtain ⟨b, hb, hbec⟩ := exists_mem_of_forall₂ (made.drafted.attributes n' t hfind) ha
  exact ⟨(t, b), Logical.Draft.mem_attributesOf.2 ⟨ht, hb⟩, hbec⟩

end Logical

/-! ## In the metamodel -/

theorem exists_chain {e : Definition.Entity Attribute} (he : e ∈ d.entities) :
    ∃ l, Walk d.supertypeOf? e.name l := by
  obtain ⟨l, hl, -⟩ := Definition.exists_walk_supertypes made.checked.wellNamed made.acyclic
    (Definition.mem_typeNames_of_entity he)
  exact ⟨l, hl⟩

/-- The descriptor of an entity has the mappings of all attributes that are stored with it. -/
theorem entity_stored {e : Definition.Entity Attribute} (he : e ∈ d.entities) :
    ∃ x, c.metamodel.entity? e.name = some x ∧
      Definition.EntityStored d c.metamodel.tableOf uses (d.storedWith e) e x := by
  obtain ⟨x, hx, hs⟩ := made.laidOut.entity e he
  rw [Definition.filter_flatMap Definition.Entity.name, Definition.filter_eq_singleton
    (Definition.nodup_entities made.checked.nodup_typeNames) he, List.flatMap_singleton] at hs
  exact ⟨x, hx, hs⟩

theorem stored_of_name {e : Definition.Entity Attribute} (he : e ∈ d.entities) {y : Physical.Entity}
    (hy : c.metamodel.entity? y.name = some y) (hn : y.name = e.name) :
    Definition.EntityStored d c.metamodel.tableOf uses (d.storedWith e) e y := by
  obtain ⟨z, hz, hs⟩ := made.entity_stored he
  rw [hn, hz, Option.some.injEq] at hy
  exact hy ▸ hs

theorem nodup_entityNames : c.metamodel.entityNames.Nodup :=
  made.laidOut.entityNames ▸ Definition.nodup_entities made.checked.nodup_typeNames

/-- Each descriptor is found by its name. -/
theorem entity?_of_mem {x : Physical.Entity} (hx : x ∈ c.metamodel.entities) :
    c.metamodel.entity? x.name = some x :=
  Definition.find?_of_mem made.nodup_entityNames hx

/-- Each descriptor of an entity is that of an entity of the definition. -/
theorem exists_of_descriptor {x : Physical.Entity} (hx : x ∈ c.metamodel.entities) :
    ∃ e ∈ d.entities, e.name = x.name ∧
      Definition.EntityStored d c.metamodel.tableOf uses (d.storedWith e) e x := by
  have hfound := made.entity?_of_mem hx
  obtain ⟨e, he, hn⟩ := made.exists_entity.1 ⟨x, hfound⟩
  exact ⟨e, he, hn, made.stored_of_name he hfound hn.symm⟩

/-- Above an entity stands the descriptor of the nearest entity above it. -/
theorem supertypeOf?_eq {e : Definition.Entity Attribute} (he : e ∈ d.entities) :
    c.metamodel.supertypeOf? e.name = (d.nearestEntity? e).map (·.name) := by
  obtain ⟨x, hx, hs⟩ := made.entity_stored he
  rw [Metamodel.supertypeOf?, hx, Option.bind_some, hs.supertype]

theorem exists_nearest {n s : String} (h : c.metamodel.supertypeOf? n = some s) :
    ∃ e p, e ∈ d.entities ∧ e.name = n ∧ d.nearestEntity? e = some p ∧ p.name = s ∧
      p ∈ d.entities := by
  obtain ⟨x, hx, -⟩ := Option.bind_eq_some_iff.1 h
  obtain ⟨e, he, rfl⟩ := made.exists_entity.1 ⟨x, hx⟩
  rw [made.supertypeOf?_eq he] at h
  obtain ⟨p, hp, hpn⟩ := Option.map_eq_some_iff.1 h
  obtain ⟨_, _, _, _, hnext⟩ := Definition.members_chain made.checked made.acyclic he
  rw [hp] at hnext
  exact ⟨e, p, he, rfl, hp, hpn, hnext.1⟩

theorem validSupertypes : c.metamodel.ValidSupertypes := by
  intro n s h
  obtain ⟨_, p, _, _, _, rfl, hp⟩ := made.exists_nearest h
  exact made.exists_entity.2 ⟨p, hp, rfl⟩

theorem acyclic_metamodel : Acyclic c.metamodel.supertypeOf? := by
  have above : ∀ n s, Leads c.metamodel.supertypeOf? n s →
      Relation.TransGen (Leads d.supertypeOf?) n s := by
    intro n s h
    obtain ⟨e, p, he, rfl, hp, rfl, -⟩ := made.exists_nearest h
    obtain ⟨rest, hl, -, hnext⟩ :=
      Definition.exists_segments made.checked.wellNamed made.acyclic he
    rw [hp] at hnext
    obtain ⟨t, rfl⟩ := hnext.2.head
    have hmem : p.name ∈ (d.flattened e).reverse.map (·.name) ++ p.name :: t := by simp
    have hne : p.name ≠ e.name := by
      intro heq
      exact (List.nodup_cons.1 hl.nodup).1 (heq ▸ hmem)
    rcases (hl.mem_iff.1 (List.mem_cons_of_mem _ hmem)).cases_head with heq | ⟨b, hb, hreach⟩
    · exact absurd heq.symm hne
    · exact .head' hb hreach
  intro n h
  exact made.acyclic n (Relation.TransGen.closed above n n h)

/-- The lineage of a descriptor is the walk along its supertypes, all of which have descriptors. -/
theorem walk_lineage {x : Physical.Entity} (hx : c.metamodel.entity? x.name = some x) :
    Walk c.metamodel.supertypeOf? x.name ((c.metamodel.lineage x).map (·.name)) ∧
      ∀ y ∈ c.metamodel.lineage x, c.metamodel.entity? y.name = some y :=
  Metamodel.walk_lineage made.validSupertypes made.acyclic_metamodel hx

/-- The descriptors on a walk along supertypes store the attributes along the chain, each once. -/
theorem exists_stored {ys : List Physical.Entity} {n : String}
    (hwalk : Walk c.metamodel.supertypeOf? n (ys.map (·.name)))
    (hys : ∀ y ∈ ys, c.metamodel.entity? y.name = some y) {e : Definition.Entity Attribute}
    (he : e ∈ d.entities) (hn : e.name = n) {l : List String} (hl : Walk d.supertypeOf? e.name l) :
    ∃ es, List.Forall₂ (fun e y =>
        Definition.EntityStored d c.metamodel.tableOf uses (d.storedWith e) e y) es ys ∧
      (l.flatMap d.members).Perm (es.flatMap d.storedWith) := by
  generalize hnames : ys.map (·.name) = names at hwalk
  induction hwalk generalizing ys e l with
  | stop hstop =>
    obtain ⟨y, rfl, hyn⟩ := List.map_eq_singleton_iff.1 hnames
    obtain ⟨l', rest, hl', hperm, hnext⟩ := Definition.members_chain made.checked made.acyclic he
    rw [← hn, made.supertypeOf?_eq he, Option.map_eq_none_iff] at hstop
    rw [hstop] at hnext
    rw [hnext, List.flatMap_nil, List.append_nil] at hperm
    refine ⟨[e], .cons (made.stored_of_name he (hys y List.mem_cons_self) (hyn.trans hn.symm)) .nil,
      ?_⟩
    rwa [hl.unique hl', List.flatMap_singleton]
  | step hstep _ ih =>
    obtain ⟨y, ys, rfl, hyn, hnames⟩ := List.map_eq_cons_iff.1 hnames
    obtain ⟨l', rest, hl', hperm, hnext⟩ := Definition.members_chain made.checked made.acyclic he
    rw [← hn, made.supertypeOf?_eq he, Option.map_eq_some_iff] at hstep
    obtain ⟨p, hp, hpn⟩ := hstep
    rw [hp] at hnext
    obtain ⟨hy, hys⟩ := List.forall_mem_cons.1 hys
    obtain ⟨es, hes, hrest⟩ := ih hys hnext.1 hpn hnext.2 hnames
    refine ⟨e :: es, .cons (made.stored_of_name he hy (hyn.trans hn.symm)) hes, ?_⟩
    rw [hl.unique hl', List.flatMap_cons]
    exact hperm.trans (hrest.append_left _)

section Lineage

variable {e : Definition.Entity Attribute} {x : Physical.Entity}
  (hx : c.metamodel.entity? e.name = some x) (he : e ∈ d.entities) {l : List String}
  (hl : Walk d.supertypeOf? e.name l)

include hx he hl

theorem exists_stored_lineage : ∃ es, List.Forall₂ (fun e y =>
      Definition.EntityStored d c.metamodel.tableOf uses (d.storedWith e) e y) es
        (c.metamodel.lineage x) ∧
    (l.flatMap d.members).Perm (es.flatMap d.storedWith) := by
  have hxn := Metamodel.entity?_name hx
  obtain ⟨hwalk, hall⟩ := made.walk_lineage (hxn ▸ hx)
  exact made.exists_stored hwalk hall he hxn.symm hl

/-- Each mapping in the lineage stores an attribute that is declared along the chain. -/
theorem exists_member_of_mapping {y : Physical.Entity} (hy : y ∈ c.metamodel.lineage x)
    {z : Physical.Mapping} (hz : z ∈ y.mappings) :
    ∃ n ∈ l, ∃ a ∈ d.members n, ∃ place, a.Stored c.metamodel.tableOf uses place z := by
  obtain ⟨es, hes, hperm⟩ := made.exists_stored_lineage hx he hl
  obtain ⟨e', he', hs⟩ := exists_mem_of_forall₂' hes hy
  obtain ⟨a, ha, hstored⟩ := exists_mem_of_forall₂' hs.mappings hz
  obtain ⟨n, hn, han⟩ :=
    List.mem_flatMap.1 (hperm.mem_iff.2 (List.mem_flatMap.2 ⟨e', he', ha⟩))
  exact ⟨n, hn, a, han, _, hstored⟩

/-- Each attribute that is declared along the chain is stored by a mapping in the lineage. -/
theorem exists_stored_of_member {n : String} (hn : n ∈ l) {a : Attribute} (ha : a ∈ d.members n) :
    ∃ y ∈ c.metamodel.lineage x, ∃ z ∈ y.mappings, ∃ place,
      a.Stored c.metamodel.tableOf uses place z := by
  obtain ⟨es, hes, hperm⟩ := made.exists_stored_lineage hx he hl
  obtain ⟨e', he', ha'⟩ :=
    List.mem_flatMap.1 (hperm.mem_iff.1 (List.mem_flatMap.2 ⟨n, hn, ha⟩))
  obtain ⟨y, hy, hs⟩ := exists_mem_of_forall₂ hes he'
  obtain ⟨z, hz, hstored⟩ := exists_mem_of_forall₂ hs.mappings ha'
  exact ⟨y, hy, z, hz, _, hstored⟩

theorem exists_mapping_of_member {n : String} (hn : n ∈ l) {a : Attribute}
    (ha : a ∈ d.members n) :
    ∃ y ∈ c.metamodel.lineage x, ∃ z ∈ y.mappings, z.name = a.name := by
  obtain ⟨y, hy, z, hz, place, hstored⟩ := made.exists_stored_of_member hx he hl hn ha
  exact ⟨y, hy, z, hz, hstored.name_eq⟩

/-- No two mappings in the lineage have the same name. -/
theorem nodup_lineage :
    ((c.metamodel.lineage x).flatMap fun y => y.mappings.map (·.name)).Nodup := by
  obtain ⟨es, hes, hperm⟩ := made.exists_stored_lineage hx he hl
  have hnames : ((c.metamodel.lineage x).flatMap fun y => y.mappings.map (·.name)) =
      (es.flatMap d.storedWith).map (·.name) := by
    generalize c.metamodel.lineage x = ys at hes
    clear hperm
    induction hes with
    | nil => rfl
    | cons hs _ ih =>
      rw [List.flatMap_cons, List.flatMap_cons, List.map_append, ih,
        Attribute.Stored.names_eq hs.mappings]
  rw [hnames, ← (hperm.map _).nodup_iff]
  exact Definition.nodup_chain made.distinct (Definition.mem_typeNames_of_entity he) hl

/-- A name leads from an entity to the part of an attribute of that name which is declared along
its chain, and to nothing only if there is none. -/
theorem entityPart?_spec {name : String} (hname : name ≠ identifierName) :
    match c.metamodel.entityPart? x name none with
    | some part => ∃ n ∈ l, ∃ a ∈ d.members n, a.name = name ∧ ∃ place y,
        a.Stored c.metamodel.tableOf uses place y ∧ c.metamodel.partOf? y = some part
    | none => ∀ n ∈ l, ∀ a ∈ d.members n, a.name ≠ name := by
  have hspec := Metamodel.findIn?_spec (m := c.metamodel) (c.metamodel.lineage x) hname
    fun y hy z hz => by
      obtain ⟨_, _, _, _, _, hstored⟩ := made.exists_member_of_mapping hx he hl hy hz
      exact made.exists_part hstored
  rw [Metamodel.entityPart?_none]
  cases hf : c.metamodel.findIn? (c.metamodel.lineage x) name with
  | some part =>
    rw [hf] at hspec
    obtain ⟨y, hy, z, hz, hzn, hpart⟩ := hspec
    obtain ⟨n, hn, a, ha, place, hstored⟩ := made.exists_member_of_mapping hx he hl hy hz
    exact ⟨n, hn, a, ha, hstored.name_eq.symm.trans hzn, place, z, hstored, hpart⟩
  | none =>
    rw [hf] at hspec
    intro n hn a ha han
    obtain ⟨y, hy, z, hz, hzn⟩ := made.exists_mapping_of_member hx he hl hn ha
    exact hspec y hy z hz (hzn.trans han)

end Lineage

/-! ## On both sides -/

/-- Attributes along a chain are told apart by their names. -/
theorem member_unique {n : String} (hn : n ∈ d.typeNames) {l : List String}
    (hl : Walk d.supertypeOf? n l) {n₁ n₂ : String} (h₁ : n₁ ∈ l) (h₂ : n₂ ∈ l)
    {a₁ a₂ : Attribute} (ha₁ : a₁ ∈ d.members n₁) (ha₂ : a₂ ∈ d.members n₂)
    (h : a₁.name = a₂.name) : a₁ = a₂ :=
  List.inj_on_of_nodup_map (Definition.nodup_chain made.distinct hn hl)
    (List.mem_flatMap.2 ⟨n₁, h₁, ha₁⟩) (List.mem_flatMap.2 ⟨n₂, h₂, ha₂⟩) h

section Entity

variable {e : Definition.Entity Attribute} (he : e ∈ d.entities) {id : TypeId}
  (hid : c.logical.find? e.name = some id) {x : Physical.Entity}
  (hx : c.metamodel.entity? e.name = some x)

include he hid hx

/-- An attribute of an entity leads to the part that stores it. -/
theorem exists_entityPart? {y : TypeId × Logical.Attribute} (hy : y ∈ c.logical.attributesOf id)
    (hname : y.2.name ≠ identifierName) :
    ∃ part, c.metamodel.entityPart? x y.2.name none = some part ∧
      Corresponds c.logical c.metamodel y.2 part := by
  obtain ⟨l, hl⟩ := made.exists_chain he
  obtain ⟨n, hnl, a, ha, hbec⟩ := made.exists_member_of_attribute hid hl hy
  have hspec := made.entityPart?_spec hx he hl hname
  cases hp : c.metamodel.entityPart? x y.2.name none with
  | none =>
    rw [hp] at hspec
    exact absurd hbec.name_eq.symm (hspec n hnl a ha)
  | some part =>
    rw [hp] at hspec
    obtain ⟨n', hnl', a', ha', han', place, z, hstored, hpart⟩ := hspec
    obtain rfl := made.member_unique (Definition.mem_typeNames_of_entity he) hl hnl hnl' ha ha'
      (hbec.name_eq.symm.trans han'.symm)
    obtain ⟨part', hpart', hcor⟩ := made.corresponds ha hbec hstored
    rw [hpart, Option.some.injEq] at hpart'
    exact ⟨part, rfl, hpart' ▸ hcor⟩

/-- A name that leads to a part is the name of an attribute. -/
theorem exists_attribute {name : String} (hname : name ≠ identifierName) {part : Part}
    (hp : c.metamodel.entityPart? x name none = some part) :
    ∃ y ∈ c.logical.attributesOf id, y.2.name = name := by
  obtain ⟨l, hl⟩ := made.exists_chain he
  have hspec := made.entityPart?_spec hx he hl hname
  rw [hp] at hspec
  obtain ⟨n, hnl, a, ha, han, -⟩ := hspec
  obtain ⟨y, hy, hbec⟩ := made.exists_attribute_of_member hid hl hnl ha
  exact ⟨y, hy, hbec.name_eq.trans han⟩

end Entity

/-- A use of an embeddable has the attributes of the embeddable, in the same order. -/
theorem usage_spec {id : Physical.UsageId} {u : Physical.Usage}
    (hu : c.metamodel.usage? id = some u) :
    ∃ e ∈ d.embeddables, e.name = u.embeddable ∧
      u.mappings.map (·.name) = e.attributes.map (·.name) ∧
      ∃ type, c.logical.find? e.name = some type ∧
        List.Forall₂ (fun a y => y.name = a.name ∧ ∃ part, c.metamodel.partOf? y = some part ∧
          Corresponds c.logical c.metamodel a part) (c.logical.declaredBy type) u.mappings := by
  obtain ⟨use, e, -, he, hs⟩ := made.laidOut.complete id u (Nat.zero_le _) hu
  obtain ⟨hmem, hname⟩ := Definition.embeddable?_mem he
  obtain ⟨type, htype⟩ := (made.drafted.exists_find? made.checked).2
    (Definition.mem_typeNames.2 (.inl ⟨e, hmem, rfl⟩))
  have hattrs : d.members e.name = e.attributes :=
    Definition.members_embeddable made.checked.nodup_typeNames hmem
  refine ⟨e, hmem, hname.trans hs.embeddable.symm, Attribute.Stored.names_eq hs.mappings, type,
    htype, forall₂_of_common (made.drafted.attributes _ _ htype) (hattrs ▸ hs.mappings) ?_⟩
  intro a ha b y hbec hstored
  exact ⟨hstored.name_eq.trans hbec.name_eq.symm, made.corresponds ha hbec hstored⟩

/-- An attribute of an embeddable leads to the part that stores it in each use. -/
theorem exists_usagePart? {id : Physical.UsageId} {u : Physical.Usage}
    (hu : c.metamodel.usage? id = some u) {type : TypeId}
    (htype : c.logical.find? u.embeddable = some type) {a : Logical.Attribute}
    (ha : a ∈ c.logical.declaredBy type) :
    ∃ part, c.metamodel.usagePart? u a.name = some part ∧
      Corresponds c.logical c.metamodel a part := by
  obtain ⟨e, he, hname, hnames, type', htype', hrel⟩ := made.usage_spec hu
  rw [hname, htype, Option.some.injEq] at htype'
  subst htype'
  obtain ⟨y, hy, hya, part, hpart, hcor⟩ := exists_mem_of_forall₂ hrel ha
  have hnodup : (u.mappings.map (·.name)).Nodup := by
    rw [hnames]
    exact made.distinct.embeddable _ (List.mem_map_of_mem he)
  refine ⟨part, ?_, hcor⟩
  rw [Metamodel.usagePart?, Physical.Usage.mapping?, ← hya, Definition.find?_of_mem hnodup hy,
    Option.bind_some, hpart]

end QueryPath.Catalog.MadeFrom
