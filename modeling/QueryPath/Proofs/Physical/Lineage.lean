import QueryPath.Proofs.Physical.Metamodel

/-!
# Entities and those above them

Where supertypes are entities of the metamodel and have no cycles, the lineage of an entity is the
whole walk along its supertypes, and a name leads to the first part of that name on the walk. The
walk from an entity ends with that from each entity above it; so where names differ along the walk,
looking a name up below an entity only after the entity itself makes no difference
(`entityPart?_of_isSubtype`).
-/

namespace QueryPath.Physical.Metamodel

variable {m : Metamodel}

/-- The name of the entity above the entity of a name. -/
def supertypeOf? (m : Metamodel) (name : String) : Option String :=
  (m.entity? name).bind (·.supertype)

/-- Supertypes are entities of the metamodel. -/
def ValidSupertypes (m : Metamodel) : Prop :=
  ∀ n s, m.supertypeOf? n = some s → ∃ x, m.entity? s = some x

theorem lineageUpTo_spec (valid : m.ValidSupertypes) (n : Nat) {e : Entity}
    (he : m.entity? e.name = some e) :
    (m.lineageUpTo n e).map (·.name) = upTo m.supertypeOf? (n + 1) e.name ∧
      ∀ x ∈ m.lineageUpTo n e, m.entity? x.name = some x := by
  induction n generalizing e with
  | zero =>
    refine ⟨?_, fun x hx => ?_⟩
    · cases hs : m.supertypeOf? e.name with
      | none => rw [upTo_succ_none hs, lineageUpTo, List.map_singleton]
      | some s => rw [upTo_succ_some hs, upTo_zero, lineageUpTo, List.map_singleton]
    · rw [lineageUpTo, List.mem_singleton] at hx
      exact hx ▸ he
  | succ n ih =>
    rw [lineageUpTo]
    have hstep : m.supertypeOf? e.name = e.supertype := by rw [supertypeOf?, he, Option.bind_some]
    cases hs : e.supertype with
    | none => simpa [upTo, hstep, hs] using he
    | some s =>
      rw [hs] at hstep
      obtain ⟨x, hx⟩ := valid e.name s hstep
      have hname := entity?_name hx
      rw [← hname] at hx
      obtain ⟨hnames, hall⟩ := ih hx
      rw [Option.bind_some, ← hname, hx, upTo_succ_some hstep, ← hname]
      refine ⟨by rw [List.map_cons, hnames], fun y hy => ?_⟩
      rcases List.mem_cons.1 hy with rfl | hy
      · exact he
      · exact hall y hy

theorem length_entityNames (m : Metamodel) : m.entityNames.length = m.entities.length :=
  List.length_map _

theorem walk_lineage (valid : m.ValidSupertypes) (acyclic : Acyclic m.supertypeOf?) {e : Entity}
    (he : m.entity? e.name = some e) :
    Walk m.supertypeOf? e.name ((m.lineage e).map (·.name)) ∧
      ∀ x ∈ m.lineage e, m.entity? x.name = some x := by
  have mem : ∀ {n x}, m.entity? n = some x → n ∈ m.entityNames := fun h =>
    entity?_isSome.1 (Option.isSome_iff_exists.2 ⟨_, h⟩)
  have closed : ∀ a b, m.supertypeOf? a = some b → b ∈ m.entityNames := by
    intro a b h
    obtain ⟨x, hx⟩ := valid a b h
    exact mem hx
  obtain ⟨l, hl, hlen⟩ := exists_walk closed (mem he) (acyclic.not_revisits _)
  rw [length_entityNames] at hlen
  obtain ⟨hnames, hall⟩ := lineageUpTo_spec valid m.entities.length he
  rw [hl.upTo_eq (Nat.le_succ_of_le hlen)] at hnames
  exact ⟨hnames ▸ hl, hall⟩

theorem isSubtype_iff {x y : Entity} :
    m.isSubtype x y = true ↔ y.name ∈ (m.lineage x).map (·.name) := by
  simp [isSubtype]

/-- Descriptors that are found by their names are told apart by them. -/
theorem eq_of_names {xs ys : List Entity} (hxs : ∀ x ∈ xs, m.entity? x.name = some x)
    (hys : ∀ y ∈ ys, m.entity? y.name = some y) (h : xs.map (·.name) = ys.map (·.name)) :
    xs = ys := by
  have self : ∀ {l : List Entity}, (∀ x ∈ l, m.entity? x.name = some x) →
      (l.map (·.name)).filterMap m.entity? = l := by
    intro l hl
    rw [List.filterMap_map]
    exact (List.filterMap_congr hl).trans List.filterMap_some
  rw [← self hxs, h, self hys]

/-- The lineage of an entity ends with that of each entity above it. -/
theorem lineage_eq_append (valid : m.ValidSupertypes) (acyclic : Acyclic m.supertypeOf?)
    {x t : Entity} (hx : m.entity? x.name = some x) (ht : m.entity? t.name = some t)
    (h : m.isSubtype t x = true) :
    m.lineage t = (m.lineage t).takeWhile (·.name != x.name) ++ m.lineage x := by
  obtain ⟨hwalk, hall⟩ := walk_lineage valid acyclic ht
  obtain ⟨hwalk', hall'⟩ := walk_lineage valid acyclic hx
  have hdrop := hwalk.dropWhile (isSubtype_iff.1 h)
  rw [List.dropWhile_map] at hdrop
  have heq : (m.lineage t).dropWhile (·.name != x.name) = m.lineage x :=
    eq_of_names (fun y hy => hall y ((List.dropWhile_sublist _).mem hy)) hall' (hdrop.unique hwalk')
  rw [← heq, List.takeWhile_append_dropWhile]

/-! ## Looking names up -/

/-- A name other than that of identifiers stands for a mapping of that name. -/
theorem mapping?_eq {e : Entity} {name : String} (hn : name ≠ identifierName) :
    e.mapping? name = e.declared? name := by
  unfold Entity.mapping?
  cases e.declared? name with
  | some x => rfl
  | none => simp [hn]

theorem mem_of_declared? {e : Entity} {name : String} {x : Mapping}
    (h : e.declared? name = some x) : x ∈ e.mappings ∧ x.name = name :=
  ⟨List.mem_of_find?_eq_some h, by simpa using List.find?_some h⟩

theorem exists_of_findIn? {entities : List Entity} {name : String} (hn : name ≠ identifierName)
    {part : Part} (h : m.findIn? entities name = some part) :
    ∃ e ∈ entities, (e.declared? name).bind m.partOf? = some part := by
  obtain ⟨e, he, hpart⟩ := List.exists_of_findSome?_eq_some h
  rw [mapping?_eq hn] at hpart
  exact ⟨e, he, hpart⟩

/-- A name leads to the part of a mapping of that name, and to nothing only if there is none. -/
theorem findIn?_spec (entities : List Entity) {name : String} (hn : name ≠ identifierName)
    (hpart : ∀ e ∈ entities, ∀ x ∈ e.mappings, ∃ part, m.partOf? x = some part) :
    match m.findIn? entities name with
    | some part => ∃ e ∈ entities, ∃ x ∈ e.mappings, x.name = name ∧ m.partOf? x = some part
    | none => ∀ e ∈ entities, ∀ x ∈ e.mappings, x.name ≠ name := by
  cases hf : m.findIn? entities name with
  | some part =>
    obtain ⟨e, he, h⟩ := exists_of_findIn? hn hf
    obtain ⟨x, hx, h⟩ := Option.bind_eq_some_iff.1 h
    obtain ⟨hmem, hxn⟩ := mem_of_declared? hx
    exact ⟨e, he, x, hmem, hxn, h⟩
  | none =>
    intro e he x hx hxn
    have hnone := List.findSome?_eq_none_iff.1 hf e he
    rw [mapping?_eq hn] at hnone
    cases hd : e.declared? name with
    | none => exact List.find?_eq_none.1 hd x hx (by simpa using hxn)
    | some y =>
      obtain ⟨part, hy⟩ := hpart e he y (mem_of_declared? hd).1
      rw [hd, Option.bind_some, hy] at hnone
      cases hnone

/-- Where no two mappings have the same name, a name leads to the part of each that has it. -/
theorem findIn?_eq_some {entities : List Entity}
    (nodup : (entities.flatMap fun e => e.mappings.map (·.name)).Nodup) {name : String}
    (hn : name ≠ identifierName) {e : Entity} (he : e ∈ entities) {part : Part}
    (h : (e.declared? name).bind m.partOf? = some part) : m.findIn? entities name = some part := by
  have taken : ∀ {e : Entity} {x : Mapping}, e.declared? name = some x →
      name ∈ e.mappings.map (·.name) := fun hx => List.mem_map.2 ⟨_, mem_of_declared? hx⟩
  obtain ⟨x, hx, -⟩ := Option.bind_eq_some_iff.1 h
  obtain ⟨before, after, rfl⟩ := List.append_of_mem he
  rw [List.flatMap_append, List.nodup_append] at nodup
  have hbefore : m.findIn? before name = none := by
    refine List.findSome?_eq_none_iff.2 fun e' he' => ?_
    rw [mapping?_eq hn]
    cases hx' : e'.declared? name with
    | none => rfl
    | some x' =>
      exact absurd rfl (nodup.2.2 name (List.mem_flatMap.2 ⟨e', he', taken hx'⟩) name
        (List.mem_flatMap.2 ⟨e, List.mem_cons_self, taken hx⟩))
  rw [findIn?] at hbefore ⊢
  rw [List.findSome?_append, hbefore, Option.none_or, List.findSome?_cons, mapping?_eq hn, h]

theorem entityPart?_none (m : Metamodel) (e : Entity) (name : String) :
    m.entityPart? e name none = m.findIn? (m.lineage e) name := by
  unfold entityPart?
  cases m.findIn? (m.lineage e) name <;> rfl

/-! ## Narrowing -/

/-- Narrowing an entity to itself makes no difference. -/
theorem entityPart?_self (m : Metamodel) (e : Entity) (name : String) :
    m.entityPart? e name (some e) = m.entityPart? e name none := by
  unfold entityPart?
  cases m.findIn? (m.lineage e) name <;> simp

/-- Nor does narrowing it to one that is not below it. -/
theorem entityPart?_of_not_isSubtype {e t : Entity} (h : m.isSubtype t e = false) (name : String) :
    m.entityPart? e name (some t) = m.entityPart? e name none := by
  unfold entityPart?
  cases m.findIn? (m.lineage e) name <;> simp [h]

/-- Where names along the lineage of `t` differ, an entity narrowed to `t` below it is like `t`. -/
theorem entityPart?_of_isSubtype (valid : m.ValidSupertypes) (acyclic : Acyclic m.supertypeOf?)
    {e t : Entity} (he : m.entity? e.name = some e) (ht : m.entity? t.name = some t)
    (h : m.isSubtype t e = true)
    (nodup : ((m.lineage t).flatMap fun x => x.mappings.map (·.name)).Nodup) {name : String}
    (hn : name ≠ identifierName) : m.entityPart? e name (some t) = m.entityPart? t name none := by
  by_cases hne : t.name = e.name
  · obtain rfl : t = e := Option.some.inj (ht.symm.trans (hne ▸ he))
    exact entityPart?_self m t name
  have hlineage := lineage_eq_append valid acyclic he ht h
  rw [entityPart?_none]
  unfold entityPart?
  cases hf : m.findIn? (m.lineage e) name with
  | some part =>
    obtain ⟨x, hx, hpart⟩ := exists_of_findIn? hn hf
    have hmem : x ∈ m.lineage t := hlineage ▸ List.mem_append_right _ hx
    exact (findIn?_eq_some nodup hn hmem hpart).symm
  | none =>
    have hboth : (t.name != e.name && m.isSubtype t e) = true := by simp [hne, h]
    rw [Option.bind_eq_bind, Option.bind_some, if_pos hboth]
    conv_rhs => rw [hlineage, findIn?, List.findSome?_append]
    rw [findIn?] at hf
    rw [hf, Option.or_none, findIn?]

end QueryPath.Physical.Metamodel
