import QueryPath.Proofs.Catalog.Layout

/-!
# References to uses of embeddables

Mappings refer to uses of embeddables by their numbers. A use gets its number before the mappings
of its attributes are made, and these are all that is numbered until the use is complete. So a
stretch of numbers is given out for each mapping that is made, and the mapping and the uses in the
stretch refer to each number in it once, where uses refer only to what comes behind them
(`Covers`). Stretches that follow one another make a longer one (`Covers.append`), and a number in
front of a stretch may take all references to it (`Covers.cons`).
-/

namespace QueryPath

namespace Physical

/-! ## References -/

/-- The uses of embeddables that a part of a collection refers to. -/
def PartValue.usageIds : PartValue → List UsageId
  | .embedded id => [id]
  | .column _ | .entity _ _ => []

/-- The uses of embeddables that a mapping refers to. -/
def Mapping.usageIds : Mapping → List UsageId
  | .embedded _ id => [id]
  | .plural p => ([p.element] ++ p.index.toList ++ p.identifier.toList).flatMap (·.value.usageIds)
  | .column _ | .toOne _ | .any _ => []

def Usage.references (u : Usage) : List UsageId := u.mappings.flatMap Mapping.usageIds

def Entity.references (e : Entity) : List UsageId := e.mappings.flatMap Mapping.usageIds

/-- All references in a metamodel: those of the entities first, then those of uses themselves. -/
def Metamodel.references (m : Metamodel) : List UsageId :=
  m.entities.flatMap Entity.references ++ m.usages.flatMap Usage.references

/-! ## Stretches of numbers -/

/-- The numbers of the uses `new`, which are counted from `start` on, are referred to once each, by
`ids` or by uses in front of them. -/
structure Covers (start : Nat) (ids : List UsageId) (new : List Usage) : Prop where
  references : (ids ++ new.flatMap Usage.references).Perm (List.range' start new.length)
  nested : ∀ (i : Nat) (u : Usage), new[i]? = some u → ∀ id ∈ u.references, start + i < id

namespace Covers

variable {start : Nat} {ids ids' : List UsageId} {new new' : List Usage}

theorem nil : Covers start [] [] := ⟨.refl _, by simp⟩

theorem perm (h : Covers start ids new) (hids : ids.Perm ids') : Covers start ids' new :=
  ⟨(hids.symm.append_right _).trans h.references, h.nested⟩

theorem append (h : Covers start ids new) (h' : Covers (start + new.length) ids' new') :
    Covers start (ids ++ ids') (new ++ new') := by
  refine ⟨?_, fun i u hu => ?_⟩
  · rw [List.flatMap_append, List.length_append, ← List.range'_append_1]
    refine List.Perm.trans ?_ (h.references.append h'.references)
    rw [List.append_assoc, List.append_assoc]
    exact (List.perm_append_comm_assoc ids' _ _).append_left ids
  · rcases Nat.lt_or_ge i new.length with hi | hi
    · rw [List.getElem?_append_left hi] at hu
      exact h.nested i u hu
    · rw [List.getElem?_append_right hi] at hu
      intro id hid
      have := h'.nested _ u hu id hid
      omega

/-- A use in front that refers to all that is left open. -/
theorem cons {u : Usage} (h : Covers (start + 1) u.references new) :
    Covers start [start] (u :: new) := by
  refine ⟨?_, fun i v hv => ?_⟩
  · rw [List.flatMap_cons, List.length_cons, List.range'_succ]
    exact h.references.cons start
  · cases i with
    | zero =>
      obtain rfl : u = v := by simpa using hv
      intro id hid
      have hmem := h.references.mem_iff.1 (List.mem_append_left _ hid)
      have := (List.mem_range'_1.1 hmem).1
      omega
    | succ i =>
      intro id hid
      have := h.nested i v (by simpa using hv) id hid
      omega

end Covers

/-- The second metamodel has more uses of embeddables than the first, and `ids` refers to those of
them that no use refers to. -/
def Metamodel.Extends (m : Metamodel) (ids : List UsageId) (m' : Metamodel) : Prop :=
  ∃ new, m'.entities = m.entities ∧ m'.usages = m.usages ++ new ∧ Covers m.usages.length ids new

theorem Metamodel.Extends.refl (m : Metamodel) : m.Extends [] m :=
  ⟨[], rfl, (List.append_nil _).symm, .nil⟩

end Physical

namespace Definition

open Physical (Metamodel Mapping Usage Covers)

/-! ## Making mappings -/

/-- The index and the ids of a collection are kept in columns. -/
theorem usageIds_storedPlural (role table name : String) (p : Plural Element)
    (value : Physical.PartValue) :
    (Mapping.plural (storedPlural role table name p value)).usageIds = value.usageIds := by
  rw [Mapping.usageIds, storedPlural]
  cases p.index <;> cases p.idColumn <;> simp [Physical.PartValue.usageIds]

/-- Each use of an embeddable that is added is all that is left open of the uses that come with
it. -/
def Extending (add : AddUsage) : Prop :=
  ∀ m place name, Ensures (add m place name) (fun r => m.Extends [r.1] r.2) fun _ => True

section Mappings

variable {add : AddUsage} (hadd : Extending add) (m : Metamodel)

include hadd

theorem elementValue_extends (role table : String) (e : Element) :
    Ensures (elementValue add m role table e) (fun r => m.Extends r.1.usageIds r.2)
      fun _ => True := by
  cases e with
  | basic kind column => exact ensures_ok.2 (.refl m)
  | entity target column => exact (ensures_true _).bind fun _ _ => ensures_pure.2 (.refl m)
  | embedded name columnStart =>
    refine (hadd m _ name).bind fun r hr => ?_
    exact ensures_pure.2 hr

theorem mappingAt_extends (place : Place) (a : Attribute) :
    Ensures (mappingAt add m place a) (fun r => m.Extends r.1.usageIds r.2) fun _ => True := by
  obtain ⟨name, shape, g⟩ := a
  cases shape with
  | basic kind column storedAs => exact ensures_ok.2 (.refl m)
  | toOne target column => exact (ensures_true _).bind fun _ _ => ensures_pure.2 (.refl m)
  | any target => exact ensures_ok.2 (.refl m)
  | embedded target start =>
    refine (hadd m _ target).bind fun r hr => ?_
    exact ensures_pure.2 hr
  | plural p =>
    refine Ensures.bind (P := fun r => m.Extends (Mapping.plural r.1).usageIds r.2) ?_
      fun r hr => ensures_pure.2 hr
    refine (ensures_true (p.tableIn m s!"{place.role}.{name}")).bind fun table _ => ?_
    refine (elementValue_extends hadd m _ _ p.element).bind fun r hr => ensures_pure.2 ?_
    rwa [← usageIds_storedPlural s!"{place.role}.{name}" table name p] at hr

end Mappings

theorem addUsageMapping_spec (m : Metamodel) (id : Physical.UsageId) (x : Mapping) :
    Ensures (m.addUsageMapping id x) (fun m' => m'.entities = m.entities ∧ m'.usages =
      m.usages.modify id fun u => { u with mappings := u.mappings ++ [x] }) fun _ => True := by
  unfold Metamodel.addUsageMapping
  split
  · exact ensures_error.2 trivial
  · split
    · exact ensures_error.2 trivial
    · exact ensures_ok.2 ⟨rfl, rfl⟩

/-- The mappings of a use are made behind it, and they refer to what is then left open. -/
theorem addUsage_extending (available : List (Embeddable Attribute)) :
    Extending (addUsage available) := by
  induction hn : available.length using Nat.strongRecOn generalizing available with
  | _ n ih =>
    intro m place name
    cases hfind : available.find? (·.name == name) with
    | none =>
      rw [addUsage]
      split
      · exact ensures_error.2 trivial
      · rename_i e he
        rw [hfind] at he
        cases he
    | some e =>
      have hmem := List.mem_of_find?_eq_some hfind
      have hlt : (available.eraseP (·.name == e.name)).length < n := by
        rw [List.length_eraseP_of_mem hmem (by simp), hn]
        exact Nat.sub_one_lt (Nat.ne_of_gt (hn ▸ List.length_pos_of_mem hmem))
      rw [addUsage_eq hfind]
      refine Ensures.bind (ensures_foldlM (fun _ m' => ∃ u new, m'.entities = m.entities ∧
        m'.usages = m.usages ++ u :: new ∧ Covers (m.usages.length + 1) u.references new)
        ⟨_, [], rfl, rfl, .nil⟩ ?_) ?_
      · rintro done a rest m' - ⟨u, new, hentities, husages, hcovers⟩
        refine (mappingAt_extends (ih _ hlt _ rfl) m' place a).bind ?_
        rintro ⟨x, m''⟩ ⟨new', hentities', husages', hcovers'⟩
        refine ((addUsageMapping_spec m'' _ x).imp ?_).mapError fun _ => id
        rintro m₃ ⟨hentities₃, husages₃⟩
        refine ⟨{ u with mappings := u.mappings ++ [x] }, new ++ new',
          hentities₃.trans (hentities'.trans hentities), ?_, ?_⟩
        · rw [husages₃, husages', husages, List.append_assoc, List.cons_append,
            modify_append_length]
        · have hlen : m'.usages.length = m.usages.length + 1 + new.length := by
            rw [husages, List.length_append, List.length_cons]
            omega
          rw [hlen] at hcovers'
          simpa [Usage.references] using hcovers.append hcovers'
      · rintro m' ⟨u, new, hentities, husages, hcovers⟩
        exact ensures_pure.2 ⟨u :: new, hentities, husages, hcovers.cons⟩

end Definition

/-! ## Whole metamodels -/

namespace Physical.Metamodel

/-- Each use of an embeddable is referred to once, from an entity or from a use in front of it. -/
structure Whole (m : Metamodel) : Prop where
  nodup : m.entityNames.Nodup
  covers : Covers 0 (m.entities.flatMap Entity.references) m.usages

variable {m m' : Metamodel} {name : String}

/-- A mapping that is added to an entity brings its references. -/
theorem references_addMapping {entities : List Entity} (nodup : (entities.map (·.name)).Nodup)
    (hn : name ∈ entities.map (·.name)) (x : Mapping) :
    ((entities.map fun e =>
        if e.name == name then { e with mappings := e.mappings ++ [x] } else e).flatMap
          Entity.references).Perm (entities.flatMap Entity.references ++ x.usageIds) := by
  induction entities with
  | nil => cases hn
  | cons e entities ih =>
    obtain ⟨he, nodup⟩ := List.nodup_cons.1 nodup
    rw [List.map_cons, List.flatMap_cons, List.flatMap_cons, List.append_assoc]
    by_cases hen : e.name = name
    · have hrest : entities.map (fun e =>
          if e.name == name then { e with mappings := e.mappings ++ [x] } else e) = entities := by
        refine (List.map_congr_left fun e' he' => ?_).trans (List.map_id _)
        have hne : e'.name ≠ name := by
          intro h
          exact he (List.mem_map.2 ⟨e', he', h.trans hen.symm⟩)
        simp [hne]
      rw [hrest]
      simpa [hen, Entity.references] using List.perm_append_comm.append_left _
    · have hrest := ih nodup ((List.mem_cons.1 hn).resolve_left (Ne.symm hen))
      simpa [hen] using hrest.append_left _

namespace Whole

theorem modifyEntity (h : m.Whole) (name : String) {f : Entity → Entity}
    (hname : ∀ e, (f e).name = e.name) (hf : ∀ e, (f e).mappings = e.mappings) :
    (m.modifyEntity name f).Whole := by
  have hnames : (m.modifyEntity name f).entityNames = m.entityNames :=
    entityNames_modifyEntity hname
  refine ⟨hnames ▸ h.nodup, ?_⟩
  have hrefs : (m.modifyEntity name f).entities.flatMap Entity.references =
      m.entities.flatMap Entity.references := by
    rw [Metamodel.modifyEntity, List.flatMap_map]
    apply List.flatMap_congr
    intro e _
    split <;> simp [Entity.references, hf]
  rw [hrefs]
  exact h.covers

/-- A mapping that refers to what is left open makes a metamodel whole again. -/
theorem addMapping (h : m.Whole) {x : Mapping} (hx : m.Extends x.usageIds m') :
    Ensures (m'.addMapping name x) Whole fun _ => True := by
  obtain ⟨new, hentities, husages, hcovers⟩ := hx
  unfold Metamodel.addMapping
  cases he : m'.entity name with
  | error e => exact ensures_error.2 trivial
  | ok e =>
    have he := entity_eq_ok.1 he
    have hnames : m'.entityNames = m.entityNames := congrArg (List.map _) hentities
    have hmem : name ∈ m'.entityNames := entity?_isSome.1 (he ▸ rfl)
    have hnodup : m'.entityNames.Nodup := hnames ▸ h.nodup
    dsimp only [bind, Except.bind]
    split
    · exact ensures_error.2 trivial
    · refine ensures_pure.2 ⟨?_, ?_⟩
      · rwa [entityNames_modifyEntity]
        exact fun _ => rfl
      · refine Covers.perm ?_ (references_addMapping hnodup hmem x).symm
        rw [← Nat.zero_add m.usages.length] at hcovers
        have hall := h.covers.append hcovers
        rwa [← husages, ← hentities] at hall

end Whole

end Physical.Metamodel

namespace Definition

open Physical (Metamodel)

variable {d : Definition Attribute} {m : Metamodel}

/-- What an entity adds keeps a metamodel whole. -/
theorem layOutEntity_whole (h : m.Whole) (e : Entity Attribute) :
    Ensures (d.layOutEntity m e) Metamodel.Whole fun _ => True := by
  refine (ensures_true (declaredEntity m e.name)).bind fun x _ =>
    Ensures.bind (P := Metamodel.Whole) ?_ fun m₁ h₁ =>
    Ensures.bind (P := Metamodel.Whole) ?_ fun m₂ h₂ => ?_
  · unfold storeIdentifier
    cases e.identifier with
    | none => exact ensures_ok.2 h
    | some i =>
      have hadd : Ensures (m.addMapping e.name
          (.column ⟨i.name, x.table, i.column, i.kind⟩)) Metamodel.Whole fun _ => True :=
        h.addMapping (.refl m)
      refine Ensures.mapError (hadd.bind fun m' h' => ensures_pure.2 ?_) fun _ => id
      exact h'.modifyEntity _ (fun _ => rfl) fun _ => rfl
  · unfold storeDiscriminator
    cases e.discriminator with
    | none => exact ensures_ok.2 h₁
    | some x =>
      refine Ensures.mapError ((ensures_true _).bind fun _ _ => ensures_pure.2 ?_) fun _ => id
      exact h₁.modifyEntity _ (fun _ => rfl) fun _ => rfl
  · refine (ensures_foldlM (fun _ => Metamodel.Whole) h₂ ?_)
    rintro done a rest m' - h'
    refine (mappingAt_extends (addUsage_extending _) m' _ a).bind fun r hr => ?_
    exact (h'.addMapping hr).mapError fun _ => id

theorem metamodel_whole (checked : Checked d) (acyclic : Acyclic d.supertypeOf?) :
    Ensures d.metamodel Metamodel.Whole fun _ => True := by
  have anyway : ∀ e : CatalogError, False → True := fun _ _ => trivial
  refine ((declareEntities_spec checked).mono (fun _ => id) anyway).bind fun m hm => ?_
  refine ((linkEntities_spec checked acyclic hm).mono (fun _ => id) anyway).bind fun m hm => ?_
  have hnodup : m.entityNames.Nodup :=
    hm.entityNames ▸ nodup_entities checked.nodup_typeNames
  have hnone : m.entities.flatMap Physical.Entity.references = [] := by
    rw [List.flatMap_eq_nil_iff]
    intro x hx
    have hmem : x.name ∈ m.entityNames := List.mem_map_of_mem hx
    rw [hm.entityNames, List.mem_map] at hmem
    obtain ⟨e, he, hen⟩ := hmem
    obtain ⟨y, hy, hlinked⟩ := hm.entity e he
    rw [hen, Metamodel.entity?, find?_of_mem hnodup hx, Option.some.injEq] at hy
    rw [hy, Physical.Entity.references, hlinked.mappings, List.flatMap_nil]
  have hstart : m.Whole := ⟨hnodup, by rw [hnone, hm.usages]; exact .nil⟩
  exact ensures_foldlM (fun _ => Metamodel.Whole) hstart
    fun _ e _ m' _ h' => layOutEntity_whole h' e

end Definition

end QueryPath
