import QueryPath.Catalog.Layout
import QueryPath.Proofs.Definition.Hierarchy
import QueryPath.Proofs.Physical.Metamodel

/-!
# How attributes are stored

`Stored` relates the attributes of a definition to their mappings. The uses of embeddables are
numbered as they are added; their places, which a metamodel does not keep, are listed beside it.
`Adds` says that a metamodel has some more uses than another and that the mappings of all these are
complete. Adding a use of an embeddable that is not inside itself does no more than that, and
never fails (`addUsage_spec`): the check of the definition has found all that is looked up, and in a
metamodel that is `Ready` it is found again.

| definition                    | metamodel                                      |
|-------------------------------|------------------------------------------------|
| `basic` attribute             | column of the kind that it is stored as        |
| `embedded` attribute          | use of the embeddable at the place below       |
| `toOne` attribute             | reference to the entity                        |
| `plural` attribute            | collection with the same parts                 |
| `any` attribute               | two columns                                    |
-/

namespace QueryPath.Definition

open Physical (Metamodel UsageId Usage Mapping PartValue)

/-! ## Attributes and their mappings -/

/-- Places of the uses of embeddables, with the names of the embeddables. -/
abbrev Uses := List (Place × String)

/-- The table of a collection, given those of entities. -/
def Plural.tableBy (tableOf : String → String) (p : Plural Element) : String :=
  p.table.getD (match p.element with
    | .entity target _ => tableOf target
    | _ => "")

/-- A collection with elements that are stored as `element`. -/
def storedPlural (role table name : String) (p : Plural Element) (element : PartValue) :
    Physical.Plural where
  name := name
  role := role
  classification := p.classification
  table := p.table
  keyColumn := p.keyColumn
  element := ⟨.element, role, element⟩
  index := p.index.map fun i =>
    ⟨.index, role, .column ⟨PartNature.index.name, table, i.column, i.kind⟩⟩
  identifier := p.idColumn.map fun c =>
    ⟨.identifier, role, .column ⟨PartNature.identifier.name, table, c, .long⟩⟩

/-- How elements of a collection are stored. -/
inductive Element.Stored (uses : Uses) (role table : String) : Element → PartValue → Prop
  | basic {kind column} :
      Stored uses role table (.basic kind column)
        (.column ⟨PartNature.element.name, table, column, kind⟩)
  | embedded {target start id} :
      uses[id]? = some (⟨s!"{role}.{PartNature.element.name}", table, start⟩, target) →
      Stored uses role table (.embedded target start) (.embedded id)
  | entity {target column} :
      Stored uses role table (.entity target column) (.entity target column)

/-- How an attribute is stored at a place. -/
inductive Attribute.Stored (tableOf : String → String) (uses : Uses) (place : Place) :
    Attribute → Mapping → Prop
  | basic {name kind column storedAs g} :
      Stored tableOf uses place ⟨name, .basic kind column storedAs, g⟩
        (.column ⟨name, place.table, place.column column, storedAs.getD kind⟩)
  | embedded {name target start g id} :
      uses[id]? = some (place.embedded name start, target) →
      Stored tableOf uses place ⟨name, .embedded target start, g⟩ (.embedded name id)
  | toOne {name target column g} :
      Stored tableOf uses place ⟨name, .toOne target column, g⟩
        (.toOne ⟨name, target, place.table, place.column column⟩)
  | plural {name g value} {p : Plural Element} :
      p.element.Stored uses s!"{place.role}.{name}" (p.tableBy tableOf) value →
      Stored tableOf uses place ⟨name, .plural p, g⟩
        (.plural (storedPlural s!"{place.role}.{name}" (p.tableBy tableOf) name p value))
  | any {name target g} :
      Stored tableOf uses place ⟨name, .any target, g⟩ (.any {
        name := name
        discriminator := ⟨discriminatorName, place.table,
          place.column target.discriminatorColumn, target.discriminator⟩
        key := ⟨keyName, place.table, place.column target.keyColumn, target.key⟩
        values := target.values })

section Stored

variable {tableOf : String → String} {uses uses' : Uses}

theorem getElem?_mono {α : Type} {l l' : List α} (h : l <+: l') {i : Nat} {a : α}
    (ha : l[i]? = some a) : l'[i]? = some a := by
  obtain ⟨t, rfl⟩ := h
  obtain ⟨hi, -⟩ := List.getElem?_eq_some_iff.1 ha
  rw [List.getElem?_append_left hi, ha]

theorem Element.Stored.mono (h : uses <+: uses') {role table : String} {e : Element}
    {v : PartValue} (he : e.Stored uses role table v) : e.Stored uses' role table v := by
  cases he with
  | basic => exact .basic
  | embedded hid => exact .embedded (getElem?_mono h hid)
  | entity => exact .entity

theorem Attribute.Stored.mono (h : uses <+: uses') {place : Place} {a : Attribute} {x : Mapping}
    (ha : a.Stored tableOf uses place x) : a.Stored tableOf uses' place x := by
  cases ha with
  | basic => exact .basic
  | embedded hid => exact .embedded (getElem?_mono h hid)
  | toOne => exact .toOne
  | plural he => exact .plural (he.mono h)
  | any => exact .any

theorem Attribute.Stored.name_eq {place : Place} {a : Attribute} {x : Mapping}
    (ha : a.Stored tableOf uses place x) : x.name = a.name := by
  cases ha <;> rfl

theorem Attribute.Stored.names_eq {place : Place} {as : List Attribute} {xs : List Mapping}
    (h : List.Forall₂ (Attribute.Stored tableOf uses place) as xs) :
    xs.map Mapping.name = as.map (·.name) := by
  induction h with
  | nil => rfl
  | cons hax _ ih => rw [List.map_cons, List.map_cons, ih, hax.name_eq]

end Stored

/-! ## Uses of embeddables -/

/-- The use of an embeddable has the mappings of some attributes at its place. -/
structure UsageStored (tableOf : String → String) (uses : Uses) (use : Place × String)
    (as : List Attribute) (u : Usage) : Prop where
  role : u.role = use.1.role
  embeddable : u.embeddable = use.2
  table : u.table = use.1.table
  mappings : List.Forall₂ (Attribute.Stored tableOf uses use.1) as u.mappings

theorem UsageStored.mono {tableOf : String → String} {uses uses' : Uses} (h : uses <+: uses')
    {use : Place × String} {as : List Attribute} {u : Usage}
    (hu : UsageStored tableOf uses use as u) : UsageStored tableOf uses' use as u :=
  ⟨hu.role, hu.embeddable, hu.table, hu.mappings.imp fun _ _ => .mono h⟩

/-- From the number `n` on, each use of an embeddable has the mappings of all attributes. -/
def CompleteFrom (d : Definition Attribute) (tableOf : String → String) (n : Nat) (uses : Uses)
    (usages : List Usage) : Prop :=
  ∀ (id : UsageId) (u : Usage), n ≤ id → usages[id]? = some u →
    ∃ use e, uses[id]? = some use ∧ d.embeddable? use.2 = some e ∧
      UsageStored tableOf uses use e.attributes u

theorem CompleteFrom.append {d : Definition Attribute} {tableOf : String → String} {n : Nat}
    {uses uses' : Uses} {usages usages' : List Usage} (h : CompleteFrom d tableOf n uses usages)
    (hu : usages <+: usages') (huses : uses <+: uses')
    (h' : CompleteFrom d tableOf usages.length uses' usages') :
    CompleteFrom d tableOf n uses' usages' := by
  intro id u hid hget
  rcases Nat.lt_or_ge id usages.length with hlt | hge
  · obtain ⟨new, rfl⟩ := hu
    rw [List.getElem?_append_left hlt] at hget
    obtain ⟨use, e, huse, he, hstored⟩ := h id u hid hget
    exact ⟨use, e, getElem?_mono huses huse, he, hstored.mono huses⟩
  · exact h' id u hge hget

/-- The second metamodel has more uses of embeddables than the first, and they are complete. -/
structure Adds (d : Definition Attribute) (m : Metamodel) (uses : Uses) (m' : Metamodel)
    (uses' : Uses) : Prop where
  entities : m'.entities = m.entities
  usages : m.usages <+: m'.usages
  uses : uses <+: uses'
  length : uses'.length = m'.usages.length
  complete : CompleteFrom d m.tableOf m.usages.length uses' m'.usages

namespace Adds

variable {d : Definition Attribute} {m m' m'' : Metamodel} {uses uses' uses'' : Uses}

theorem refl (h : uses.length = m.usages.length) : Adds d m uses m uses := by
  refine ⟨rfl, List.prefix_rfl, List.prefix_rfl, h, fun id u hid hu => ?_⟩
  exact absurd (List.getElem?_eq_some_iff.1 hu).1 (Nat.not_lt.2 hid)

theorem tableOf (h : Adds d m uses m' uses') : m'.tableOf = m.tableOf := by
  funext n
  simp only [Metamodel.tableOf, Metamodel.entity?, h.entities]

end Adds

/-- The metamodel has the entities of the definition, and the places of all uses are listed. -/
structure Ready (d : Definition Attribute) (m : Metamodel) (uses : Uses) : Prop where
  entityNames : m.entityNames = d.entities.map (·.name)
  length : uses.length = m.usages.length

theorem declaredEntity_eq_ok {m : Metamodel} {n : String} {x : Physical.Entity} :
    declaredEntity m n = .ok x ↔ m.entity? n = some x := by
  rw [declaredEntity, mapError_eq_ok, require_eq_ok]

theorem exists_declaredEntity {m : Metamodel} {n : String} (h : n ∈ m.entityNames) :
    ∃ x, declaredEntity m n = .ok x ∧ x.name = n ∧ x.table = m.tableOf n := by
  obtain ⟨x, hx⟩ := Option.isSome_iff_exists.1 (Metamodel.entity?_isSome.2 h)
  refine ⟨x, declaredEntity_eq_ok.2 hx, Metamodel.entity?_name hx, ?_⟩
  rw [Metamodel.tableOf, hx]
  rfl

namespace Ready

variable {d : Definition Attribute} {m m' : Metamodel} {uses uses' : Uses}

theorem of_entities (h : Ready d m uses) (hentities : m'.entities = m.entities)
    (hlen : uses'.length = m'.usages.length) : Ready d m' uses' :=
  ⟨(congrArg (List.map Physical.Entity.name) hentities).trans h.entityNames, hlen⟩

/-- Entities of the definition are found in the metamodel. -/
theorem exists_entity (h : Ready d m uses) {n : String} (hn : (d.entity? n).isSome = true) :
    ∃ x, declaredEntity m n = .ok x ∧ x.name = n ∧ x.table = m.tableOf n := by
  obtain ⟨e, he⟩ := Option.isSome_iff_exists.1 hn
  obtain ⟨hmem, rfl⟩ := entity?_mem he
  exact exists_declaredEntity (h.entityNames ▸ List.mem_map_of_mem hmem)

/-- A checked collection has a table. -/
theorem tableIn_eq (h : Ready d m uses) {owner name : String} {p : Plural Element}
    (hp : d.checkPlural owner name p = .ok ()) (role : String) :
    p.tableIn m role = .ok (p.tableBy m.tableOf) := by
  obtain ⟨helement, hsome, -⟩ := checkPlural_eq_ok.1 hp
  rw [Plural.tableIn, Plural.tableBy]
  rw [Plural.hasTable] at hsome
  cases htable : p.table with
  | some table => rfl
  | none =>
    cases he : p.element with
    | entity target column =>
      rw [he] at helement
      obtain ⟨x, hx, -, hxtable⟩ := h.exists_entity (checkEntity_eq_ok.1 helement)
      dsimp only
      rw [hx]
      exact congrArg Except.ok hxtable
    | basic | embedded => simp [he, htable] at hsome

end Ready

/-- Adding a use of the embeddable of that name succeeds, at all places. -/
def AddsUse (d : Definition Attribute) (add : AddUsage) (name : String) : Prop :=
  ∀ (m : Metamodel) (uses : Uses) (place : Place), Ready d m uses →
    ∃ m' uses', add m place name = .ok (m.usages.length, m') ∧ Adds d m uses m' uses' ∧
      uses'[m.usages.length]? = some (place, name)

section Mappings

variable {d : Definition Attribute} {add : AddUsage} {m : Metamodel} {uses : Uses}

theorem elementValue_spec (ready : Ready d m uses) (role table : String) {owner name : String}
    {e : Element} (helement : d.checkElement owner name e = .ok ())
    (hadd : ∀ target start, e = .embedded target start → AddsUse d add target) :
    ∃ v m' uses', elementValue add m role table e = .ok (v, m') ∧ Adds d m uses m' uses' ∧
      e.Stored uses' role table v := by
  cases e with
  | basic kind column => exact ⟨_, m, uses, rfl, .refl ready.length, .basic⟩
  | entity target column =>
    obtain ⟨x, hx, -⟩ := ready.exists_entity (checkEntity_eq_ok.1 helement)
    refine ⟨_, m, uses, ?_, .refl ready.length, .entity⟩
    simp only [elementValue, hx]
    rfl
  | embedded target start =>
    obtain ⟨m', uses', hm', hadds, huse⟩ := hadd target start rfl m uses
      ⟨s!"{role}.{PartNature.element.name}", table, start⟩ ready
    refine ⟨_, m', uses', ?_, hadds, .embedded huse⟩
    simp only [elementValue, hm']
    rfl

/-- The mapping of a checked attribute, whose embeddable can be used. -/
theorem mappingAt_spec (ready : Ready d m uses) (place : Place) {owner : String} {a : Attribute}
    (hshape : d.checkShape owner a.name a.shape = .ok ())
    (hadd : ∀ target, a.shape.embedded? = some target → AddsUse d add target) :
    ∃ x m' uses', mappingAt add m place a = .ok (x, m') ∧ Adds d m uses m' uses' ∧
      a.Stored m.tableOf uses' place x := by
  obtain ⟨name, shape, g⟩ := a
  cases shape with
  | basic kind column storedAs => exact ⟨_, m, uses, rfl, .refl ready.length, .basic⟩
  | any target => exact ⟨_, m, uses, rfl, .refl ready.length, .any⟩
  | toOne target column =>
    obtain ⟨x, hx, -⟩ := ready.exists_entity (checkEntity_eq_ok.1 hshape)
    refine ⟨_, m, uses, ?_, .refl ready.length, .toOne⟩
    simp only [mappingAt, hx]
    rfl
  | embedded target start =>
    obtain ⟨m', uses', hm', hadds, huse⟩ := hadd target rfl m uses (place.embedded name start) ready
    refine ⟨_, m', uses', ?_, hadds, .embedded huse⟩
    simp only [mappingAt, hm']
    rfl
  | plural p =>
    obtain ⟨v, m', uses', hm', hadds, hstored⟩ := elementValue_spec ready
      s!"{place.role}.{name}" (p.tableBy m.tableOf) (checkPlural_eq_ok.1 hshape).1
      fun target start he => hadd target (by simp [Shape.embedded?, he])
    refine ⟨_, m', uses', ?_, hadds, .plural hstored⟩
    simp only [mappingAt, pluralMapping, ready.tableIn_eq hshape, hm', bind, Except.bind]
    rfl

end Mappings

/-! ## Adding a use of an embeddable -/

theorem checkNesting_eq_ok {d : Definition Attribute} {allowed : List String} {name : String} :
    d.checkNesting allowed name = .ok () ↔ name ∈ allowed ∧
      ∀ inner ∈ d.embeddedIn name, d.checkNesting (allowed.erase name) inner = .ok () := by
  rw [checkNesting]
  split
  · rename_i hmem
    simp only [hmem, true_and]
    exact forM_eq_ok
  · rename_i hmem
    simp [hmem]

theorem addUsage_eq {available : List (Embeddable Attribute)} {m : Metamodel} {place : Place}
    {e : Embeddable Attribute} {name : String}
    (h : available.find? (·.name == name) = some e) :
    addUsage available m place name = (do
      let m' ← e.attributes.foldlM (fun m' a => do
        let (x, m') ← mappingAt (addUsage (available.eraseP (·.name == e.name))) m' place a
        (m'.addUsageMapping m.usages.length x).mapError .physical)
          (m.addUsage place.role name place.table).2
      return (m.usages.length, m')) := by
  rw [addUsage]
  split
  · rename_i hnone
    rw [h] at hnone
    cases hnone
  · rename_i e' he'
    rw [h, Option.some.injEq] at he'
    subst he'
    rfl

/-- Halfway through adding a use: it has the mappings of some attributes, and the uses that came
after it are complete. -/
structure Filling (d : Definition Attribute) (m : Metamodel) (uses : Uses) (use : Place × String)
    (done : List Attribute) (m' : Metamodel) (uses' : Uses) (u : Usage) (new : List Usage) :
    Prop where
  entities : m'.entities = m.entities
  usages : m'.usages = m.usages ++ u :: new
  uses : uses ++ [use] <+: uses'
  length : uses'.length = m'.usages.length
  stored : UsageStored m.tableOf uses' use done u
  complete : CompleteFrom d m.tableOf (m.usages.length + 1) uses' m'.usages

theorem modify_append_length {α : Type} (l r : List α) (a : α) (f : α → α) :
    (l ++ a :: r).modify l.length f = l ++ f a :: r := by
  induction l with
  | nil => rfl
  | cons b l ih => simpa using ih

namespace Filling

variable {d : Definition Attribute} {m m' : Metamodel} {uses uses' : Uses} {use : Place × String}
  {done : List Attribute} {u : Usage} {new : List Usage}

theorem start (hlen : uses.length = m.usages.length) :
    Filling d m uses use [] (m.addUsage use.1.role use.2 use.1.table).2 (uses ++ [use])
      ⟨use.1.role, use.2, use.1.table, []⟩ [] := by
  refine ⟨rfl, rfl, List.prefix_rfl, by simp [Metamodel.addUsage, hlen], ⟨rfl, rfl, rfl, .nil⟩,
    fun id u hid hu => ?_⟩
  have hlt := (List.getElem?_eq_some_iff.1 hu).1
  simp only [Metamodel.addUsage, List.length_append, List.length_singleton] at hlt
  exact absurd hlt (Nat.not_lt.2 hid)

theorem tableOf (h : Filling d m uses use done m' uses' u new) : m'.tableOf = m.tableOf := by
  funext n
  simp only [Metamodel.tableOf, Metamodel.entity?, h.entities]

/-- One more mapping. -/
theorem step (h : Filling d m uses use done m' uses' u new) (ready : Ready d m uses)
    {add : AddUsage} {owner : String} {a : Attribute}
    (hshape : d.checkShape owner a.name a.shape = .ok ())
    (hadd : ∀ target, a.shape.embedded? = some target → AddsUse d add target)
    (hn : a.name ∉ done.map (·.name)) :
    ∃ m'' uses'' u' new', (do
        let (x, m') ← mappingAt add m' use.1 a
        (m'.addUsageMapping m.usages.length x).mapError .physical) = .ok m'' ∧
      Filling d m uses use (done ++ [a]) m'' uses'' u' new' := by
  obtain ⟨x, m₁, uses₁, hm₁, hadds, hx⟩ := mappingAt_spec
    (ready.of_entities h.entities h.length) use.1 hshape hadd
  obtain ⟨added, hadded⟩ := hadds.usages
  have husages : m₁.usages = m.usages ++ u :: (new ++ added) := by
    rw [← hadded, h.usages, List.append_assoc, List.cons_append]
  have hu : m₁.usage? m.usages.length = some u := by
    rw [Metamodel.usage?, husages, List.getElem?_append_right (Nat.le_refl _)]
    simp
  have hname : x.name ∉ u.mappings.map Mapping.name := by
    rwa [Attribute.Stored.names_eq h.stored.mappings, hx.name_eq]
  have hmod : m₁.usages.modify m.usages.length (fun u => { u with mappings := u.mappings ++ [x] }) =
      m.usages ++ { u with mappings := u.mappings ++ [x] } :: (new ++ added) := by
    rw [husages, modify_append_length]
  have hok := Metamodel.addUsageMapping_eq_ok hu hname
  rw [hmod] at hok
  refine ⟨_, uses₁, _, new ++ added, bind_eq_ok.2 ⟨_, hm₁, mapError_eq_ok.2 hok⟩,
    hadds.entities.trans h.entities, rfl, h.uses.trans hadds.uses, ?_, ?_, ?_⟩
  · rw [← hmod, List.length_modify]
    exact hadds.length
  · have hold := h.stored.mono hadds.uses
    refine ⟨hold.role, hold.embeddable, hold.table, List.rel_append hold.mappings ?_⟩
    rw [h.tableOf] at hx
    exact .cons hx .nil
  · have hall := h.complete.append hadds.usages hadds.uses (by
      rw [← h.tableOf]
      exact hadds.complete)
    intro id v hid hv
    rw [← hmod, List.getElem?_modify_ne _ _ (Nat.ne_of_lt hid)] at hv
    exact hall id v hid hv

theorem adds {e : Embeddable Attribute} (h : Filling d m uses use e.attributes m' uses' u new)
    (he : d.embeddable? use.2 = some e) (hlen : uses.length = m.usages.length) :
    Adds d m uses m' uses' ∧ uses'[m.usages.length]? = some use := by
  have huse : uses'[m.usages.length]? = some use := by
    refine getElem?_mono h.uses ?_
    rw [← hlen, List.getElem?_append_right (Nat.le_refl _)]
    simp
  refine ⟨⟨h.entities, ⟨_, h.usages.symm⟩, (List.prefix_append _ _).trans h.uses, h.length,
    fun id v hid hv => ?_⟩, huse⟩
  rcases Nat.eq_or_lt_of_le hid with rfl | hlt
  · rw [h.usages, List.getElem?_append_right (Nat.le_refl _)] at hv
    obtain rfl : u = v := by simpa using hv
    exact ⟨use, e, huse, he, h.stored⟩
  · exact h.complete id v hlt hv

end Filling

theorem mem_embeddedIn {d : Definition Attribute} {outer inner : String} :
    inner ∈ d.embeddedIn outer ↔ ∃ e, d.embeddable? outer = some e ∧
      ∃ a ∈ e.attributes, a.shape.embedded? = some inner := by
  cases h : d.embeddable? outer <;> simp [embeddedIn, h, List.mem_filterMap]

/-- An embeddable that is not inside itself is available, and so is what its attributes embed once
it is not available any more. -/
theorem exists_of_checkNesting {d : Definition Attribute}
    (nodup : (d.embeddables.map (·.name)).Nodup) {available : List (Embeddable Attribute)}
    (hsub : available.Sublist d.embeddables) {name : String}
    (h : d.checkNesting (available.map (·.name)) name = .ok ()) :
    ∃ e ∈ available, e.name = name ∧ available.find? (·.name == name) = some e ∧
      d.embeddable? name = some e ∧
      ∀ a ∈ e.attributes, ∀ target, a.shape.embedded? = some target →
        d.checkNesting ((available.eraseP (·.name == e.name)).map (·.name)) target = .ok () := by
  obtain ⟨hmem, hinner⟩ := checkNesting_eq_ok.1 h
  obtain ⟨e, he, rfl⟩ := List.mem_map.1 hmem
  have hd : d.embeddable? e.name = some e := find?_of_mem nodup (hsub.subset he)
  refine ⟨e, he, rfl, find?_of_mem (nodup.sublist (hsub.map _)) he, hd, fun a ha target ht => ?_⟩
  have hnest := hinner target (mem_embeddedIn.2 ⟨e, hd, a, ha, ht⟩)
  rwa [List.erase_eq_eraseP', List.eraseP_map] at hnest

/-- A use of an embeddable that is not inside itself can be added anywhere. -/
theorem addUsage_spec {d : Definition Attribute} (checked : Checked d)
    (distinct : ∀ e ∈ d.embeddables, (e.attributes.map (·.name)).Nodup)
    {available : List (Embeddable Attribute)} (hsub : available.Sublist d.embeddables)
    {name : String} (h : d.checkNesting (available.map (·.name)) name = .ok ()) :
    AddsUse d (addUsage available) name := by
  induction hn : available.length using Nat.strongRecOn generalizing available name with
  | _ n ih =>
    obtain ⟨e, he, rfl, hfind, hd, hinner⟩ :=
      exists_of_checkNesting (nodup_embeddables checked.nodup_typeNames) hsub h
    have hlt : (available.eraseP (·.name == e.name)).length < n := by
      rw [List.length_eraseP_of_mem he (by simp), hn]
      exact Nat.sub_one_lt (Nat.ne_of_gt (hn ▸ List.length_pos_of_mem he))
    have hadd : ∀ a ∈ e.attributes, ∀ target, a.shape.embedded? = some target →
        AddsUse d (addUsage (available.eraseP (·.name == e.name))) target :=
      fun a ha target htarget =>
        ih _ hlt (List.eraseP_sublist.trans hsub) (hinner a ha target htarget) rfl
    have hshape : ∀ a ∈ e.attributes, d.checkShape e.name a.name a.shape = .ok () := fun a ha =>
      checked.checkShape (e.name, a) <| mem_members.1 <| by
        rwa [members_embeddable checked.nodup_typeNames (hsub.subset he)]
    intro m uses place ready
    rw [addUsage_eq hfind]
    obtain ⟨m', hm', uses', u, new, hfill⟩ := Ensures.exists_ok <| ensures_foldlM
      (E := fun _ => False) (l := e.attributes)
      (f := fun m' a => do
        let (x, m') ← mappingAt (addUsage (available.eraseP (·.name == e.name))) m' place a
        (m'.addUsageMapping m.usages.length x).mapError .physical)
      (fun done m' => ∃ uses' u new, Filling d m uses (place, e.name) done m' uses' u new)
      ⟨_, _, _, .start ready.length⟩ (by
        rintro done a rest m' hl ⟨uses', u, new, hfill⟩
        have ha : a ∈ e.attributes := hl ▸ List.mem_append_right _ List.mem_cons_self
        obtain ⟨m'', uses'', u', new', hm'', hfill'⟩ := hfill.step ready (hshape a ha) (hadd a ha)
          (not_mem_before (distinct e (hsub.subset he)) hl)
        exact .of_exists_ok ⟨m'', hm'', uses'', u', new', hfill'⟩)
    obtain ⟨hadds, huse⟩ := hfill.adds hd ready.length
    exact ⟨m', uses', bind_eq_ok.2 ⟨m', hm', rfl⟩, hadds, huse⟩

end QueryPath.Definition
