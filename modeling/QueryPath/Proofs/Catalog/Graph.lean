import Mathlib.Data.List.Induction
import QueryPath.Proofs.Catalog.Places
import QueryPath.Proofs.Catalog.References
import QueryPath.Proofs.Path.Text

/-!
# The graph of descriptors

Descriptors refer to entities by their names and to uses of embeddables by their numbers. In the
metamodel of a catalog no reference is broken, and uses of embeddables are nested in each other like
the nodes of a forest, with larger numbers further inside (`Metamodel.WellFormed`).

The names on the way from an entity to a use make up its role. Mappings of one owner have names that
differ, so the names lead to no other use (`LeadsTo.unique`); as long as they hold no dots, they can
be read off the role again (`foldl_roleOf_inj`).
-/

namespace QueryPath

namespace Physical

/-! ## What a metamodel refers to -/

/-- The entities that a mapping refers to. -/
def Mapping.targets : Mapping → List String
  | .toOne t => [t.target]
  | .plural p => ([p.element] ++ p.index.toList ++ p.identifier.toList).filterMap (·.entity?)
  | .any a => a.values.map (·.2)
  | .column _ | .embedded _ _ => []

namespace Metamodel

variable {m : Metamodel}

/-- The mappings of all attributes, of entities as of uses of embeddables. -/
def mappings (m : Metamodel) : List Mapping :=
  m.entities.flatMap (·.mappings) ++ m.usages.flatMap (·.mappings)

theorem references_eq (m : Metamodel) : m.references = m.mappings.flatMap Mapping.usageIds := by
  rw [mappings, List.flatMap_append, List.flatMap_assoc, List.flatMap_assoc]
  rfl

/-- A use of an embeddable is nested in another if it is one of its attributes. -/
def Nested (m : Metamodel) (inner outer : UsageId) : Prop :=
  ∃ u, m.usage? outer = some u ∧ inner ∈ u.references

/-- All references lead somewhere, and uses of embeddables are nested like the nodes of a forest. -/
structure WellFormed (m : Metamodel) : Prop where
  supertype : ∀ e ∈ m.entities, ∀ n, e.supertype = some n → ∃ e', m.entity? n = some e'
  subtypes : ∀ e ∈ m.entities, ∀ n ∈ e.subtypes, ∃ e', m.entity? n = some e'
  targets : ∀ x ∈ m.mappings, ∀ n ∈ x.targets, ∃ e, m.entity? n = some e
  usages : ∀ x ∈ m.mappings, ∀ id ∈ x.usageIds, ∃ u, m.usage? id = some u
  /-- Each use is referred to once. -/
  references : m.references.Perm (List.range m.usages.length)
  /-- Of the parts of a collection, none but the elements are uses. -/
  parts : ∀ p, .plural p ∈ m.mappings → ∀ part ∈ p.index.toList ++ p.identifier.toList,
    part.value.usageIds = []
  lt_of_nested : ∀ inner outer, m.Nested inner outer → outer < inner
  nested_unique : ∀ id outer outer', m.Nested id outer → m.Nested id outer' → outer = outer'
  acyclic : ∀ id, ¬ Relation.TransGen m.Nested id id

namespace Whole

variable (h : m.Whole)

include h

theorem references_perm : m.references.Perm (List.range m.usages.length) := by
  rw [List.range_eq_range']
  exact h.covers.references

theorem exists_usage {id : UsageId} (hid : id ∈ m.references) : ∃ u, m.usage? id = some u := by
  rw [h.references_perm.mem_iff, List.mem_range] at hid
  exact ⟨_, List.getElem?_eq_getElem hid⟩

theorem lt_of_nested {inner outer : UsageId} (hn : m.Nested inner outer) : outer < inner := by
  obtain ⟨u, hu, hid⟩ := hn
  have hlt := h.covers.nested outer u hu inner hid
  rwa [Nat.zero_add] at hlt

theorem nested_unique {id outer outer' : UsageId} (hn : m.Nested id outer)
    (hn' : m.Nested id outer') : outer = outer' := by
  have nodup : (m.usages.flatMap Usage.references).Nodup :=
    (List.nodup_append.1 (h.references_perm.nodup_iff.2 List.nodup_range)).2.1
  have hdisjoint := List.pairwise_iff_getElem.1 (List.nodup_flatMap.1 nodup).2
  obtain ⟨u, hu, hid⟩ := hn
  obtain ⟨u', hu', hid'⟩ := hn'
  obtain ⟨hlt, rfl⟩ := List.getElem?_eq_some_iff.1 hu
  obtain ⟨hlt', rfl⟩ := List.getElem?_eq_some_iff.1 hu'
  rcases Nat.lt_trichotomy outer outer' with hout | hout | hout
  · exact absurd hid' (hdisjoint _ _ hlt hlt' hout hid)
  · exact hout
  · exact absurd hid (hdisjoint _ _ hlt' hlt hout hid')

theorem acyclic (id : UsageId) : ¬ Relation.TransGen m.Nested id id := by
  have hlt : ∀ {i j}, Relation.TransGen m.Nested i j → j < i := by
    intro i j hij
    induction hij with
    | single hn => exact h.lt_of_nested hn
    | tail _ hn ih => exact Nat.lt_trans (h.lt_of_nested hn) ih
  intro hcycle
  exact Nat.lt_irrefl _ (hlt hcycle)

end Whole

end Metamodel

/-! ## Names that lead to uses -/

/-- The names by which a mapping leads to a use of an embeddable, with the use. -/
def Mapping.step? : Mapping → Option (List String × UsageId)
  | .embedded n id => some ([n], id)
  | .plural p => match p.element.value with
      | .embedded id => some ([p.name, PartNature.element.name], id)
      | _ => none
  | .column _ | .toOne _ | .any _ => none

theorem Mapping.step?_cons {x : Mapping} {names : List String} {id : UsageId}
    (h : x.step? = some (names, id)) : ∃ rest, names = x.name :: rest := by
  cases x with
  | embedded n i =>
    cases h
    exact ⟨[], rfl⟩
  | plural p =>
    rw [step?] at h
    split at h
    · cases h
      exact ⟨[PartNature.element.name], rfl⟩
    · cases h
  | column _ | toOne _ | any _ => cases h

/-- Among mappings with names that differ, one step is told by how the names begin. -/
theorem Mapping.step?_unique {xs : List Mapping} (nodup : (xs.map Mapping.name).Nodup)
    {x y : Mapping} (hx : x ∈ xs) (hy : y ∈ xs) {names names' rest rest' : List String}
    {id id' : UsageId} (hstep : x.step? = some (names, id)) (hstep' : y.step? = some (names', id'))
    (heq : names ++ rest = names' ++ rest') : id = id' ∧ rest = rest' := by
  obtain ⟨t, rfl⟩ := step?_cons hstep
  obtain ⟨t', rfl⟩ := step?_cons hstep'
  obtain rfl := List.inj_on_of_nodup_map nodup hx hy (List.cons.inj heq).1
  obtain ⟨hnames, rfl⟩ := Prod.mk.inj (Option.some.inj (hstep.symm.trans hstep'))
  rw [hnames] at heq
  exact ⟨rfl, List.append_cancel_left heq⟩

/-- Names lead from mappings to a use of an embeddable. -/
inductive LeadsTo (m : Metamodel) : List Mapping → List String → UsageId → Prop
  | last {xs x names id} : x ∈ xs → x.step? = some (names, id) → LeadsTo m xs names id
  | step {xs x names id u names' id'} : x ∈ xs → x.step? = some (names, id) →
      m.usage? id = some u → LeadsTo m u.mappings names' id' → LeadsTo m xs (names ++ names') id'

namespace LeadsTo

variable {m : Metamodel} {xs : List Mapping} {names names' : List String} {id id' : UsageId}

theorem ne_nil (h : LeadsTo m xs names id) : names ≠ [] := by
  cases h with
  | last _ hstep =>
    obtain ⟨rest, rfl⟩ := Mapping.step?_cons hstep
    exact List.cons_ne_nil _ _
  | step _ hstep _ _ =>
    obtain ⟨rest, rfl⟩ := Mapping.step?_cons hstep
    exact List.cons_ne_nil _ _

/-- Further names lead on to a use that is nested in the first. -/
theorem append (h : LeadsTo m xs names id) {u : Usage} (hu : m.usage? id = some u) {x : Mapping}
    (hx : x ∈ u.mappings) (hstep : x.step? = some (names', id')) :
    LeadsTo m xs (names ++ names') id' := by
  induction h with
  | last hy hystep => exact .step hy hystep hu (.last hx hstep)
  | step hy hystep hv _ ih =>
    rw [List.append_assoc]
    exact .step hy hystep hv (ih hu)

/-- Where mappings have names that differ, names lead to one use only. -/
theorem unique (hxs : (xs.map Mapping.name).Nodup)
    (nodup : ∀ id u, m.usage? id = some u → (u.mappings.map Mapping.name).Nodup)
    (h : LeadsTo m xs names id) (h' : LeadsTo m xs names id') : id = id' := by
  induction h generalizing id' with
  | @last xs x names id hx hstep =>
    generalize hall : names = all at h'
    have hall : names ++ [] = all := (List.append_nil names).trans hall
    cases h' with
    | last hy hstep' =>
      rw [← List.append_nil all] at hall
      exact (Mapping.step?_unique hxs hx hy hstep hstep' hall).1
    | step hy hstep' _ hrest =>
      have hnil := (Mapping.step?_unique hxs hx hy hstep hstep' hall).2
      exact absurd hnil.symm hrest.ne_nil
  | @step xs x names id u rest id₂ hx hstep hu hrest ih =>
    generalize hall : names ++ rest = all at h'
    cases h' with
    | last hy hstep' =>
      rw [← List.append_nil all] at hall
      have hnil := (Mapping.step?_unique hxs hx hy hstep hstep' hall).2
      exact absurd hnil hrest.ne_nil
    | step hy hstep' hv hrest' =>
      obtain ⟨rfl, rfl⟩ := Mapping.step?_unique hxs hx hy hstep hstep' hall
      obtain rfl := Option.some.inj (hu.symm.trans hv)
      exact ih (nodup _ _ hu) hrest'

end LeadsTo

end Physical

/-! ## Roles -/

namespace Definition

/-- Types and attributes have names without dots. -/
structure Dotless (d : Definition String) : Prop where
  types : ∀ n ∈ d.typeNames, '.' ∉ n.toList
  embeddables : ∀ e ∈ d.embeddables, ∀ n ∈ e.attributes, '.' ∉ n.toList
  mappedSupertypes : ∀ s ∈ d.mappedSupertypes, ∀ n ∈ s.attributes, '.' ∉ n.toList
  entities : ∀ e ∈ d.entities, ∀ n ∈ e.attributes, '.' ∉ n.toList

instance (d : Definition String) : Decidable d.Dotless :=
  decidable_of_iff ((∀ n ∈ d.typeNames, '.' ∉ n.toList) ∧
    (∀ e ∈ d.embeddables, ∀ n ∈ e.attributes, '.' ∉ n.toList) ∧
    (∀ s ∈ d.mappedSupertypes, ∀ n ∈ s.attributes, '.' ∉ n.toList) ∧
    ∀ e ∈ d.entities, ∀ n ∈ e.attributes, '.' ∉ n.toList)
    ⟨fun h => ⟨h.1, h.2.1, h.2.2.1, h.2.2.2⟩, fun h => ⟨h.1, h.2, h.3, h.4⟩⟩

theorem toList_roleOf (role n : String) :
    (roleOf role n).toList = role.toList ++ '.' :: n.toList := by
  simp [roleOf, toString, String.toList_append]

/-- Names without dots can be read off a role. -/
theorem foldl_roleOf_inj {owner owner' : String} {names names' : List String}
    (ho : '.' ∉ owner.toList) (ho' : '.' ∉ owner'.toList)
    (hnames : ∀ n ∈ names, '.' ∉ n.toList) (hnames' : ∀ n ∈ names', '.' ∉ n.toList)
    (h : names.foldl roleOf owner = names'.foldl roleOf owner') :
    owner = owner' ∧ names = names' := by
  have dotted : ∀ (o : String) (ns : List String) (n : String),
      '.' ∈ ((ns ++ [n]).foldl roleOf o).toList := by
    intro o ns n
    rw [List.foldl_append, List.foldl_cons, List.foldl_nil, toList_roleOf]
    simp
  induction names using List.reverseRecOn generalizing names' with
  | nil =>
    induction names' using List.reverseRecOn with
    | nil => exact ⟨h, rfl⟩
    | append_singleton ns' n' _ =>
      rw [List.foldl_nil] at h
      exact absurd (h ▸ dotted owner' ns' n') ho
  | append_singleton ns n ih =>
    induction names' using List.reverseRecOn with
    | nil =>
      rw [List.foldl_nil] at h
      exact absurd (h ▸ dotted owner ns n) ho'
    | append_singleton ns' n' _ =>
      have h := congrArg String.toList h
      simp only [List.foldl_append, List.foldl_cons, List.foldl_nil, toList_roleOf] at h
      have hn := hnames n (by simp)
      have hn' := hnames' n' (by simp)
      obtain ⟨hrole, -, hlast⟩ := NavigablePath.split_last (p := (· = '.')) rfl rfl
        (fun c hc hdot => hn (hdot ▸ hc)) (fun c hc hdot => hn' (hdot ▸ hc)) h
      obtain ⟨rfl, rfl⟩ := ih (fun x hx => hnames x (List.mem_append_left _ hx))
        (fun x hx => hnames' x (List.mem_append_left _ hx)) (String.toList_inj.1 hrole)
      rw [String.toList_inj.1 hlast]
      exact ⟨rfl, rfl⟩

/-- The names by which a mapping leads to a use are that of the attribute and, if the use is that of
the elements of a collection, the reserved one; they end the role of the use. -/
theorem Attribute.Stored.step? {tableOf : String → String} {uses : Uses} {place : Place}
    {a : Attribute} {x : Physical.Mapping} (h : a.Stored tableOf uses place x)
    {id : Physical.UsageId} (hid : id ∈ x.usageIds) :
    ∃ names use, x.step? = some (names, id) ∧ uses[id]? = some use ∧
      use.1.role = names.foldl roleOf place.role ∧
      (∀ n ∈ names, n = a.name ∨ n = PartNature.element.name) ∧ a.shape.embedded? = some use.2 := by
  cases h with
  | embedded huse =>
    obtain rfl := List.mem_singleton.1 hid
    exact ⟨_, _, rfl, huse, rfl, by simp, rfl⟩
  | @plural name g value p hvalue =>
    rw [usageIds_storedPlural] at hid
    generalize hp : p.element = element at hvalue
    cases hvalue with
    | embedded huse =>
      obtain rfl := List.mem_singleton.1 hid
      exact ⟨_, _, rfl, huse, rfl, by simp [storedPlural], by simp [Shape.embedded?, hp]⟩
    | basic | entity => cases hid
  | basic | toOne | any => cases hid

/-- Embedded attributes that are stored with an entity have names without dots. -/
theorem Dotless.storedWith {d : Definition Attribute} (dotless : d.outline.Dotless)
    (checked : Checked d) (acyclic : Acyclic d.supertypeOf?) {e : Entity Attribute}
    (he : e ∈ d.entities) {a : Attribute} (ha : a ∈ d.storedWith e) {target : String}
    (hshape : a.shape.embedded? = some target) : '.' ∉ a.name.toList := by
  rw [Definition.storedWith, List.mem_append, List.mem_append] at ha
  rcases ha with ha | ha | ha
  · obtain ⟨i, -, rfl⟩ := List.mem_map.1 ha
    cases hshape
  · obtain ⟨s, hs, ha⟩ := List.mem_flatMap.1 ha
    obtain ⟨-, -, hflat, -⟩ := exists_segments checked.wellNamed acyclic he
    exact dotless.mappedSupertypes _ (List.mem_map_of_mem (hflat s hs)) _ (List.mem_map_of_mem ha)
  · exact dotless.entities _ (List.mem_map_of_mem he) _ (List.mem_map_of_mem ha)

end Definition

namespace Catalog

open Definition (Attribute RawAttribute roleOf)
open Physical (Metamodel Mapping Usage LeadsTo)

namespace MadeFrom

variable {c : Catalog} {d : Definition Attribute} {uses : Definition.Uses}
  (made : c.MadeFrom d uses)

include made

/-- Each mapping stores an attribute. -/
theorem exists_attribute_of_mapping {x : Mapping} (hx : x ∈ c.metamodel.mappings) :
    ∃ n a place, a ∈ d.members n ∧ a.Stored c.metamodel.tableOf uses place x := by
  rcases List.mem_append.1 hx with hx | hx
  · obtain ⟨y, hy, hx⟩ := List.mem_flatMap.1 hx
    obtain ⟨e, he, -, hs⟩ := made.exists_of_descriptor hy
    obtain ⟨a, ha, hstored⟩ := exists_mem_of_forall₂' hs.mappings hx
    obtain ⟨n, -, hn⟩ := Definition.mem_storedWith made.checked made.acyclic he ha
    exact ⟨n, a, _, hn, hstored⟩
  · obtain ⟨u, hu, hx⟩ := List.mem_flatMap.1 hx
    obtain ⟨id, hid⟩ := List.mem_iff_getElem?.1 hu
    obtain ⟨use, e, -, he, hs⟩ := made.laidOut.complete id u (Nat.zero_le _) hid
    obtain ⟨a, ha, hstored⟩ := exists_mem_of_forall₂' hs.mappings hx
    obtain ⟨hmem, -⟩ := Definition.embeddable?_mem he
    refine ⟨e.name, a, _, ?_, hstored⟩
    rwa [Definition.members_embeddable made.checked.nodup_typeNames hmem]

theorem exists_target {x : Mapping} (hx : x ∈ c.metamodel.mappings) {n : String}
    (hn : n ∈ x.targets) : ∃ e, c.metamodel.entity? n = some e := by
  obtain ⟨owner, a, place, ha, hstored⟩ := made.exists_attribute_of_mapping hx
  have hcheck := made.checked.checkShape _ (Definition.mem_members.1 ha)
  have known : ∀ {n}, (d.entity? n).isSome = true → ∃ e, c.metamodel.entity? n = some e := by
    intro n hsome
    obtain ⟨e, he⟩ := Option.isSome_iff_exists.1 hsome
    exact made.exists_entity.2 ⟨e, Definition.entity?_mem he⟩
  cases hstored with
  | toOne =>
    obtain rfl := List.mem_singleton.1 hn
    exact known (Definition.checkEntity_eq_ok.1 hcheck)
  | any =>
    obtain ⟨v, hv, rfl⟩ := List.mem_map.1 hn
    exact known (Definition.checkEntity_eq_ok.1 (forM_eq_ok.1 hcheck v hv))
  | @plural name g value p hvalue =>
    have helement : (Physical.CollectionPart.entity? ⟨.element, s!"{place.role}.{name}", value⟩) =
        some n := by
      rw [Mapping.targets, Definition.storedPlural] at hn
      cases hi : p.index <;> cases hc : p.idColumn <;>
        simpa [hi, hc, Physical.CollectionPart.entity?] using hn
    have hcheck := (Definition.checkPlural_eq_ok.1 hcheck).1
    generalize p.element = element at hvalue hcheck
    cases hvalue with
    | entity =>
      cases helement
      exact known (Definition.checkEntity_eq_ok.1 hcheck)
    | basic | embedded => cases helement
  | basic | embedded => cases hn

theorem wellFormed (whole : c.metamodel.Whole) : c.metamodel.WellFormed := by
  refine {
    supertype := fun x hx n hn => ?_
    subtypes := fun x hx n hn => ?_
    targets := fun x hx n hn => made.exists_target hx hn
    usages := fun x hx id hid => ?_
    references := whole.references_perm
    parts := fun p hp part hpart => ?_
    lt_of_nested := fun _ _ hn => whole.lt_of_nested hn
    nested_unique := fun _ _ _ hn hn' => whole.nested_unique hn hn'
    acyclic := whole.acyclic }
  · refine made.validSupertypes x.name n ?_
    rw [Metamodel.supertypeOf?, made.entity?_of_mem hx, Option.bind_some, hn]
  · obtain ⟨e, -, -, hs⟩ := made.exists_of_descriptor hx
    rw [hs.subtypes, Definition.below, List.mem_map] at hn
    obtain ⟨e', he', rfl⟩ := hn
    exact made.exists_entity.2 ⟨e', (List.mem_filter.1 he').1, rfl⟩
  · refine whole.exists_usage ?_
    rw [Metamodel.references_eq]
    exact List.mem_flatMap.2 ⟨x, hx, hid⟩
  · obtain ⟨n, a, place, -, hstored⟩ := made.exists_attribute_of_mapping hp
    cases hstored
    rw [Definition.storedPlural, List.mem_append, Option.mem_toList, Option.mem_toList,
      Option.map_eq_some_iff, Option.map_eq_some_iff] at hpart
    rcases hpart with ⟨i, -, rfl⟩ | ⟨column, -, rfl⟩ <;> rfl

/-! ## Roles of uses -/

theorem nodup_mappings {id : Physical.UsageId} {u : Usage} (hu : c.metamodel.usage? id = some u) :
    (u.mappings.map Mapping.name).Nodup := by
  obtain ⟨use, e, -, he, hs⟩ := made.laidOut.complete id u (Nat.zero_le _) hu
  rw [Attribute.Stored.names_eq hs.mappings]
  exact made.distinct.embeddable _ (List.mem_map_of_mem (Definition.embeddable?_mem he).1)

theorem role_eq {id : Physical.UsageId} {u : Usage} (hu : c.metamodel.usage? id = some u)
    {use : Definition.Place × String} (huse : uses[id]? = some use) : u.role = use.1.role := by
  obtain ⟨use', e, huse', -, hs⟩ := made.laidOut.complete id u (Nat.zero_le _) hu
  rw [huse, Option.some.injEq] at huse'
  rw [hs.role, huse']

variable (whole : c.metamodel.Whole)

include whole

/-- The role of a use of an embeddable is made up of the names that lead to it from an entity. They
hold no dots if names of attributes hold none. -/
theorem exists_leadsTo (id : Physical.UsageId) {u : Usage}
    (hu : c.metamodel.usage? id = some u) :
    ∃ x ∈ c.metamodel.entities, ∃ names, LeadsTo c.metamodel x.mappings names id ∧
      u.role = names.foldl roleOf x.name ∧
      (d.outline.Dotless → ∀ n ∈ names, '.' ∉ n.toList) := by
  -- A use is nested in one with a smaller number, or else it is referred to by an entity.
  induction id using Nat.strongRecOn generalizing u with
  | _ id ih =>
    have hid : id ∈ c.metamodel.references := by
      rw [whole.references_perm.mem_iff, List.mem_range]
      exact (List.getElem?_eq_some_iff.1 hu).1
    have reserved : '.' ∉ PartNature.element.name.toList := by decide
    rcases List.mem_append.1 hid with hid | hid
    · obtain ⟨x, hx, hid⟩ := List.mem_flatMap.1 hid
      obtain ⟨y, hy, hid⟩ := List.mem_flatMap.1 hid
      obtain ⟨e, he, hen, hs⟩ := made.exists_of_descriptor hx
      obtain ⟨a, ha, hstored⟩ := exists_mem_of_forall₂' hs.mappings hy
      obtain ⟨names, use, hstep, huse, hrole, hnames, hshape⟩ := hstored.step? hid
      refine ⟨x, hx, names, .last hy hstep, ?_, fun dotless n hn => ?_⟩
      · rw [made.role_eq hu huse, hrole, hen]
      · rcases hnames n hn with rfl | rfl
        · exact dotless.storedWith made.checked made.acyclic he ha hshape
        · exact reserved
    · obtain ⟨v, hv, hid⟩ := List.mem_flatMap.1 hid
      obtain ⟨outer, houter⟩ := List.mem_iff_getElem?.1 hv
      obtain ⟨x, hx, names, hleads, hrole, hnames⟩ :=
        ih outer (whole.lt_of_nested ⟨v, houter, hid⟩) houter
      obtain ⟨y, hy, hid⟩ := List.mem_flatMap.1 hid
      obtain ⟨use, e, huse, he, hs⟩ := made.laidOut.complete outer v (Nat.zero_le _) houter
      obtain ⟨a, ha, hstored⟩ := exists_mem_of_forall₂' hs.mappings hy
      obtain ⟨names', use', hstep, huse', hrole', hnames', -⟩ := hstored.step? hid
      refine ⟨x, hx, names ++ names', hleads.append houter hy hstep, ?_, fun dotless n hn => ?_⟩
      · rw [made.role_eq hu huse', hrole', ← made.role_eq houter huse, hrole, List.foldl_append]
      · rcases List.mem_append.1 hn with hn | hn
        · exact hnames dotless n hn
        · rcases hnames' n hn with rfl | rfl
          · exact dotless.embeddables _ (List.mem_map_of_mem (Definition.embeddable?_mem he).1) _
              (List.mem_map_of_mem ha)
          · exact reserved

theorem nodup_roles (dotless : d.outline.Dotless) : (c.metamodel.usages.map (·.role)).Nodup := by
  have same : ∀ (i j : Physical.UsageId) (u v : Usage), c.metamodel.usage? i = some u →
      c.metamodel.usage? j = some v → u.role = v.role → i = j := by
    intro i j u v hu hv hrole
    obtain ⟨x, hx, names, hleads, hux, hnames⟩ := made.exists_leadsTo whole i hu
    obtain ⟨y, hy, names', hleads', hvy, hnames'⟩ := made.exists_leadsTo whole j hv
    have entity : ∀ {z : Physical.Entity}, z ∈ c.metamodel.entities → '.' ∉ z.name.toList := by
      intro z hz
      obtain ⟨e, he, hen, -⟩ := made.exists_of_descriptor hz
      refine dotless.types _ ?_
      rw [Definition.outline, Definition.typeNames_map]
      exact Definition.mem_typeNames.2 (.inr (.inr ⟨e, he, hen⟩))
    rw [hux, hvy] at hrole
    obtain ⟨hxy, rfl⟩ :=
      Definition.foldl_roleOf_inj (entity hx) (entity hy) (hnames dotless) (hnames' dotless) hrole
    obtain rfl := List.inj_on_of_nodup_map made.nodup_entityNames hx hy hxy
    obtain ⟨e, he, -, hs⟩ := made.exists_of_descriptor hx
    refine hleads.unique ?_ (fun _ _ => made.nodup_mappings) hleads'
    rw [Attribute.Stored.names_eq hs.mappings]
    exact Definition.nodup_storedWith made.checked made.acyclic made.distinct he
  rw [List.Nodup, List.pairwise_map, List.pairwise_iff_getElem]
  intro i j hi hj hlt hrole
  exact Nat.ne_of_lt hlt (same i j _ _ (List.getElem?_eq_getElem hi) (List.getElem?_eq_getElem hj)
    hrole)

end MadeFrom

/-! ## Metamodels of catalogs -/

theorem whole_metamodel {raw : Definition RawAttribute} {c : Catalog}
    (h : ofDefinition raw = .ok c) : c.metamodel.Whole := by
  obtain ⟨d, uses, hd, -, made⟩ := exists_madeFrom h
  obtain ⟨d', hd', hc⟩ := bind_eq_ok.1 h
  rw [mapError_eq_ok, hd, Except.ok.injEq] at hd'
  subst hd'
  obtain ⟨logical, -, hc⟩ := bind_eq_ok.1 hc
  obtain ⟨registry, -, hc⟩ := bind_eq_ok.1 hc
  obtain ⟨metamodel, hm, hc⟩ := bind_eq_ok.1 hc
  cases hc
  exact (Definition.metamodel_whole made.checked made.acyclic).1 _ hm

/-- The descriptors of every catalog are a well-formed graph. Without dots in the names of types and
attributes, roles tell the uses of embeddables apart. -/
theorem wellFormed_metamodel {raw : Definition RawAttribute} {c : Catalog}
    (h : ofDefinition raw = .ok c) : c.metamodel.WellFormed ∧
      ((raw.map RawAttribute.name).Dotless → (c.metamodel.usages.map (·.role)).Nodup) := by
  obtain ⟨d, uses, -, hout, made⟩ := exists_madeFrom h
  have whole := whole_metamodel h
  exact ⟨made.wellFormed whole, fun dotless => made.nodup_roles whole (hout ▸ dotless)⟩

set_option maxRecDepth 100000 in
theorem wellFormed_listedAuctions : ∃ c, ofDefinition listedAuctions = .ok c ∧
    c.metamodel.WellFormed ∧ (c.metamodel.usages.map (·.role)).Nodup := by
  obtain ⟨c, hc, -⟩ := exists_ok_of_any (x := ofDefinition listedAuctions) (P := fun _ => true)
    (by decide +kernel)
  obtain ⟨wellFormed, roles⟩ := wellFormed_metamodel hc
  exact ⟨c, hc, wellFormed, roles (by decide)⟩

end Catalog

end QueryPath
