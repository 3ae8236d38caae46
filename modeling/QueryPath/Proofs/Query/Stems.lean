import QueryPath.Proofs.Catalog.Graph
import QueryPath.Proofs.Query.Variables

/-!
# Stems of table groups

The variable of a group begins with the first letter of the name of its part. That of a root is the
name of the entity. A join looks the name of its last step up, and finds a part of that name, except
for one kind of part: a use of an embeddable is named by its role, which begins with the name of the
entity that stores it (`FromClause.Call.NamedBy`).

```text
from Auction a join a.bids b join a.reserve r
  Auction(a)            Auction             a1_0
  Auction(a).bids(b)    bids                b1_0
  Auction(a).reserve(r) Auction.reserve     a2_0
```

What carries the proof is that groups have no parts but those of the metamodel (`Part.Within`);
names lead on from such parts to mappings and to parts of collections, whose names are known.
-/

namespace QueryPath

open Physical (Metamodel Mapping Part Usage UsageId)

namespace Physical

/-! ## What a name leads to -/

/-- The part is made from descriptors of the metamodel. -/
def Part.Within (m : Metamodel) : Part → Prop
  | .usage u => u ∈ m.usages
  | .entity e => e ∈ m.entities
  | .plural p => .plural p ∈ m.mappings
  | .column _ | .toOne _ | .collection _ | .any _ => True

/-- What a name can lead to from a part: a mapping of that name, a column of what is no attribute,
or a part of the collection. -/
inductive Part.Found (m : Metamodel) (x : Part) (n : String) : Part → Prop
  | mapping {z y} : z ∈ m.mappings → z.name = n → m.partOf? z = some y → Found m x n y
  | column {c} : Found m x n (.column c)
  | part {p nature part} : x = .plural p → nature.name = n → p.part? nature = some part →
      Found m x n (.collection part)

namespace Metamodel

variable {m : Metamodel} {n : String} {y : Part}

theorem mem_of_entity? {e : Entity} (h : m.entity? n = some e) : e ∈ m.entities :=
  List.mem_of_find?_eq_some h

/-- The lineage of a descriptor is made of descriptors. -/
theorem mem_of_mem_lineage {e z : Entity} (he : e ∈ m.entities) (hz : z ∈ m.lineage e) :
    z ∈ m.entities := by
  rw [lineage] at hz
  generalize m.entities.length = k at hz
  induction k generalizing e with
  | zero =>
    rw [lineageUpTo, List.mem_singleton] at hz
    exact hz ▸ he
  | succ k ih =>
    rw [lineageUpTo, List.mem_cons] at hz
    rcases hz with rfl | hz
    · exact he
    · split at hz
      · cases hz
      · rename_i s hs
        obtain ⟨name, -, hname⟩ := Option.bind_eq_some_iff.1 hs
        exact ih (mem_of_entity? hname) hz

theorem found_of_findIn? {x : Part} {es : List Entity} (hes : ∀ e ∈ es, e ∈ m.entities)
    (h : m.findIn? es n = some y) : x.Found m n y := by
  obtain ⟨e, he, h⟩ := List.exists_of_findSome?_eq_some h
  obtain ⟨z, hz, hy⟩ := Option.bind_eq_some_iff.1 h
  unfold Entity.mapping? at hz
  split at hz
  · rename_i hdeclared
    cases hz
    have hmem := List.mem_of_find?_eq_some hdeclared
    exact .mapping (List.mem_append_left _ (List.mem_flatMap.2 ⟨e, hes e he, hmem⟩))
      (by simpa using List.find?_some hdeclared) hy
  · split at hz
    · obtain ⟨c, -, rfl⟩ := Option.map_eq_some_iff.1 hz
      cases hy
      exact .column
    · cases hz

theorem found_of_entityPart? {x : Part} {e : Entity} (he : e ∈ m.entities) {t : Option Entity}
    (ht : ∀ e ∈ t, e ∈ m.entities) (h : m.entityPart? e n t = some y) : x.Found m n y := by
  unfold entityPart? at h
  split at h
  · rename_i hfound
    cases h
    exact found_of_findIn? (fun z => mem_of_mem_lineage he) hfound
  · obtain ⟨s, hs, h⟩ := Option.bind_eq_some_iff.1 h
    split at h
    · refine found_of_findIn? (fun z hz => ?_) h
      exact mem_of_mem_lineage (ht s hs) (List.takeWhile_subset _ hz)
    · cases h

theorem found_of_usagePart? {x : Part} {u : Usage} (hu : u ∈ m.usages)
    (h : m.usagePart? u n = some y) : x.Found m n y := by
  obtain ⟨z, hz, hy⟩ := Option.bind_eq_some_iff.1 h
  have hmem := List.mem_of_find?_eq_some hz
  exact .mapping (List.mem_append_right _ (List.mem_flatMap.2 ⟨u, hu, hmem⟩))
    (by simpa using List.find?_some hz) hy

theorem found_of_valuePart? {x : Part} {v : PartValue} {t : Option Entity}
    (ht : ∀ e ∈ t, e ∈ m.entities) (h : m.valuePart? v n t = some y) : x.Found m n y := by
  cases v with
  | column c => cases h
  | embedded id =>
    obtain ⟨u, hu, h⟩ := Option.bind_eq_some_iff.1 h
    exact found_of_usagePart? (List.mem_of_getElem? hu) h
  | entity target column =>
    obtain ⟨e, he, h⟩ := Option.bind_eq_some_iff.1 h
    exact found_of_entityPart? (mem_of_entity? he) ht h

/-- A name leads on from a part of the metamodel to what it can lead to. -/
theorem found_of_subPart? {x : Part} (hx : x.Within m) {t : Option Entity}
    (ht : ∀ e ∈ t, e ∈ m.entities) (h : m.subPart? x n t = some y) : x.Found m n y := by
  cases x with
  | column c => cases h
  | usage u => exact found_of_usagePart? hx h
  | entity e => exact found_of_entityPart? hx ht h
  | toOne a =>
    obtain ⟨e, he, h⟩ := Option.bind_eq_some_iff.1 h
    exact found_of_entityPart? (mem_of_entity? he) ht h
  | plural p =>
    rw [subPart?] at h
    split at h
    · rename_i nature hnature
      obtain ⟨part, hpart, rfl⟩ := Option.map_eq_some_iff.1 h
      exact .part rfl (PartNature.ofName?_eq_some_iff.1 hnature) hpart
    · exact found_of_valuePart? ht h
  | collection part => exact found_of_valuePart? ht h
  | any a =>
    rw [subPart?] at h
    split at h
    · cases h
      exact .column
    · split at h
      · cases h
        exact .column
      · cases h

end Metamodel

theorem Part.Found.within {m : Metamodel} {x y : Part} {n : String} (h : x.Found m n y) :
    y.Within m := by
  cases h with
  | @mapping z _ hz _ hy =>
    cases z with
    | column | toOne | any =>
      cases hy
      trivial
    | plural p =>
      cases hy
      exact hz
    | embedded n id =>
      obtain ⟨u, hu, rfl⟩ := Option.map_eq_some_iff.1 hy
      exact List.mem_of_getElem? hu
  | column => trivial
  | part => trivial

end Physical

namespace FromClause

/-! ## What a group is named after -/

/-- The name of the part that a call leads to. -/
inductive Call.NamedBy (m : Metamodel) : Call → Part → String → Prop
  | root {s v e} : s.entity? = some e.name → NamedBy m (.root (.root s v)) (.entity e) e.name
  | join {p part} : (∀ u, part ≠ .usage u) → NamedBy m (.join p) part p.name
  /-- An embedded attribute leads to a use of an embeddable, which is named by its role. -/
  | embedded {p u id e names} : .embedded p.name id ∈ m.mappings → m.usage? id = some u →
      e ∈ m.entities → u.role = (names ++ [p.name]).foldl Definition.roleOf e.name →
      NamedBy m (.join p) (.usage u) u.role

/-- All groups have parts of the metamodel. -/
def Within (m : Metamodel) (f : FromClause) : Prop := ∀ g ∈ f.groups, g.part.Within m

section Within

variable {m : Metamodel} {f f' : FromClause} {g : TableGroup} {call : Call} {part : Part}

/-- A call leads to the part of an entity, or to what its last step can lead to. -/
theorem Within.call_part (h : f.Within m) (hpart : call.part m f = .ok part) :
    (∃ s v e, call = .root (.root s v) ∧ s.entity? = some e.name ∧ e ∈ m.entities ∧
      part = .entity e) ∨
    ∃ (p : Path) (x : Part), call = .join p ∧ part.isContainer = true ∧ x.Within m ∧
      x.Found m p.name part := by
  cases call with
  | root p =>
    cases p with
    | root s v =>
      rw [Call.part] at hpart
      split at hpart
      · cases hpart
      · rename_i entity hentity
        split at hpart
        · cases hpart
        · rename_i e he
          cases hpart
          obtain rfl := Metamodel.entity?_name he
          exact .inl ⟨s, v, e, rfl, hentity, Metamodel.mem_of_entity? he, rfl⟩
    | cteRoot | cteColumn | member | treat | part => cases hpart
  | join p =>
    rw [Call.part] at hpart
    split at hpart
    · cases hpart
    · obtain ⟨y, hy, hpart⟩ := bind_eq_ok.1 hpart
      split at hpart
      · cases hpart
      · rename_i y
        split at hpart
        · rename_i hcontainer
          cases hpart
          rcases joinedPart_eq_ok hy with ⟨_, _, _, t, -, -, ht, hsub⟩ | ⟨g, hg, hsub⟩
          · have hmem := Metamodel.mem_of_entity? ht
            have hwithin : (Part.entity t).Within m := hmem
            exact .inr ⟨p, _, rfl, hcontainer, hwithin,
              Metamodel.found_of_subPart? hwithin (by rintro _ ⟨⟩; exact hmem) hsub⟩
          · have hwithin := h g (find?_eq_some hg).1
            exact .inr ⟨p, _, rfl, hcontainer, hwithin,
              Metamodel.found_of_subPart? hwithin (by rintro _ ⟨⟩) hsub⟩
        · cases hpart

theorem Within.part_within (h : f.Within m) (hpart : call.part m f = .ok part) :
    part.Within m := by
  rcases h.call_part hpart with ⟨_, _, e, -, -, he, rfl⟩ | ⟨_, x, -, -, -, hfound⟩
  · exact he
  · exact hfound.within

theorem Within.next (h : f.Within m) (call : Call) : (f.next m call).Within m := by
  unfold FromClause.next
  cases happly : call.apply m f with
  | error e => exact h
  | ok y =>
    obtain ⟨part, hpart, hm⟩ := Call.apply_eq_ok happly
    obtain ⟨-, hpartEq, hgroups⟩ := materialize_eq_ok hm
    intro g hg
    rw [hgroups, List.mem_append, List.mem_singleton] at hg
    rcases hg with hg | rfl
    · exact h g hg
    · exact hpartEq ▸ h.part_within hpart

theorem Within.run (h : f.Within m) (calls : List Call) : (f.run m calls).Within m := by
  induction calls generalizing f with
  | nil => exact h
  | cons call calls ih => exact ih (h.next call)

end Within

end FromClause

namespace Catalog

open Definition (Attribute RawAttribute roleOf)
open FromClause (Call)

namespace MadeFrom

variable {c : Catalog} {d : Definition Attribute} {uses : Definition.Uses}
  (made : c.MadeFrom d uses)

include made

/-- The role of an embedded value ends in the name of the attribute. -/
theorem exists_role (whole : c.metamodel.Whole) {n : String} {id : UsageId}
    (hx : .embedded n id ∈ c.metamodel.mappings) {u : Usage}
    (hu : c.metamodel.usage? id = some u) :
    ∃ e ∈ c.metamodel.entities, ∃ names : List String,
      u.role = (names ++ [n]).foldl roleOf e.name := by
  simp only [List.foldl_append, List.foldl_cons, List.foldl_nil]
  rcases List.mem_append.1 hx with hx | hx
  · obtain ⟨x, hmem, hx⟩ := List.mem_flatMap.1 hx
    obtain ⟨e, -, hn, hs⟩ := made.exists_of_descriptor hmem
    obtain ⟨a, -, hstored⟩ := exists_mem_of_forall₂' hs.mappings hx
    cases hstored with
    | embedded huse => exact ⟨x, hmem, [], hn ▸ made.role_eq hu huse⟩
  · obtain ⟨v, hv, hx⟩ := List.mem_flatMap.1 hx
    obtain ⟨outer, houter⟩ := List.mem_iff_getElem?.1 hv
    obtain ⟨use, e, huse, -, hs⟩ := made.laidOut.complete outer v (Nat.zero_le _) houter
    obtain ⟨a, -, hstored⟩ := exists_mem_of_forall₂' hs.mappings hx
    obtain ⟨x, hmem, names, -, hrole, -⟩ := made.exists_leadsTo whole outer houter
    cases hstored with
    | embedded huse' =>
      refine ⟨x, hmem, names, (made.role_eq hu huse').trans ?_⟩
      rw [← hrole, made.role_eq houter huse]
      rfl

theorem nature_eq {p : Physical.Plural} (hp : .plural p ∈ c.metamodel.mappings)
    {nature : PartNature} {part : Physical.CollectionPart} (h : p.part? nature = some part) :
    part.nature = nature := by
  obtain ⟨n, a, place, -, hstored⟩ := made.exists_attribute_of_mapping hp
  cases hstored
  cases nature with
  | element =>
    cases h
    rfl
  | index | identifier =>
    obtain ⟨_, -, rfl⟩ := Option.map_eq_some_iff.1 h
    rfl

/-- What a join leads to is named like its last step, or else by a role. -/
theorem namedBy_of_found (whole : c.metamodel.Whole) {p : Path} {x y : Part}
    (hx : x.Within c.metamodel) (h : x.Found c.metamodel p.name y)
    (hcontainer : y.isContainer = true) : (Call.join p).NamedBy c.metamodel y y.name := by
  have named : ∀ {z : Part}, (∀ u, z ≠ .usage u) → z.name = p.name →
      (Call.join p).NamedBy c.metamodel z z.name := by
    rintro z hz hn
    rw [hn]
    exact .join hz
  cases h with
  | @mapping z _ hz hn hy =>
    cases z with
    | column =>
      cases hy
      cases hcontainer
    | toOne | plural | any =>
      cases hy
      exact named (by rintro u ⟨⟩) hn
    | embedded n id =>
      obtain ⟨u, hu, rfl⟩ := Option.map_eq_some_iff.1 hy
      obtain rfl : n = p.name := hn
      obtain ⟨e, he, names, hrole⟩ := made.exists_role whole hz hu
      exact .embedded hz hu he hrole
  | column => cases hcontainer
  | part hplural hnature hpart =>
    subst hplural
    have hnatures := congrArg PartNature.name (made.nature_eq hx hpart)
    exact named (by rintro u ⟨⟩) (hnatures.trans hnature)

end MadeFrom

/-- In every catalog, whatever roots and joins are added, the variable of a group is the stem of
what the group is named after, with the number of groups of that stem up to it. A group is named
after the entity of a root, the last step of a join, or the role of an embedded value. -/
theorem identification_of_log {raw : Definition RawAttribute} {c : Catalog}
    (h : ofDefinition raw = .ok c) (calls : List Call) :
    (FromClause.run c.metamodel {} calls).groups =
        (FromClause.log c.metamodel {} calls).map (·.2) ∧
      ∀ before call g after,
        FromClause.log c.metamodel {} calls = before ++ (call, g) :: after →
        ∃ name, call.NamedBy c.metamodel g.part name ∧
          g.identification = FromClause.numbered (FromClause.stemOf name)
            (before.countP (fun x => x.2.stem == FromClause.stemOf name) + 1) := by
  obtain ⟨d, uses, -, -, made⟩ := exists_madeFrom h
  refine ⟨FromClause.groups_run _ _ _, fun before call g after hlog => ?_⟩
  obtain ⟨earlier, f', -, rfl, happly⟩ := FromClause.exists_apply_of_log hlog
  obtain ⟨part, hpart, hm⟩ := Call.apply_eq_ok happly
  have within : (FromClause.run c.metamodel {} earlier).Within c.metamodel :=
    FromClause.Within.run (fun _ hg => by cases hg) earlier
  obtain ⟨-, rfl, -⟩ := FromClause.materialize_eq_ok hm
  obtain ⟨-, -, hid, -⟩ := FromClause.materialize_spec hm
  refine ⟨g.part.name, ?_, ?_⟩
  · rcases within.call_part hpart with
      ⟨s, v, e, rfl, hs, -, he⟩ | ⟨p, x, rfl, hcontainer, hx, hfound⟩
    · rw [he]
      exact .root hs
    · exact made.namedBy_of_found (whole_metamodel h) hx hfound hcontainer
  · have hgroups : (FromClause.run c.metamodel {} earlier).groups =
        (FromClause.log c.metamodel {} earlier).map (·.2) := FromClause.groups_run _ _ _
    rw [hid, (FromClause.Numbered.empty.run earlier).stems, hgroups, List.map_map,
      List.count_eq_countP, List.countP_map]
    rfl

/-- Auctions are joined to an attribute; the groups have parts of these names and these
variables. -/
def JoinsAs (c : Catalog) (a p : Path) (name identification : String) : Prop :=
  (FromClause.log c.metamodel {} [.root a, .join p]).map
      (fun x => (x.1, x.2.part.name, x.2.identification)) =
    [(.root a, "Auction", "a1_0"), (.join p, name, identification)]

instance (c : Catalog) (a p : Path) (name identification : String) :
    Decidable (c.JoinsAs a p name identification) :=
  inferInstanceAs (Decidable (_ = _))

theorem exists_join (raw : Definition RawAttribute) (n v name identification : String)
    (h : (ofDefinition raw).toOption.any (fun c =>
      (Path.ofEntity c.registry "Auction" (some "a")).toOption.any fun a =>
        (a.join c.registry n v).toOption.any fun p =>
          decide (p.name = n ∧ c.JoinsAs a p name identification)) = true) :
    ∃ c a p, ofDefinition raw = .ok c ∧ Path.ofEntity c.registry "Auction" (some "a") = .ok a ∧
      a.join c.registry n v = .ok p ∧ p.name = n ∧ c.JoinsAs a p name identification := by
  obtain ⟨c, hc, h⟩ := exists_ok_of_any h
  obtain ⟨a, ha, h⟩ := exists_ok_of_any h
  obtain ⟨p, hp, h⟩ := exists_ok_of_any h
  exact ⟨c, a, p, hc, ha, hp, of_decide_eq_true h⟩

set_option maxRecDepth 100000 in
/-- Bids are numbered under their own name. -/
theorem identification_bids : ∃ c a b x y, ofDefinition auctionHouse = .ok c ∧
    Path.ofEntity c.registry "Auction" (some "a") = .ok a ∧
    a.join c.registry "bids" "b" = .ok b ∧
    FromClause.log c.metamodel {} [.root a, .join b] = [x, y] ∧ y.2.identification = "b1_0" ∧
    ∃ name, y.1.NamedBy c.metamodel y.2.part name ∧
      y.2.identification = FromClause.numbered (FromClause.stemOf name)
        ([x].countP (fun x => x.2.stem == FromClause.stemOf name) + 1) := by
  obtain ⟨c, a, b, hc, ha, hb, -, hlog⟩ :=
    exists_join auctionHouse "bids" "b" "bids" "b1_0" (by decide +kernel)
  obtain ⟨x, l, hxy, -, hl⟩ := List.map_eq_cons_iff.1 hlog
  obtain ⟨y, rfl, hy⟩ := List.map_eq_singleton_iff.1 hl
  exact ⟨c, a, b, x, y, hc, ha, hb, hxy, congrArg (·.2.2) hy,
    (identification_of_log hc [.root a, .join b]).2 [x] y.1 y.2 [] hxy⟩

set_option maxRecDepth 100000 in
/-- The reserve of an auction, which is embedded, is numbered under the name of the entity. -/
theorem identification_reserve : ∃ c a r, ofDefinition auctionHouse = .ok c ∧
    Path.ofEntity c.registry "Auction" (some "a") = .ok a ∧
    a.join c.registry "reserve" "r" = .ok r ∧ r.name = "reserve" ∧
    (FromClause.log c.metamodel {} [.root a, .join r]).map
        (fun x => (x.1, x.2.part.name, x.2.identification)) =
      [(.root a, "Auction", "a1_0"), (.join r, "Auction.reserve", "a2_0")] ∧
    FromClause.numbered (FromClause.stemOf "reserve") 1 = "r1_0" := by
  obtain ⟨c, a, r, hc, ha, hr, hname, hlog⟩ :=
    exists_join auctionHouse "reserve" "r" "Auction.reserve" "a2_0" (by decide +kernel)
  exact ⟨c, a, r, hc, ha, hr, hname, hlog, by decide⟩

end Catalog

end QueryPath
