import QueryPath.Proofs.Catalog.Hierarchy

/-!
# Names on narrowed entities

On an entity that is narrowed to one below it a name is looked up twice: along the lineage of the
entity, and then on what lies between the two. In a catalog the names along a lineage differ
(`nodup_lineage`), so the order is of no concern, and the entity is like the one that it is narrowed
to. Narrowing to an entity that is not below changes nothing. So a name leads to what is stored with
an entity at or above the one that the query means, and never to what a sibling stores.
-/

namespace QueryPath.Catalog

open Definition (RawAttribute)
open Physical (Metamodel Part)

namespace MadeFrom

variable {c : Catalog} {d : Definition Definition.Attribute} {uses : Definition.Uses}
  (made : c.MadeFrom d uses)

include made

/-- No two mappings along the lineage of a descriptor have the same name. -/
theorem nodup_lineage_of_mem {x : Physical.Entity} (hx : x ∈ c.metamodel.entities) :
    ((c.metamodel.lineage x).flatMap fun y => y.mappings.map (·.name)).Nodup := by
  have hfound := made.entity?_of_mem hx
  obtain ⟨e, he, hn⟩ := made.exists_entity.1 ⟨x, hfound⟩
  obtain ⟨l, hl⟩ := made.exists_chain he
  exact made.nodup_lineage (hn ▸ hfound) he hl

/-- A name leads to what is stored with a descriptor in the lineage. -/
theorem exists_declared {x : Physical.Entity} (hx : x ∈ c.metamodel.entities) {n : String}
    (hn : n ≠ identifierName) {part : Part} (h : c.metamodel.entityPart? x n none = some part) :
    ∃ y ∈ c.metamodel.entities, (y.declared? n).bind c.metamodel.partOf? = some part ∧
      c.metamodel.isSubtype x y = true := by
  rw [Metamodel.entityPart?_none] at h
  obtain ⟨y, hy, hpart⟩ := Metamodel.exists_of_findIn? hn h
  obtain ⟨-, hall⟩ := made.walk_lineage (made.entity?_of_mem hx)
  exact ⟨y, List.mem_of_find?_eq_some (hall y hy), hpart,
    Metamodel.isSubtype_iff.2 (List.mem_map_of_mem hy)⟩

/-- Descriptors that are below each other are the same. -/
theorem eq_of_isSubtype {x y : Physical.Entity} (hx : x ∈ c.metamodel.entities)
    (hy : y ∈ c.metamodel.entities) (hxy : c.metamodel.isSubtype x y = true)
    (hyx : c.metamodel.isSubtype y x = true) : x = y := by
  have hx := made.entity?_of_mem hx
  have hy := made.entity?_of_mem hy
  have hname := made.acyclic_metamodel.antisymm
    ((made.walk_lineage hx).1.mem_iff.1 (Metamodel.isSubtype_iff.1 hxy))
    ((made.walk_lineage hy).1.mem_iff.1 (Metamodel.isSubtype_iff.1 hyx))
  exact Option.some.inj (hx.symm.trans (hname ▸ hy))

end MadeFrom

/-- Narrowing leads down to an entity and no further: an entity narrowed to `t` has under each name
but the reserved one of the identifier what `t` has, if `t` is the entity or below it, and what it
has without narrowing otherwise. What it has is stored with an entity at or above `t`, or at or
above the entity itself. -/
theorem subPart?_narrowed {raw : Definition RawAttribute} {c : Catalog}
    (h : ofDefinition raw = .ok c) {x t : Physical.Entity} (hx : x ∈ c.metamodel.entities)
    (ht : t ∈ c.metamodel.entities) {n : String} (hn : n ≠ identifierName) :
    (c.metamodel.isSubtype t x = true →
      c.metamodel.subPart? (.entity x) n (some t) = c.metamodel.subPart? (.entity t) n none) ∧
    (c.metamodel.isSubtype t x = false →
      c.metamodel.subPart? (.entity x) n (some t) = c.metamodel.subPart? (.entity x) n none) ∧
    ∀ part, c.metamodel.subPart? (.entity x) n (some t) = some part →
      ∃ y ∈ c.metamodel.entities, (y.declared? n).bind c.metamodel.partOf? = some part ∧
        (c.metamodel.isSubtype t x = true → c.metamodel.isSubtype t y = true ∧
          (c.metamodel.isSubtype y t = true → y = t)) ∧
        (c.metamodel.isSubtype t x = false → c.metamodel.isSubtype x y = true) := by
  obtain ⟨d, uses, -, -, made⟩ := exists_madeFrom h
  have below : c.metamodel.isSubtype t x = true →
      c.metamodel.entityPart? x n (some t) = c.metamodel.entityPart? t n none := fun hsub =>
    Metamodel.entityPart?_of_isSubtype made.validSupertypes made.acyclic_metamodel
      (made.entity?_of_mem hx) (made.entity?_of_mem ht) hsub (made.nodup_lineage_of_mem ht) hn
  have aside : c.metamodel.isSubtype t x = false →
      c.metamodel.entityPart? x n (some t) = c.metamodel.entityPart? x n none := fun hsub =>
    Metamodel.entityPart?_of_not_isSubtype hsub n
  refine ⟨below, aside, fun part hpart => ?_⟩
  rw [Metamodel.subPart?] at hpart
  cases hsub : c.metamodel.isSubtype t x with
  | true =>
    rw [below hsub] at hpart
    obtain ⟨y, hy, hdeclared, hty⟩ := made.exists_declared ht hn hpart
    refine ⟨y, hy, hdeclared, fun _ => ⟨hty, fun hyt => ?_⟩, fun hfalse => by cases hfalse⟩
    exact made.eq_of_isSubtype hy ht hyt hty
  | false =>
    rw [aside hsub] at hpart
    obtain ⟨y, hy, hdeclared, hxy⟩ := made.exists_declared hx hn hpart
    exact ⟨y, hy, hdeclared, fun htrue => (by cases htrue), fun _ => hxy⟩

/-- Auctions of two sorts, one of which has notes. -/
def notedAuctions : Definition RawAttribute where
  entities := [
    { name := "Auction", table := some "auctions" },
    { name := "SilentAuction"
      supertype := some "Auction"
      attributes := [{ name := "note", kind := some .string, column := some "note" }] },
    { name := "DutchAuction", supertype := some "Auction" }]

set_option maxRecDepth 100000 in
/-- An auction has a note where it is narrowed to a silent auction, and none where it is narrowed to
a Dutch one. -/
theorem subPart?_narrowed_note : ∃ c x t u part, ofDefinition notedAuctions = .ok c ∧
    c.metamodel.entity? "Auction" = some x ∧ c.metamodel.entity? "SilentAuction" = some t ∧
    c.metamodel.entity? "DutchAuction" = some u ∧
    c.metamodel.subPart? (.entity t) "note" none = some part ∧
    c.metamodel.subPart? (.entity x) "note" (some t) = some part ∧
    c.metamodel.subPart? (.entity u) "note" none = none ∧
    c.metamodel.subPart? (.entity x) "note" (some u) = none := by
  let P := fun c : Catalog => (c.metamodel.entity? "Auction").any fun x =>
    (c.metamodel.entity? "SilentAuction").any fun t =>
      (c.metamodel.entity? "DutchAuction").any fun u =>
        c.metamodel.isSubtype t x && c.metamodel.isSubtype u x &&
          (c.metamodel.subPart? (.entity t) "note" none).isSome &&
          (c.metamodel.subPart? (.entity u) "note" none).isNone
  obtain ⟨c, hc, hP⟩ : ∃ c, ofDefinition notedAuctions = .ok c ∧ P c = true :=
    exists_ok_of_any (by decide +kernel)
  obtain ⟨x, hx, hP⟩ := (Option.any_eq_true _ _).1 hP
  obtain ⟨t, ht, hP⟩ := (Option.any_eq_true _ _).1 hP
  obtain ⟨u, hu, hP⟩ := (Option.any_eq_true _ _).1 hP
  simp only [Bool.and_eq_true, Option.isNone_iff_eq_none] at hP
  obtain ⟨⟨⟨hsub, hsub'⟩, hsome⟩, hnone⟩ := hP
  obtain ⟨part, hpart⟩ := Option.isSome_iff_exists.1 hsome
  have mem : ∀ {name y}, c.metamodel.entity? name = some y → y ∈ c.metamodel.entities := fun h =>
    List.mem_of_find?_eq_some h
  have hsilent := (subPart?_narrowed hc (mem hx) (mem ht) (n := "note") (by decide)).1 hsub
  have hdutch := (subPart?_narrowed hc (mem hx) (mem hu) (n := "note") (by decide)).1 hsub'
  exact ⟨c, x, t, u, part, hc, hx, ht, hu, hpart, hsilent.trans hpart, hnone, hdutch.trans hnone⟩

set_option maxRecDepth 100000 in
/-- An entity narrowed to one above it keeps what is stored with itself: a silent auction has its
note where it is narrowed to an auction of any sort. -/
theorem subPart?_narrowed_upwards : ∃ c x t z part, ofDefinition notedAuctions = .ok c ∧
    c.metamodel.entity? "SilentAuction" = some x ∧ c.metamodel.entity? "Auction" = some t ∧
    c.metamodel.isSubtype x t = true ∧ x ≠ t ∧
    x.declared? "note" = some z ∧ c.metamodel.partOf? z = some part ∧
    c.metamodel.subPart? (.entity x) "note" (some t) = some part := by
  let P := fun c : Catalog => (c.metamodel.entity? "SilentAuction").any fun x =>
    (c.metamodel.entity? "Auction").any fun t =>
      c.metamodel.isSubtype x t && decide (x ≠ t) && (x.declared? "note").any fun z =>
        (c.metamodel.partOf? z).any fun part =>
          decide (c.metamodel.subPart? (.entity x) "note" (some t) = some part)
  obtain ⟨c, hc, hP⟩ : ∃ c, ofDefinition notedAuctions = .ok c ∧ P c = true :=
    exists_ok_of_any (by decide +kernel)
  obtain ⟨x, hx, hP⟩ := (Option.any_eq_true _ _).1 hP
  obtain ⟨t, ht, hP⟩ := (Option.any_eq_true _ _).1 hP
  simp only [Bool.and_eq_true, decide_eq_true_eq] at hP
  obtain ⟨⟨hsub, hne⟩, hP⟩ := hP
  obtain ⟨z, hz, hP⟩ := (Option.any_eq_true _ _).1 hP
  obtain ⟨part, hpart, hP⟩ := (Option.any_eq_true _ _).1 hP
  exact ⟨c, x, t, z, part, hc, hx, ht, hsub, hne, hz, hpart, of_decide_eq_true hP⟩

end QueryPath.Catalog
