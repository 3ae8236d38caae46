import Mathlib.Order.Defs.Unbundled
import QueryPath.Proofs.Logical.Run

/-!
# Complete models

A draft that is made by calls can be completed exactly if no supertypes of a type come back to a
type that they have passed, and the names of the attributes along each chain of supertypes differ.
If it cannot, the error tells which of the two it is, and for which type; names that clash are
reported only where there are no circles.

In a complete model each chain is the whole walk along the supertypes and meets no type twice, to
be a subtype is a partial order, and the search for an attribute, which starts at the type itself,
agrees with the list of attributes, which starts at the other end.
-/

namespace QueryPath.Logical

namespace Draft

/-- Why a draft cannot be completed. -/
inductive Refuses (d : Draft) : Error → Prop
  | cycle {id} : id ∈ d.ids → Revisits d.supertypeOf? id →
      Refuses d (.supertypeCycle (d.nameOf id))
  | clash {id name} : (∀ id ∈ d.ids, ¬ Revisits d.supertypeOf? id) → id ∈ d.ids →
      List.Duplicate name ((d.attributesOf id).map (·.2.name)) →
      Refuses d (.duplicateAttribute (d.nameOf id) name)

/-- What can be relied on in a complete model. -/
structure Complete (d : Draft) : Prop where
  walk : ∀ id ∈ d.ids, Walk d.supertypeOf? id (d.chain id)
  nodup : ∀ id ∈ d.ids, (d.chain id).Nodup
  isPartialOrder : IsPartialOrder (Fin d.types.length) fun a b => d.isSubtype a b = true
  findAttribute? : ∀ id ∈ d.ids, ∀ n t a, d.findAttribute? id n = some (t, a) ↔
    (t, a) ∈ d.attributesOf id ∧ a.name = n
  unique : ∀ id ∈ d.ids, ((d.attributesOf id).map (·.2.name)).Nodup

section Coherent

variable {d : Draft} (valid : d.ValidSupertypes) (acyclic : Acyclic d.supertypeOf?)

include valid acyclic

/-- To be a subtype is a partial order on the types of a draft without circles. -/
theorem isPartialOrder_isSubtype :
    IsPartialOrder (Fin d.types.length) fun a b => d.isSubtype a b = true := by
  have leads : ∀ a b : Fin d.types.length, d.isSubtype a b = true ↔
      Relation.ReflTransGen (Leads d.supertypeOf?) a.1 b.1 :=
    fun a _ => isSubtype_iff valid acyclic a.2
  exact {
    refl := fun a => (leads a a).2 .refl
    trans := fun a b c hab hbc => (leads a c).2 (((leads a b).1 hab).trans ((leads b c).1 hbc))
    antisymm := fun a b hab hba =>
      Fin.ext (acyclic.antisymm ((leads a b).1 hab) ((leads b a).1 hba)) }

/-- Without circles and clashes there is all that can be relied on. -/
theorem complete (distinct : d.DistinctAttributes) : d.Complete where
  walk id hid := walk_chain valid acyclic (mem_ids.1 hid)
  nodup id hid := (walk_chain valid acyclic (mem_ids.1 hid)).nodup
  isPartialOrder := isPartialOrder_isSubtype valid acyclic
  findAttribute? id hid n t a := by
    rw [findAttribute?_eq_some valid acyclic distinct (mem_ids.1 hid), mem_attributesOf, and_assoc]
  unique id hid := nodup_attributesOf valid acyclic distinct (mem_ids.1 hid)

end Coherent

/-- A draft that is made by calls can be completed exactly if it has neither circles of supertypes
nor attributes that hide one another, and what is made of it can be relied on. -/
theorem build_made {d : Draft} (made : d.Made) :
    ((∃ m, d.build = .ok m) ↔
      (∀ id ∈ d.ids, ¬ Revisits d.supertypeOf? id) ∧ d.DistinctAttributes) ∧
    (∀ e, d.build = .error e → d.Refuses e) ∧
    ∀ m, d.build = .ok m → m.toDraft = d ∧ m.Complete := by
  have valid := made.coherent.validSupertypes
  obtain ⟨hok, herror⟩ := build_spec valid
  refine ⟨⟨?_, ?_⟩, fun e he => ?_, fun m hm => ?_⟩
  · rintro ⟨m, hm⟩
    obtain ⟨-, acyclic, distinct⟩ := hok m hm
    exact ⟨acyclic_iff.1 acyclic, distinct⟩
  · rintro ⟨acyclic, distinct⟩
    cases hb : d.build with
    | ok m => exact ⟨m, rfl⟩
    | error e =>
      rcases herror e hb with ⟨id, hid, hrevisits, -⟩ | ⟨acyclic', id, hid, name, hclash, -⟩
      · exact absurd hrevisits (acyclic id hid)
      · rw [(distinctAttributes_iff valid acyclic').1 distinct id hid] at hclash
        cases hclash
  · rcases herror e he with ⟨id, hid, hrevisits, rfl⟩ | ⟨acyclic, id, hid, name, hclash, rfl⟩
    · exact .cycle hid hrevisits
    · exact .clash (acyclic_iff.1 acyclic) hid (duplicate_of_clashAt? hclash)
  · obtain ⟨rfl, acyclic, distinct⟩ := hok m hm
    exact ⟨rfl, complete valid acyclic distinct⟩

/-- The draft of the auctions can be completed. -/
theorem build_auctionCalls : ∃ m : Model, (run {} auctionCalls).build = .ok m ∧ m.Complete := by
  obtain ⟨m, hm⟩ : ∃ m, (run {} auctionCalls).build = .ok m := ⟨_, rfl⟩
  have made : (run {} auctionCalls).Made := ⟨auctionCalls, by decide, rfl⟩
  exact ⟨m, hm, ((build_made made).2.2 m hm).2⟩

end Draft

end QueryPath.Logical
