import QueryPath.Catalog.Basic
import QueryPath.Proofs.Catalog.Layout
import QueryPath.Proofs.Catalog.Model

/-!
# Which definitions have a catalog

A definition has a catalog if its check accepts it, its supertypes have no cycles, and no attribute
hides another. Only the check and the domain model can refuse it: sources and descriptors are then
made without fault.

`Catalog.MadeFrom` collects what is known of a catalog and the checked definition that it was made
from.
-/

namespace QueryPath

open Definition (Checked Drafted LaidOut DistinctNames RawAttribute Attribute Identifier)

/-- The catalog was made from a checked definition, and uses of embeddables are at these places. -/
structure Catalog.MadeFrom (c : Catalog) (d : Definition Attribute) (uses : Definition.Uses) :
    Prop where
  checked : Checked d
  acyclic : Acyclic d.supertypeOf?
  distinct : DistinctNames d.outline
  drafted : Drafted d (d.declarations Identifier.attribute) c.logical.toDraft
  regular : c.logical.Regular
  registry : c.logical.registry = .ok c.registry
  laidOut :
    LaidOut d (d.entities.flatMap fun e => (d.storedWith e).map (e.name, ·)) c.metamodel uses

namespace Catalog

/-- A checked definition has a catalog if it has a domain model. -/
theorem ofChecked_spec {d : Definition Attribute} (checked : Checked d) :
    Ensures (ofChecked d) (fun c => ∃ uses, c.MadeFrom d uses)
      (fun e => ((∃ name, e = .logical (.supertypeCycle name)) ∨
        ∃ owner name, e = .logical (.duplicateAttribute owner name)) ∧
          ¬ (Acyclic d.supertypeOf? ∧ DistinctNames d.outline)) := by
  refine (Definition.logicalModel_spec checked).bind
    fun m ⟨⟨drafted, regular⟩, acyclic, distinct⟩ => ?_
  obtain ⟨r, hr⟩ := regular.exists_registry
  obtain ⟨p, uses, hp, laidOut⟩ := Definition.metamodel_spec checked acyclic distinct
  simp only [Except.mapError, bind, Except.bind, hr, hp]
  exact ensures_ok.2 ⟨uses, checked, acyclic, distinct, drafted, regular, hr, laidOut⟩

/-- What a definition has with a catalog that is made from it. -/
theorem exists_madeFrom {raw : Definition RawAttribute} {c : Catalog}
    (h : ofDefinition raw = .ok c) : ∃ d uses, raw.check = .ok d ∧
      d.outline = raw.map RawAttribute.name ∧ c.MadeFrom d uses := by
  obtain ⟨d, hd, hc⟩ := bind_eq_ok.1 h
  rw [mapError_eq_ok] at hd
  obtain ⟨checked, hout⟩ := Definition.checked_of_check hd
  obtain ⟨uses, made⟩ := (ofChecked_spec checked).1 c hc
  exact ⟨d, uses, hd, hout, made⟩

/-- Exactly those definitions have a catalog that pass the check, have no cycle of supertypes, and
whose attributes, the identifiers of entities included, have names of their own in each embeddable
and along each chain of supertypes. All others are refused by the check or for one of these two
reasons. After check and domain model nothing fails: sources are made, all tables, entities and
embeddables are found that the metamodel looks up, and attributes have the shapes that the check
gave them wherever they are stored. -/
theorem ofDefinition_accepts_iff (raw : Definition RawAttribute) :
    ((∃ c, ofDefinition raw = .ok c) ↔ (∃ d, raw.check = .ok d) ∧ Acyclic raw.supertypeOf? ∧
        DistinctNames (raw.map RawAttribute.name)) ∧
      (∀ e, ofDefinition raw = .error e →
        (∃ fault, raw.check = .error fault ∧ e = .invalid fault) ∨
        (∃ name, e = .logical (.supertypeCycle name)) ∨
        ∃ owner name, e = .logical (.duplicateAttribute owner name)) ∧
      (∀ d m, raw.check = .ok d → d.logicalModel = .ok m →
        (∃ r, m.registry = .ok r) ∧ ∃ p, d.metamodel = .ok p) ∧
      ∀ owner a b, raw.checkAttribute owner a = .ok b → ∀ place, a.shape place = .ok b.shape := by
  have hshape : ∀ owner a b, raw.checkAttribute owner a = .ok b →
      ∀ place, a.shape place = .ok b.shape := fun _ _ _ h =>
    RawAttribute.shape_at (Definition.shape_of_checkAttribute h)
  cases hd : raw.check with
  | error fault =>
    have herr : ofDefinition raw = .error (.invalid fault) := by
      rw [ofDefinition, hd]
      rfl
    refine ⟨⟨?_, ?_⟩, ?_, (fun d m h => by cases h), hshape⟩
    · rintro ⟨c, hc⟩
      rw [herr] at hc
      cases hc
    · rintro ⟨⟨d, hd⟩, -⟩
      cases hd
    · intro e he
      rw [herr] at he
      cases he
      exact .inl ⟨fault, rfl, rfl⟩
  | ok d =>
    obtain ⟨checked, hout⟩ := Definition.checked_of_check hd
    have hsuper : raw.supertypeOf? = d.supertypeOf? := by
      rw [← Definition.supertypeOf?_outline, hout, Definition.supertypeOf?_map]
    have heq : ofDefinition raw = ofChecked d := by
      rw [ofDefinition, hd]
      rfl
    rw [heq, ← hout, hsuper]
    have hspec := ofChecked_spec checked
    refine ⟨⟨?_, ?_⟩, ?_, fun d' m h hm => ?_, hshape⟩
    · rintro ⟨c, hc⟩
      obtain ⟨uses, made⟩ := hspec.1 c hc
      exact ⟨⟨d, rfl⟩, made.acyclic, made.distinct⟩
    · rintro ⟨-, hd⟩
      cases hc : ofChecked d with
      | ok c => exact ⟨c, rfl⟩
      | error e => exact absurd hd (hspec.2 e hc).2
    · intro e he
      exact .inr (hspec.2 e he).1
    · cases h
      obtain ⟨⟨-, regular⟩, acyclic, distinct⟩ := (Definition.logicalModel_spec checked).1 m hm
      obtain ⟨p, -, hp, -⟩ := Definition.metamodel_spec checked acyclic distinct
      exact ⟨regular.exists_registry, p, hp⟩

/-- An auction house: auctions record when they were made, and their bids stand in a list. -/
def auctionHouse : Definition RawAttribute where
  embeddables := [⟨"Money", [{ name := "amount", kind := some .decimal, column := some "amount" }]⟩]
  mappedSupertypes := [⟨"Audited", none,
    [{ name := "createdAt", kind := some .timestamp, column := some "created_at" }]⟩]
  entities := [
    { name := "Auction"
      table := some "auctions"
      supertype := some "Audited"
      identifier := some ⟨"id", .long, "auction_id"⟩
      attributes := [
        { name := "reserve", embedded := some "Money", columnStart := some "reserve_" },
        { name := "bids"
          plural := some {
            classification := .list
            keyColumn := "auction_id"
            element := { entity := some "Bid", column := some "bid_id" }
            index := some ⟨.integer, "position"⟩ } }] },
    { name := "Bid"
      table := some "bids"
      attributes := [{ name := "price", embedded := some "Money", columnStart := some "price_" }] }]

end Catalog

end QueryPath
