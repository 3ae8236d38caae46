import QueryPath.Proofs.Logical.Interning
import QueryPath.Proofs.Query.Bound
import QueryPath.Proofs.Query.Typing

/-!
# Narrowing to what is no entity

A path may be narrowed to any managed type. Resolution knows what to do where the type is an entity;
of any other type it takes the name and looks that up on the part of the base, as it does for a step
to an attribute. So such a path has no part, unless the base has an attribute which is called like
the type: then it has the part of this attribute (`resolve?_treat_eq_get`).
-/

namespace QueryPath

open QueryPath.Expr (IsIdentifier)
open Logical (Source)
open Physical (Metamodel Part PartValue)

/-- The groups before a path being sound, names are looked up on the part of its base. -/
theorem Resolver.SoundBefore.plain?_of_holder? {r : Resolver} {p b : Path} (h : r.SoundBefore p)
    (hb : p.base? = some b) {depth : Nat} {part : Part}
    (hpart : r.holder? b (fun _ => r.resolveAt b depth) = some part) :
    plain? r.metamodel b = some part := by
  unfold holder? at hpart
  cases ht : b.treatEntity? with
  | some entity =>
    rw [ht] at hpart
    exact (plain?_of_treatEntity? _ ht).trans hpart
  | none =>
    rw [ht] at hpart
    unfold container? at hpart
    cases hg : r.groupPart? b.navigable with
    | some x =>
      rw [hg] at hpart
      exact h b ((Path.mem_bases hb).2 (.inl rfl)) part (hg.trans hpart)
    | none =>
      rw [hg] at hpart
      rw [← unbounded?_eq_plain? (h.base hb)]
      exact unbounded?_of_resolveAt hpart

/-- Steps that are no parts of collections, and that narrow to no entity, look their names up. -/
theorem Resolver.resolve?_of_base (r : Resolver) {q b : Path} (hb : q.base? = some b)
    (hpart : q.isPart = false) (hentity : q.treatEntity? = none) :
    r.resolve? q = if r.maxDepth ≤ 0 then none
      else (r.holder? b fun _ => r.resolveAt b 1).bind (r.metamodel.subPart? · q.name none) := by
  cases q with
  | root | cteRoot => cases hb
  | part => cases hpart
  | treat b t =>
    cases hb
    have ht : t.entity? = none := hentity
    rw [resolve?, resolveAt]
    simp only [ht, member?_eq_bind]
    rfl
  | cteColumn | member =>
    cases hb
    rw [resolve?, resolveAt]
    simp only [member?_eq_bind]
    rfl

/-- Steps to attributes and columns look their names up. -/
theorem Path.base?_of_get {r : Logical.Registry} {p q : Path} {n : String}
    (h : p.get r n = .ok q) : q.base? = some p ∧ q.isPart = false ∧ q.treatEntity? = none := by
  obtain ⟨t, u, c, rfl, -, rfl⟩ | ⟨s, x, -, -, -, rfl⟩ := step_eq_ok h
  · exact ⟨rfl, rfl, rfl⟩
  · exact ⟨rfl, rfl, rfl⟩

/-! ## Names that lead nowhere -/

section Basic

variable {m : Metamodel} {s : Source} {n : String}

theorem Physical.PartValue.Stores.valuePart?_eq_none {v : PartValue} (h : v.Stores m s.kind)
    (hnav : s.kind.isNavigable = false) : m.valuePart? v n none = none := by
  generalize s.kind = kind at h hnav
  cases h with
  | basic => rfl
  | embedded | entity => cases hnav

/-- No name leads on from what stands for a basic value. -/
theorem Path.Matches.subPart?_eq_none {p : Path} {part : Part} (h : p.Matches m part)
    (hs : p.source? = some s) (hnav : s.kind.isNavigable = false)
    (hn : PartNature.ofName? n = none) : m.subPart? part n none = none := by
  cases h with
  | root hk | treat hk | entityPart hk =>
    cases hs
    rw [hk] at hnav
    cases hnav
  | singular hstores =>
    cases hs
    generalize s.kind = kind at hstores hnav
    cases hstores with
    | basic => rfl
    | embedded | entity | any => cases hnav
  | plural _ hstores _ =>
    cases hs
    rw [Metamodel.subPart?, hn]
    exact hstores.valuePart?_eq_none hnav
  | valuePart _ _ hstores =>
    cases hs
    exact hstores.valuePart?_eq_none hnav

end Basic

theorem Expr.IsIdentifier.ne_columnNames {n : String} (h : IsIdentifier n) :
    n ≠ discriminatorName ∧ n ≠ keyName := by
  constructor <;>
    · rintro rfl
      exact absurd h (by decide)

theorem Path.Matches.exists_source {m : Metamodel} {p : Path} {part : Part}
    (h : p.Matches m part) : ∃ s, p.source? = some s := by
  cases h <;> exact ⟨_, rfl⟩

/-- A name that leads to a part of a use of an embeddable is that of a mapping. -/
theorem Physical.Metamodel.exists_mapping_of_usagePart? {m : Metamodel} {u : Physical.Usage}
    {n : String} {y : Part} (h : m.usagePart? u n = some y) : ∃ x ∈ u.mappings, x.name = n := by
  obtain ⟨x, hx, -⟩ := Option.bind_eq_some_iff.1 h
  exact ⟨x, List.mem_of_find?_eq_some hx, by simpa using List.find?_some hx⟩

namespace Catalog.MadeFrom

variable {c : Catalog} {d : Definition Definition.Attribute} {uses : Definition.Uses}
  (made : c.MadeFrom d uses)

include made

/-- Where a name leads on from the part of a source, the source has an attribute of that name. -/
theorem exists_findAttribute? {s : Source} {stored : Option Kind}
    (hs : c.logical.HasKind s.type stored s.kind) {part : Part}
    (hpart : part.LeadsOn c.metamodel s.kind) (hmanaged : s.kind.isManaged = true) {n : String}
    (hn : IsIdentifier n) {y : Part} (hy : c.metamodel.subPart? part n none = some y) :
    ∃ x, c.logical.findAttribute? s.type n = some x := by
  generalize s.kind = kind at hs hpart hmanaged
  cases hpart with
  | entity he hsub =>
    obtain ⟨hfind, ⟨e, hmem, rfl⟩, -⟩ := made.exists_entity_of_hasKind hs
    rw [hsub _ hn.ofName?_eq_none] at hy
    have hrel := made.entityAttributes_rel hmem hfind he hn.ne_identifierName
    rw [hy] at hrel
    generalize c.logical.findAttribute? s.type n = found at hrel
    cases hrel with
    | some _ => exact ⟨_, rfl⟩
  | @embedded _ id u hu hemb hsub =>
    rw [hsub _ hn.ofName?_eq_none] at hy
    obtain ⟨x, hx, rfl⟩ := Metamodel.exists_mapping_of_usagePart? hy
    obtain ⟨e, he, hname, -, type, htype, hrel⟩ := made.usage_spec hu
    obtain ⟨a, ha, hxa, -⟩ := exists_mem_of_forall₂' hrel hx
    obtain ⟨as, ht⟩ := hs.embedded
    have hfind : c.logical.find? e.name = some s.type := by
      rw [hname, hemb]
      exact made.regular.named _ _ _ ht rfl
    rw [htype, Option.some.injEq] at hfind
    subst hfind
    have hid := Logical.Draft.lt_of_mem_declaredBy ha
    have hself : s.type ∈ c.logical.chain s.type :=
      (made.regular.walk_chain hid).mem_iff.2 .refl
    exact ⟨_, (made.regular.findAttribute?_eq_some hid).2 ⟨hself, ha, hxa.symm⟩⟩
  | any => cases hmanaged

/-- A name that leads on from the part of a source leads on from the source. -/
theorem exists_member? {s : Source} {stored : Option Kind}
    (hs : c.logical.HasKind s.type stored s.kind) {part : Part}
    (hpart : part.LeadsOn c.metamodel s.kind) {n : String} (hn : IsIdentifier n) {y : Part}
    (hy : c.metamodel.subPart? part n none = some y) : ∃ x, c.registry.member? s n = some x := by
  cases hmanaged : s.kind.isManaged with
  | true =>
    obtain ⟨z, hz⟩ := made.exists_findAttribute? hs hpart hmanaged hn hy
    obtain ⟨x, hx⟩ := Logical.exists_attribute? made.regular made.registry hz
    exact ⟨x.source, by rw [Logical.Registry.member?_eq _ hmanaged, hx, Option.map_some]⟩
  | false =>
    generalize hk : s.kind = kind at hs hpart hmanaged
    cases hpart with
    | entity | embedded => cases hmanaged
    | @any k₁ k₂ a _ _ hany =>
      subst hany
      obtain ⟨hdiscriminator, hkey⟩ := hn.ne_columnNames
      have hid : n = "id" := by
        by_contra hne
        simp [Metamodel.subPart?, hdiscriminator, hkey, hne] at hy
      obtain ⟨x, hx⟩ :=
        Logical.exists_anyPart? made.regular made.registry hs.any (.inr (.inr hid))
      refine ⟨x, ?_⟩
      rw [Logical.Registry.member?, hk]
      exact hx

/-- From the part of a path, a name leads to the part of the attribute of that name, or nowhere. -/
theorem subPart?_eq_bind (spellable : d.outline.Spellable) {p : Path}
    (hp : p.Over c.registry) {part : Part} (hmatches : p.Matches c.metamodel part) {s : Source}
    (hs : p.source? = some s) {n : String} (hn : IsIdentifier n) :
    c.metamodel.subPart? part n none =
      (if s.kind.isNavigable then c.registry.member? s n else none).bind fun x =>
        c.metamodel.subPart? part x.name none := by
  cases hnav : s.kind.isNavigable with
  | false =>
    rw [hmatches.subPart?_eq_none hs hnav hn.ofName?_eq_none]
    rfl
  | true =>
    obtain ⟨stored, hkind⟩ := hp.hasKind made.regular made.registry hs
    have hleads := hmatches.leadsOn hs hnav
    cases hx : c.registry.member? s n with
    | none =>
      cases hy : c.metamodel.subPart? part n none with
      | none => rfl
      | some y =>
        obtain ⟨x, hx'⟩ := made.exists_member? hkind hleads hn hy
        rw [hx] at hx'
        cases hx'
    | some x =>
      rcases made.member?_name spellable hx with ⟨rfl, -⟩ | ⟨⟨k₁, k₂, hk⟩, hany⟩
      · rfl
      · rw [hk] at hleads
        cases hleads with
        | any _ _ hpart =>
          subst hpart
          rw [if_pos rfl, Option.bind_some, Logical.anyPart?_name hany]
          split
          · rename_i hid
            rw [beq_iff_eq] at hid
            subst hid
            rfl
          · rfl

end Catalog.MadeFrom

namespace Catalog

open Definition (RawAttribute)

/-- A path that is narrowed to what is no entity has the part of the attribute of the base which is
called like the type, and none if there is no such attribute. -/
theorem resolve?_treat_eq_get {raw : Definition RawAttribute} {c : Catalog}
    (h : ofDefinition raw = .ok c) (spellable : (raw.map RawAttribute.name).Spellable) {p q : Path}
    (hp : p.Over c.registry)
    (htreat : ∀ b ∈ p :: p.bases, b.isTreat = true → b.treatEntity?.isSome = true)
    {typeName : String} (hq : p.treatAs c.registry typeName = .ok q)
    (hentity : q.treatEntity? = none) {r : Resolver} (hr : r.metamodel = c.metamodel)
    (sound : r.SoundBefore q) :
    r.resolve? q = (p.get c.registry typeName).toOption.bind r.resolve? := by
  obtain ⟨d, uses, -, hout, made⟩ := exists_madeFrom h
  rw [← hout] at spellable
  obtain ⟨t, ht, rfl⟩ := Path.treatAs_eq_ok hq
  obtain ⟨rfl, hn⟩ := made.isIdentifier_managed? spellable ht
  have hsteps : (p.get c.registry t.name).toOption.bind r.resolve? =
      (p.get c.registry t.name).toOption.bind fun m => if r.maxDepth ≤ 0 then none
        else (r.holder? p fun _ => r.resolveAt p 1).bind (r.metamodel.subPart? · m.name none) := by
    cases hget : p.get c.registry t.name with
    | error e => rfl
    | ok m =>
      obtain ⟨hb, hpart, hnone⟩ := Path.base?_of_get hget
      exact r.resolve?_of_base hb hpart hnone
  rw [hsteps, r.resolve?_of_base rfl rfl hentity]
  split
  · cases (p.get c.registry t.name).toOption <;> rfl
  · cases ho : r.holder? p fun _ => r.resolveAt p 1 with
    | none => cases (p.get c.registry t.name).toOption <;> rfl
    | some part =>
      have hplain := sound.plain?_of_holder? rfl ho
      rw [hr] at hplain
      have hmatches := made.plain?_spec spellable hp htreat
      rw [hplain] at hmatches
      obtain ⟨s, hs⟩ := hmatches.exists_source
      rw [hr, Option.bind_some, Path.get, Path.step_eq hs]
      refine (made.subPart?_eq_bind spellable hp hmatches hs hn).trans ?_
      split
      · cases c.registry.member? s t.name <;> rfl
      · rfl

set_option maxRecDepth 100000 in
/-- Auctions have no attribute which is called like the mapped supertype above them. -/
theorem resolve?_treat_audited : ∃ c p q, ofDefinition auctionHouse = .ok c ∧
    Path.ofEntity c.registry "Auction" (some "a") = .ok p ∧
    p.treatAs c.registry "Audited" = .ok q ∧ q.treatEntity? = none ∧
    Resolver.resolve? { metamodel := c.metamodel, groupPart? := Resolver.noGroups } q = none := by
  let P := fun c : Catalog => (Path.ofEntity c.registry "Auction" (some "a")).toOption.any fun p =>
    (p.treatAs c.registry "Audited").toOption.any fun q =>
      q.treatEntity?.isNone && (p.get c.registry "Audited").toOption.isNone
  obtain ⟨c, hc, hP⟩ : ∃ c, ofDefinition auctionHouse = .ok c ∧ P c = true :=
    exists_ok_of_any (by decide +kernel)
  obtain ⟨p, hp, hP⟩ := exists_ok_of_any hP
  obtain ⟨q, hq, hP⟩ := exists_ok_of_any hP
  simp only [Bool.and_eq_true, Option.isNone_iff_eq_none] at hP
  obtain ⟨s, hroot, rfl⟩ := Path.ofEntity_eq_ok hp
  have hget := resolve?_treat_eq_get
    (r := { metamodel := c.metamodel, groupPart? := Resolver.noGroups }) hc (by decide)
    (.root hroot) (by simp [Path.bases, Path.isTreat]) hq hP.1 rfl (.of_noGroups rfl)
  rw [hP.2] at hget
  exact ⟨c, _, q, hc, hp, hq, hP.1, hget⟩

/-- Auctions with the currency of their money, in an attribute which is called like a type. -/
def pricedAuctions : Definition RawAttribute where
  embeddables := [⟨"Money", [{ name := "amount", kind := some .decimal, column := some "amount" }]⟩]
  entities := [
    { name := "Auction"
      table := some "auctions"
      attributes := [{ name := "Money", kind := some .string, column := some "currency" }] }]

set_option maxRecDepth 100000 in
/-- Auctions that are narrowed to money have the part of their currency. -/
theorem resolve?_treat_money : ∃ c p q, ofDefinition pricedAuctions = .ok c ∧
    Path.ofEntity c.registry "Auction" (some "a") = .ok p ∧
    p.treatAs c.registry "Money" = .ok q ∧ q.treatEntity? = none ∧
    Resolver.resolve? { metamodel := c.metamodel, groupPart? := Resolver.noGroups } q =
      some (.column ⟨"Money", "auctions", "currency", .string⟩) := by
  let P := fun c : Catalog => (Path.ofEntity c.registry "Auction" (some "a")).toOption.any fun p =>
    (p.treatAs c.registry "Money").toOption.any fun q => q.treatEntity?.isNone &&
      decide (Resolver.resolve? { metamodel := c.metamodel, groupPart? := Resolver.noGroups } q =
        some (.column ⟨"Money", "auctions", "currency", .string⟩))
  obtain ⟨c, hc, hP⟩ : ∃ c, ofDefinition pricedAuctions = .ok c ∧ P c = true :=
    exists_ok_of_any (by decide +kernel)
  obtain ⟨p, hp, hP⟩ := exists_ok_of_any hP
  obtain ⟨q, hq, hP⟩ := exists_ok_of_any hP
  simp only [Bool.and_eq_true, Option.isNone_iff_eq_none, decide_eq_true_eq] at hP
  exact ⟨c, p, q, hc, hp, hq, hP.1, hP.2⟩

end Catalog

end QueryPath
