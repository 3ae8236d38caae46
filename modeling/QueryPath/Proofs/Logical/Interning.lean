import QueryPath.Proofs.Logical.Registry

/-!
# The registry agrees with the model

The registry of a model that is made by calls fails exactly if a declared attribute refers to a
tuple, and then it names the attribute, or its index, and the tuple. Otherwise names lead from the
sources of managed types to what the model finds on their types, and nowhere else:

| the model finds             | the registry has                                         |
|:----------------------------|:---------------------------------------------------------|
| an attribute                | a source of its name and type, plural if it is           |
| one with basic values       | the kind of the values, and that of the column           |
| one that the type declares  | a source that refines none                               |
| one that it inherits        | a source that refines the one on the declaring type      |
| a plural one                | its elements, and its index if it has one                |

The sources were made in two rounds over the types, the declared ones first; here they are looked
up one by one, and the order in which types became known plays no part.
-/

namespace QueryPath.Logical

/-- Managed types have sources from which names lead to attributes. -/
def SourceKind.isManaged : SourceKind → Bool
  | embedded _ | entity _ | mappedSupertype _ => true
  | basic _ _ | any _ _ => false

/-- On the type `id`, the source stands for the attribute `x.2`, which the type `x.1` declares. -/
structure Registry.Member (r : Registry) (m : Model) (id : TypeId) (n : String)
    (x : TypeId × Attribute) (s : Source) : Prop where
  name : s.name = n
  type : s.type = x.2.type
  isPlural : s.isPlural = x.2.isPlural
  stored : ∀ k, m.typeAt? x.2.type = some (.basic k) → s.kind = .basic k (x.2.storedAs.getD k)
  own : x.1 = id → s.refines? = none
  inherited : x.1 ≠ id → ∃ y, s.refines? = some y ∧ y.refines? = none ∧
    ∀ d : Source, d.kind.isManaged = true → d.type = x.1 → r.member? d n = some y

/-- The sources of the parts of a collection are those of a plural attribute. -/
structure PluralSource.Parts (p : PluralSource) (a : Attribute) : Prop where
  nature : a.nature = .plural p.classification a.index?
  element : p.element.name = PartNature.element.name ∧ p.element.type = a.type
  index : Option.Rel (fun i s => s.name = PartNature.index.name ∧ s.type = i) a.index? p.index

theorem Registry.member?_eq (r : Registry) {s : Source} (hs : s.kind.isManaged = true)
    (name : String) : r.member? s name = (r.attribute? s name).map (·.source) := by
  unfold Registry.member?
  cases hk : s.kind with
  | basic | any =>
    rw [hk] at hs
    cases hs
  | embedded | entity | mappedSupertype => rfl

section Parts

variable {m : Model} {refines : Option Source} {a : Attribute} {s : AttributeSource}

theorem Model.plural_eq_none (h : m.attributeSource refines a = .ok s) (ha : a.isPlural = false) :
    s.plural = none := by
  obtain ⟨-, hplural⟩ := attributeSource_eq_ok.1 h
  cases hn : a.nature with
  | singular =>
    rw [hn] at hplural
    exact hplural
  | plural c index =>
    rw [Attribute.isPlural, hn] at ha
    cases ha

/-- A plural attribute has the parts of its collection. -/
theorem Model.exists_parts (h : m.attributeSource refines a = .ok s) (ha : a.isPlural = true) :
    ∃ p, s.plural = some p ∧ p.Parts a := by
  obtain ⟨-, hplural⟩ := attributeSource_eq_ok.1 h
  cases hn : a.nature with
  | singular =>
    rw [Attribute.isPlural, hn] at ha
    cases ha
  | plural c index =>
    rw [hn] at hplural
    obtain ⟨p, hp, hmade⟩ := hplural
    obtain ⟨-, rfl, helement, hindex, -⟩ := pluralSource_eq_ok.1 hmade
    have hindex? : a.index? = index := by rw [Attribute.index?, hn]
    obtain ⟨hname, htype, -⟩ := source_info helement
    refine ⟨p, hp, by rw [hn, hindex?], ⟨hname, htype⟩, ?_⟩
    rw [hindex?]
    generalize p.index = x at hindex
    cases index_rel hindex with
    | none => exact .none
    | some hx =>
      obtain ⟨hname, htype, -⟩ := source_info hx
      exact .some ⟨hname, htype⟩

end Parts

section Registry

variable {m : Model} (wf : m.WellFormed) {r : Registry} (hr : m.registry = .ok r)

include wf hr

/-- The source of an attribute on the type that declares it is found there. -/
theorem member?_of_declaring {owner : TypeId} {a : Attribute} (ha : a ∈ m.declaredBy owner)
    {y : AttributeSource} (hy : m.attributeSource none a = .ok y) {d : Source}
    (hd : d.kind.isManaged = true) (htype : d.type = owner) :
    r.member? d a.name = some y.source := by
  subst htype
  have hid := Draft.lt_of_mem_declaredBy ha
  have hself : d.type ∈ m.chain d.type := (wf.walk_chain hid).mem_iff.2 .refl
  have hfind := (wf.findAttribute?_eq_some hid).2 ⟨hself, ha, rfl⟩
  have hrel := attribute?_rel wf hr d a.name
  rw [hfind] at hrel
  rw [r.member?_eq hd]
  generalize r.attribute? d a.name = found at hrel
  cases hrel with
  | some hx =>
    rw [Model.memberSource, if_pos rfl, hy] at hx
    cases hx
    rfl

/-- The source of an attribute on a type is the one that a name should lead to. -/
theorem member_of_memberSource {id : TypeId} {n : String} {x : TypeId × Attribute}
    (hfind : m.findAttribute? id n = some x) {s : AttributeSource}
    (hs : m.memberSource id x = .ok s) : r.Member m id n x s.source := by
  have hid : id < m.types.length := by
    by_contra hge
    rw [Draft.findAttribute?_eq_none (Nat.not_lt.1 hge)] at hfind
    cases hfind
  obtain ⟨-, ha, hname⟩ := (wf.findAttribute?_eq_some hid).1 hfind
  obtain ⟨refines, hmade⟩ := Model.memberSource_eq_ok hs
  obtain ⟨kind, hkind, hsource⟩ := Model.source_eq_ok.1 (Model.attributeSource_eq_ok.1 hmade).1
  refine ⟨?_, ?_, ?_, fun k hk => ?_, fun hown => ?_, fun hinherited => ?_⟩
  · rw [Model.attributeSource_name hmade, hname]
  · rw [hsource, Source.type, Source.info_ofInfo]
  · rw [hsource, Source.isPlural, Source.bindable, Source.info_ofInfo]
    cases x.2.isPlural <;> rfl
  · rw [Model.HasKind, hk] at hkind
    rw [hsource, Source.kind, Source.info_ofInfo]
    exact (Option.some.inj hkind).symm
  · rw [Model.memberSource, if_pos hown] at hs
    obtain ⟨_, -, hs⟩ := Model.source_eq_ok.1 (Model.attributeSource_eq_ok.1 hs).1
    rw [hs, Source.refines?_ofInfo]
  · rw [Model.memberSource, if_neg hinherited] at hs
    obtain ⟨y, hy, hs⟩ := bind_eq_ok.1 hs
    obtain ⟨_, -, hs⟩ := Model.source_eq_ok.1 (Model.attributeSource_eq_ok.1 hs).1
    obtain ⟨_, -, hplain⟩ := Model.source_eq_ok.1 (Model.attributeSource_eq_ok.1 hy).1
    refine ⟨y.source, by rw [hs, Source.refines?_ofInfo], by rw [hplain, Source.refines?_ofInfo],
      fun d hd htype => ?_⟩
    rw [← hname]
    exact member?_of_declaring wf hr ha hy hd htype

end Registry

/-- The registry of a model fails exactly if a declared attribute refers to a tuple. Otherwise it
finds just what the model finds. -/
theorem registry_of_build {d : Draft} (made : d.Made) {m : Model} (hm : d.build = .ok m) :
    ((∃ e, m.registry = .error e) ↔ ∃ id, ∃ a ∈ m.declaredBy id, ∃ t ∈ a.refersTo, ∃ n cs,
      m.typeAt? t = some (.tuple n cs)) ∧
    (∀ e, m.registry = .error e → ∃ id, ∃ a ∈ m.declaredBy id, m.Rejects a e) ∧
    ∀ r, m.registry = .ok r → ∀ s : Source, s.kind.isManaged = true → ∀ n,
      Option.Rel (r.Member m s.type n) (m.findAttribute? s.type n) (r.member? s n) ∧
      Option.Rel (fun x p => p.Parts x.2)
        ((m.findAttribute? s.type n).filter (·.2.isPlural)) (r.plural? s n) := by
  have wf := Model.WellFormed.of_build made.coherent hm
  obtain ⟨hok, herror⟩ := Model.registry_spec wf.toCoherent
  refine ⟨⟨?_, ?_⟩, herror, fun r hr s hs n => ?_⟩
  · rintro ⟨e, he⟩
    obtain ⟨id, a, ha, hrejects⟩ := herror e he
    exact ⟨id, a, ha, Model.exists_rejects_iff.1 ⟨e, hrejects⟩⟩
  · rintro ⟨id, a, ha, htuple⟩
    obtain ⟨e, hrejects⟩ := Model.exists_rejects_iff.2 htuple
    cases hr : m.registry with
    | error e => exact ⟨e, rfl⟩
    | ok r => exact absurd hrejects (hok r hr id a ha e)
  · have hrel := attribute?_rel wf hr s n
    rw [r.member?_eq hs, Registry.plural?]
    cases hfind : m.findAttribute? s.type n with
    | none =>
      rw [hfind] at hrel
      generalize r.attribute? s n = found at hrel
      cases hrel with
      | none => exact ⟨.none, .none⟩
    | some x =>
      rw [hfind] at hrel
      generalize r.attribute? s n = found at hrel
      cases hrel with
      | some hx =>
        obtain ⟨refines, hmade⟩ := Model.memberSource_eq_ok hx
        refine ⟨.some (member_of_memberSource wf hr hfind hx), ?_⟩
        rw [Option.filter_some, Option.bind_some]
        split
        · rename_i ha
          obtain ⟨p, hp, hparts⟩ := Model.exists_parts hmade ha
          rw [hp]
          exact .some hparts
        · rename_i ha
          rw [Model.plural_eq_none hmade (Bool.eq_false_iff.2 ha)]
          exact .none

/-- Who made an auction is found on auctions, though it is declared above them. -/
theorem member_createdBy : ∃ (m : Model) (r : Registry) (s : Source) (x : TypeId × Attribute)
    (y : Source), m.registry = .ok r ∧ r.managed? "Auction" = some s ∧ x.1 ≠ s.type ∧
      m.findAttribute? s.type "createdBy" = some x ∧ r.member? s "createdBy" = some y ∧
      r.Member m s.type "createdBy" x y := by
  have made : (Draft.run {} Draft.auctionCalls).Made := ⟨Draft.auctionCalls, by decide, rfl⟩
  obtain ⟨m, r, s, x, y, hm, hr, hs, hmanaged, hx, hfind, hmember⟩ : ∃ (m : Model) (r : Registry)
      (s : Source) (x : TypeId × Attribute) (y : Source),
      (Draft.run {} Draft.auctionCalls).build = .ok m ∧ m.registry = .ok r ∧
      r.managed? "Auction" = some s ∧ s.kind.isManaged = true ∧ x.1 ≠ s.type ∧
      m.findAttribute? s.type "createdBy" = some x ∧ r.member? s "createdBy" = some y :=
    ⟨_, _, _, _, _, rfl, rfl, rfl, rfl, by decide, rfl, rfl⟩
  refine ⟨m, r, s, x, y, hr, hs, hx, hfind, hmember, ?_⟩
  have hrel := ((registry_of_build made hm).2.2 r hr s hmanaged "createdBy").1
  rw [hfind, hmember] at hrel
  cases hrel with
  | some h => exact h

end QueryPath.Logical
