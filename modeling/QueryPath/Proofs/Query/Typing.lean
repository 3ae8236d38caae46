import QueryPath.Proofs.Catalog.Agreement
import QueryPath.Proofs.Catalog.Names
import QueryPath.Proofs.Query.Depth
import QueryPath.Proofs.Query.Scope

/-!
# Parts of paths

A path has a part, and the part is what the last source of the path stands for (`Path.Matches`).
Step by step, names lead on from the part of a path just as they do from its source
(`Matches.leadsOn`), whether the path stands for an entity itself, a reference to one, a collection
or one of its parts.

| path                       | part                                       |
|----------------------------|--------------------------------------------|
| root, narrowing, element   | the entity, if the source stands for one   |
| attribute with one value   | a part that stores values of its kind      |
| plural attribute           | a collection of the same classification    |
| part of a collection       | a part of that nature                      |
-/

namespace QueryPath

open QueryPath.Expr (IsIdentifier)
open Logical (Source SourceKind PluralSource)
open Physical (Metamodel Part PartValue)

/-- The part is what the last source of the path stands for. -/
inductive Path.Matches (p : Metamodel) : Path → Part → Prop
  | root {s v name e} : s.kind = .entity name → p.entity? name = some e →
      Matches p (.root s v) (.entity e)
  | treat {b t name e} : t.kind = .entity name → p.entity? name = some e →
      Matches p (.treat b t) (.entity e)
  | singular {b s v part} : part.Stores p s.kind → Matches p (.member b s none v) part
  | plural {b s pl v x} : x.classification = pl.classification → x.element.value.Stores p s.kind →
      (∀ nature source, pl.part? nature = some source →
        ∃ part, x.part? nature = some part ∧ part.nature = nature ∧
          part.value.Stores p source.kind) →
      Matches p (.member b s (some pl) v) (.plural x)
  | entityPart {b nature s name e} : s.kind = .entity name → p.entity? name = some e →
      Matches p (.part b nature s) (.entity e)
  | valuePart {b nature s x} : s.kind.entity? = none → x.nature = nature →
      x.value.Stores p s.kind → Matches p (.part b nature s) (.collection x)

/-! ## Leading on -/

namespace Physical

/-- Names lead on from the part as from what sources of the kind stand for. -/
inductive Part.LeadsOn (p : Metamodel) (part : Part) : SourceKind → Prop
  | entity {name e} : p.entity? name = some e →
      (∀ n, PartNature.ofName? n = none → p.subPart? part n none = p.entityPart? e n none) →
      LeadsOn p part (.entity name)
  | embedded {name id u} : p.usage? id = some u → u.embeddable = name →
      (∀ n, PartNature.ofName? n = none → p.subPart? part n none = p.usagePart? u n) →
      LeadsOn p part (.embedded name)
  | any {discriminator key x} : x.discriminator.kind = discriminator → x.key.kind = key →
      part = .any x → LeadsOn p part (.any discriminator key)

variable {p : Metamodel} {part : Part} {kind : SourceKind}

theorem Part.LeadsOn.of_entity {name : String} {e : Entity} (he : p.entity? name = some e) :
    (Part.entity e).LeadsOn p (.entity name) :=
  .entity he fun _ _ => rfl

theorem Part.Stores.leadsOn (h : part.Stores p kind) (hnav : kind.isNavigable = true) :
    part.LeadsOn p kind := by
  cases h with
  | basic => cases hnav
  | embedded hu hname => exact .embedded hu hname fun _ _ => rfl
  | entity htarget he =>
    refine .entity he fun n _ => ?_
    rw [Metamodel.subPart?, htarget, he, Option.bind_some]
  | any hd hk => exact .any hd hk rfl

/-- A part on which names are looked up in a value. -/
theorem PartValue.Stores.leadsOn {v : PartValue} (h : v.Stores p kind)
    (hnav : kind.isNavigable = true)
    (hpart : ∀ n, PartNature.ofName? n = none → p.subPart? part n none = p.valuePart? v n none) :
    part.LeadsOn p kind := by
  cases h with
  | basic => cases hnav
  | embedded hu hname =>
    refine .embedded hu hname fun n hn => ?_
    rw [hpart n hn, Metamodel.valuePart?, hu, Option.bind_some]
  | entity he =>
    refine .entity he fun n hn => ?_
    rw [hpart n hn, Metamodel.valuePart?, he, Option.bind_some]

end Physical

theorem Path.Matches.leadsOn {p : Metamodel} {path : Path} {part : Part}
    (h : path.Matches p part) {s : Source} (hs : path.source? = some s)
    (hnav : s.kind.isNavigable = true) : part.LeadsOn p s.kind := by
  cases h with
  | root hk he | treat hk he | entityPart hk he =>
    cases hs
    rw [hk]
    exact .of_entity he
  | singular h =>
    cases hs
    exact h.leadsOn hnav
  | plural _ h _ =>
    cases hs
    apply h.leadsOn hnav
    intro n hn
    rw [Metamodel.subPart?, hn]
  | valuePart _ _ h =>
    cases hs
    exact h.leadsOn hnav fun n _ => rfl

/-- A part of a collection counts as an entity if it holds one. -/
theorem exists_collapse? {r : Resolver} {x : Physical.CollectionPart} {s : Source}
    (h : x.value.Stores r.metamodel s.kind) (b : Path) :
    ∃ part, r.collapse? (.collection x) = some part ∧
      Path.Matches r.metamodel (.part b x.nature s) part := by
  rw [Resolver.collapse?, Physical.CollectionPart.entity?]
  generalize hk : s.kind = kind at h
  generalize hv : x.value = v at h
  have hnone : s.kind.entity? = none →
      Path.Matches r.metamodel (.part b x.nature s) (.collection x) :=
    fun hnone => .valuePart hnone rfl (by rwa [hk, hv])
  cases h with
  | basic h => exact ⟨_, rfl, hnone (by rw [hk]; rfl)⟩
  | embedded hu hname => exact ⟨_, rfl, hnone (by rw [hk]; rfl)⟩
  | entity he => exact ⟨_, congrArg (Option.map _) he, .entityPart hk he⟩

/-! ## Attributes -/

section Attributes

variable {m : Logical.Model} {p : Metamodel} {part : Part}

theorem Logical.Model.HasKind.unique {type : Logical.TypeId} {stored : Option Kind}
    {k₁ k₂ : SourceKind} (h₁ : m.HasKind type stored k₁) (h₂ : m.HasKind type stored k₂) :
    k₁ = k₂ :=
  Option.some.inj (h₁.symm.trans h₂)

/-- A part that corresponds to an attribute is what the source of the attribute stands for. -/
theorem Corresponds.matches {a : Logical.Attribute} (h : Corresponds m p a part)
    {refines : Option Source} {x : Logical.AttributeSource}
    (hx : m.attributeSource refines a = .ok x) (b : Path) (v : Option String) :
    Path.Matches p (.member b x.source x.plural v) part := by
  obtain ⟨hsource, hplural⟩ := Logical.Model.attributeSource_eq_ok.1 hx
  obtain ⟨-, -, hkind, -⟩ := Logical.Model.source_info hsource
  cases h with
  | singular hn hk hstores =>
    rw [hn] at hplural
    rw [show x.plural = none from hplural]
    exact .singular (hkind.unique hk ▸ hstores)
  | @plural c index kind collection hn hc hk hnature helement hindex hid =>
    rw [hn] at hplural
    obtain ⟨pl, hpl, hmade⟩ := hplural
    obtain ⟨-, hclass, hel, hix, hidentifier⟩ := Logical.Model.pluralSource_eq_ok.1 hmade
    rw [hpl]
    refine .plural (hc.trans hclass.symm) (hkind.unique hk ▸ helement) fun nature source hs => ?_
    cases nature with
    | element =>
      cases hs
      obtain ⟨-, -, hk', -⟩ := Logical.Model.source_info hel
      exact ⟨_, rfl, hnature, hk'.unique hk ▸ helement⟩
    | index =>
      rw [show pl.index = some source from hs] at hix
      obtain ⟨i, rfl, hi⟩ := Logical.Model.index_eq_ok hix
      obtain ⟨-, -, hk', -⟩ := Logical.Model.source_info hi
      change Option.Rel _ (some i) (collection.part? .index) at hindex
      generalize collection.part? .index = y at hindex
      cases hindex with
      | some h =>
        obtain ⟨hn, k, hk, hstores⟩ := h
        exact ⟨_, rfl, hn, hk'.unique hk ▸ hstores⟩
    | identifier =>
      rw [show pl.identifier = some source from hs] at hidentifier
      obtain ⟨hhas, id, hfind, hi⟩ := Logical.Model.identifierSource_eq_ok hidentifier
      obtain ⟨-, -, hk', -⟩ := Logical.Model.source_info hi
      obtain ⟨y, hy, hn, hstores⟩ := hid hhas
      exact ⟨y, hy, hn, hk'.unique (Catalog.MadeFrom.hasKind_basic hfind none) ▸ hstores⟩

end Attributes

/-! ## Steps -/

namespace Catalog.MadeFrom

variable {c : Catalog} {d : Definition Definition.Attribute} {uses : Definition.Uses}
  (made : c.MadeFrom d uses)

include made

/-- A source that stands for an entity stands for one that has a descriptor. -/
theorem exists_entity_of_hasKind {type : Logical.TypeId} {stored : Option Kind} {name : String}
    (h : c.logical.HasKind type stored (.entity name)) :
    c.logical.find? name = some type ∧ (∃ e ∈ d.entities, e.name = name) ∧
      ∃ x, c.metamodel.entity? name = some x := by
  obtain ⟨as, s, b, ht⟩ := h.entity
  obtain ⟨hid, he⟩ := made.exists_entity_of_typeAt? ht
  exact ⟨hid, he, made.exists_entity.2 he⟩

theorem exists_entity_of_managed? {name : String} {t : Source}
    (h : c.registry.managed? name = some t) {entity : String} (ht : t.kind = .entity entity) :
    ∃ x, c.metamodel.entity? entity = some x :=
  (made.exists_entity_of_hasKind
    (ht ▸ Path.hasKind_of_managed? made.regular made.registry h)).2.2

/-- From the part of a path, the name of an attribute leads to what the attribute holds. -/
theorem exists_subPart?_of_attribute {s : Source} {stored : Option Kind}
    (hs : c.logical.HasKind s.type stored s.kind) {part : Part}
    (hpart : part.LeadsOn c.metamodel s.kind) {n : String} (hn : IsIdentifier n)
    {x : Logical.AttributeSource} (hx : c.registry.attribute? s n = some x) (b : Path)
    (v : Option String) : ∃ y, c.metamodel.subPart? part n none = some y ∧
      Path.Matches c.metamodel (.member b x.source x.plural v) y := by
  obtain ⟨a, ha, rfl, refines, hsource⟩ :=
    Logical.attribute?_eq_some made.regular made.registry hx
  generalize s.kind = kind at hs hpart
  cases hpart with
  | entity he hsub =>
    obtain ⟨hfind, ⟨e, hmem, rfl⟩, -⟩ := made.exists_entity_of_hasKind hs
    obtain ⟨y, hy, hcor⟩ := made.exists_entityPart? hmem hfind he ha hn.ne_identifierName
    exact ⟨y, (hsub _ hn.ofName?_eq_none).trans hy, hcor.matches hsource b v⟩
  | embedded hu hemb hsub =>
    obtain ⟨as, ht⟩ := hs.embedded
    have hfind := made.regular.named _ _ _ ht rfl
    have htop : c.logical.supertypeOf? s.type = none := by
      rw [Logical.Draft.supertypeOf?, ht]
      rfl
    obtain ⟨hchain, ha⟩ := Logical.Draft.mem_attributesOf.1 ha
    rw [Logical.Draft.eq_of_mem_chain htop hchain] at ha
    obtain ⟨y, hy, hcor⟩ := made.exists_usagePart? hu (hemb ▸ hfind) ha
    exact ⟨y, (hsub _ hn.ofName?_eq_none).trans hy, hcor.matches hsource b v⟩
  | any =>
    rw [Logical.attribute?_any made.regular made.registry hs.any] at hx
    cases hx

/-- From an association to any entity, the names of its columns lead to these columns. -/
theorem exists_subPart?_of_anyPart {s x : Source} {stored : Option Kind} {k₁ k₂ : Kind}
    (hs : c.logical.HasKind s.type stored (.any k₁ k₂)) {part : Part}
    (hpart : part.LeadsOn c.metamodel (.any k₁ k₂)) {n : String}
    (hx : c.registry.anyPart? s n = some x) (b : Path) (v : Option String) :
    ∃ y, c.metamodel.subPart? part x.name none = some y ∧
      Path.Matches c.metamodel (.member b x none v) y := by
  cases hpart with
  | any hdiscriminator hkey hpart =>
    subst hpart
    rcases Logical.anyPart?_eq_some made.regular made.registry hs.any hx with
      ⟨-, hx⟩ | ⟨-, hx⟩
    · obtain ⟨id, -, rfl⟩ := Logical.Model.anyPart_eq_ok.1 hx
      exact ⟨_, rfl, .singular (.basic hdiscriminator)⟩
    · obtain ⟨id, -, rfl⟩ := Logical.Model.anyPart_eq_ok.1 hx
      exact ⟨_, rfl, .singular (.basic hkey)⟩

/-- From the part of a path, the name of a source leads to what that source stands for. -/
theorem exists_subPart? (spellable : d.outline.Spellable) {s x : Source} {stored : Option Kind}
    (hs : c.logical.HasKind s.type stored s.kind) {part : Part}
    (hpart : part.LeadsOn c.metamodel s.kind) {n : String}
    (hx : c.registry.member? s n = some x) (b : Path) (v : Option String) :
    ∃ y, c.metamodel.subPart? part x.name none = some y ∧
      Path.Matches c.metamodel (.member b x (c.registry.plural? s n) v) y := by
  rcases made.member?_name spellable hx with ⟨rfl, hn, z, hz, rfl⟩ | ⟨⟨k₁, k₂, hk⟩, hany⟩
  · have hplural : c.registry.plural? s z.source.name = z.plural := by
      rw [Logical.Registry.plural?, hz, Option.bind_some]
    rw [hplural]
    exact made.exists_subPart?_of_attribute hs hpart hn hz b v
  · rw [hk] at hs hpart
    have hplural : c.registry.plural? s n = none := by
      rw [Logical.Registry.plural?, Logical.attribute?_any made.regular made.registry hs.any,
        Option.bind_none]
    rw [hplural]
    exact made.exists_subPart?_of_anyPart hs hpart hany b v

omit made in
/-- From a collection, the nature of a part leads to what that part holds. -/
theorem exists_plain?_of_plural {b : Path} {s x : Source} {pl : PluralSource} {v : Option String}
    {part : Part} (hpart : Resolver.plain? c.metamodel (.member b s (some pl) v) = some part)
    (hmatches : Path.Matches c.metamodel (.member b s (some pl) v) part) {nature : PartNature}
    (hx : pl.part? nature = some x) :
    ∃ y, Resolver.plain? c.metamodel (.part (.member b s (some pl) v) nature x) = some y ∧
      Path.Matches c.metamodel (.part (.member b s (some pl) v) nature x) y := by
  cases hmatches with
  | @plural _ _ _ _ collection _ _ hparts =>
    obtain ⟨z, hz, rfl, hstores⟩ := hparts nature x hx
    have hsub : c.metamodel.subPart? (.plural collection) z.nature.name none =
        some (.collection z) := by
      rw [Metamodel.subPart?, PartNature.ofName?_name]
      exact congrArg (Option.map _) hz
    let r : Resolver := { metamodel := c.metamodel, groupPart? := Resolver.noGroups }
    rw [Resolver.plain?_part _ r rfl, hpart, Option.bind_some, hsub, Option.bind_some]
    exact exists_collapse? (r := r) hstores _

/-- The part of a path that is narrowed to nothing but entities matches it, and only a path that
starts at a common table expression can be without a part. -/
theorem plain?_spec (spellable : d.outline.Spellable) {p : Path} (hp : p.Over c.registry)
    (htreat : ∀ q ∈ p :: p.bases, q.isTreat = true → q.treatEntity?.isSome) :
    match Resolver.plain? c.metamodel p with
    | some part => p.Matches c.metamodel part
    | none => p.startsAtCte = true := by
  induction hp with
  | root h =>
    obtain ⟨hmanaged, hentity⟩ := Logical.root_eq_ok h
    obtain ⟨entity, hentity⟩ := Option.isSome_iff_exists.1 hentity
    have hk := SourceKind.entity?_eq_some.1 hentity
    obtain ⟨x, hx⟩ := made.exists_entity_of_managed? hmanaged hk
    rw [Resolver.plain?_root, hentity, Option.bind_some, hx, Option.map_some]
    exact .root hk hx
  | cteRoot | cteColumn => rfl
  | treat _ ht =>
    obtain ⟨entity, hentity⟩ := Option.isSome_iff_exists.1 (htreat _ List.mem_cons_self rfl)
    have hk := SourceKind.entity?_eq_some.1 hentity
    obtain ⟨x, hx⟩ := made.exists_entity_of_managed? ht hk
    rw [Resolver.plain?_treat_entity _ hentity, hx, Option.map_some]
    exact .treat hk hx
  | @member b s name x pl v hb hs hnav hx hpl ih =>
    have hspec := ih fun q hq => htreat q (List.mem_cons_of_mem _ hq)
    rw [Resolver.plain?_member]
    cases hpart : Resolver.plain? c.metamodel b with
    | none =>
      rw [hpart] at hspec
      exact hspec
    | some part =>
      rw [hpart] at hspec
      obtain ⟨stored, hkind⟩ := hb.hasKind made.regular made.registry hs
      obtain ⟨y, hy, hmatches⟩ :=
        made.exists_subPart? spellable hkind (hspec.leadsOn hs hnav) hx b v
      rw [Option.bind_some, hy]
      exact hpl ▸ hmatches
  | @part b s pl v nature x _ hx ih =>
    have hspec := ih fun q hq => htreat q (List.mem_cons_of_mem _ hq)
    cases hpart : Resolver.plain? c.metamodel (.member b s (some pl) v) with
    | none =>
      rw [hpart] at hspec
      let r : Resolver := { metamodel := c.metamodel, groupPart? := Resolver.noGroups }
      rw [Resolver.plain?_part _ r rfl, hpart]
      exact hspec
    | some part =>
      rw [hpart] at hspec
      obtain ⟨y, hy, hmatches⟩ := exists_plain?_of_plural hpart hspec hx
      rw [hy]
      exact hmatches

/-- A path has a part that matches it, if it starts at an entity and is narrowed to nothing but
entities. -/
theorem exists_matches (spellable : d.outline.Spellable) {p : Path} (hp : p.Over c.registry)
    (hroot : p.startsAtCte = false)
    (htreat : ∀ q ∈ p :: p.bases, q.isTreat = true → q.treatEntity?.isSome) :
    ∃ part, Resolver.plain? c.metamodel p = some part ∧ p.Matches c.metamodel part := by
  have hspec := made.plain?_spec spellable hp htreat
  cases hpart : Resolver.plain? c.metamodel p with
  | some part =>
    rw [hpart] at hspec
    exact ⟨part, rfl, hspec⟩
  | none =>
    rw [hpart] at hspec
    rw [hspec] at hroot
    cases hroot

end Catalog.MadeFrom

/-! ## Paths of a query -/

namespace Catalog

open Definition (RawAttribute)

/-- Resolution is total and goes along with types: whatever path an expression of a query stands
for, it has a part that is what its last source stands for, if it starts at an entity, is narrowed
to entities alone and is no longer than resolution may go. -/
theorem exists_part_of_bind {raw : Definition RawAttribute} {c : Catalog}
    (h : ofDefinition raw = .ok c) (spellable : (raw.map RawAttribute.name).Spellable)
    {declarations : List Declaration} {e : Expr} {p : Path}
    (hbind : (Scope.run { registry := c.registry } declarations).bind e = .ok p)
    (hroot : p.startsAtCte = false)
    (htreat : ∀ q ∈ p :: p.bases, q.isTreat = true → q.treatEntity?.isSome = true)
    {r : Resolver} (hr : r.metamodel = c.metamodel) (hgroups : r.groupPart? = Resolver.noGroups)
    (hdepth : p.nodes ≤ r.maxDepth) :
    ∃ part, r.resolve? p = some part ∧ p.Matches c.metamodel part := by
  obtain ⟨d, uses, -, hout, made⟩ := exists_madeFrom h
  have known := (Scope.reaches_of_bind hbind).known (Scope.sound_run c.registry declarations)
  have isOver := known.isOver
  rw [Scope.registry_run] at isOver
  obtain ⟨part, hpart, hmatches⟩ := made.exists_matches (hout ▸ spellable) isOver hroot htreat
  refine ⟨part, ?_, hmatches⟩
  rw [Resolver.resolve?_eq_plain? hgroups hdepth, hr, hpart]

set_option maxRecDepth 100000 in
theorem exists_part_of_amountOfBid : ∃ c p part, ofDefinition auctionHouse = .ok c ∧
    (Scope.run { registry := c.registry } Scope.auctionVariables).bind Scope.amountOfBid = .ok p ∧
    Resolver.resolve? { metamodel := c.metamodel, groupPart? := Resolver.noGroups, maxDepth := 6 } p
      = some part ∧ p.Matches c.metamodel part := by
  let P := fun p : Path => !p.startsAtCte && decide (p.nodes ≤ 6) &&
    decide (∀ q ∈ p :: p.bases, q.isTreat = true → q.treatEntity?.isSome = true)
  obtain ⟨c, hc, hp⟩ : ∃ c, ofDefinition auctionHouse = .ok c ∧
      (((Scope.run { registry := c.registry } Scope.auctionVariables).bind
        Scope.amountOfBid).toOption.any P) = true := exists_ok_of_any (by decide +kernel)
  obtain ⟨p, hp, hcond⟩ := exists_ok_of_any hp
  simp only [P, Bool.and_eq_true, Bool.not_eq_true', decide_eq_true_eq] at hcond
  obtain ⟨⟨hroot, hdepth⟩, htreat⟩ := hcond
  let r : Resolver :=
    { metamodel := c.metamodel, groupPart? := Resolver.noGroups, maxDepth := 6 }
  obtain ⟨part, hpart, hmatches⟩ :=
    exists_part_of_bind (r := r) hc (by decide) hp hroot htreat rfl rfl hdepth
  exact ⟨c, p, part, hc, hp, hpart, hmatches⟩

end Catalog

end QueryPath
