import QueryPath.Logical.Registry
import QueryPath.Proofs.Logical.Run

/-!
# The registry of a model

The registry of a model can be made unless an attribute refers to a tuple (`registry_spec`). It
describes each type at its position (`describe_of_registry`): the sources of attributes stand in
the order of `attributesOf`, and each is the one that the attribute has on that type
(`Model.memberSource`). So what the registry finds under a name is the source of what the model
finds (`attribute?_rel`).

A model that is made from a definition has no tuples and no two types of one name; it is regular.
-/

namespace QueryPath.Logical

namespace Model

/-- What a model has once it is made from a draft: all that it refers to, supertypes without
circles, and no attribute that hides another. -/
structure WellFormed (m : Model) : Prop extends m.Coherent where
  acyclic : Acyclic m.supertypeOf?
  distinct : m.DistinctAttributes

theorem WellFormed.of_build {d : Draft} (coherent : d.Coherent) {m : Model}
    (hm : d.build = .ok m) : m.WellFormed := by
  obtain ⟨rfl, acyclic, distinct⟩ := (Draft.build_spec coherent.validSupertypes).1 m hm
  exact ⟨coherent, acyclic, distinct⟩

section WellFormed

variable {m : Model} (wf : m.WellFormed) {id : TypeId} (hid : id < m.types.length)

include wf hid

theorem WellFormed.walk_chain : Walk m.supertypeOf? id (m.chain id) :=
  Draft.walk_chain wf.validSupertypes wf.acyclic hid

theorem WellFormed.findAttribute?_eq_some {n : String} {t : TypeId} {a : Attribute} :
    m.findAttribute? id n = some (t, a) ↔ t ∈ m.chain id ∧ a ∈ m.declaredBy t ∧ a.name = n :=
  Draft.findAttribute?_eq_some wf.validSupertypes wf.acyclic wf.distinct hid

end WellFormed

/-- What a model has once it is made from a definition: names that stand for one type each, and a
source kind for each type. -/
structure Regular (m : Model) : Prop extends m.WellFormed where
  named : ∀ id t n, m.typeAt? id = some t → t.declaredName? = some n → m.find? n = some id
  hasKind : ∀ t ∈ m.types, ∀ storedAs, (t.sourceKind? storedAs).isSome

/-- The kind of the sources of a type. -/
def HasKind (m : Model) (type : TypeId) (storedAs : Option Kind) (kind : SourceKind) : Prop :=
  (m.typeAt? type).bind (·.sourceKind? storedAs) = some kind

end Model

theorem SourceKind.entity?_eq_some {k : SourceKind} {n : String} :
    k.entity? = some n ↔ k = .entity n := by
  cases k <;> simp [SourceKind.entity?]

namespace Model

namespace HasKind

variable {m : Model} {type : TypeId} {storedAs : Option Kind}

theorem typeAt? {kind : SourceKind} (h : m.HasKind type storedAs kind) :
    ∃ t, m.typeAt? type = some t ∧ t.sourceKind? storedAs = some kind :=
  Option.bind_eq_some_iff.1 h

theorem entity {n : String} (h : m.HasKind type storedAs (.entity n)) :
    ∃ as s b, m.typeAt? type = some (.entity n as s b) := by
  obtain ⟨t, ht, hk⟩ := h.typeAt?
  cases t <;> cases hk
  exact ⟨_, _, _, ht⟩

theorem embedded {n : String} (h : m.HasKind type storedAs (.embedded n)) :
    ∃ as, m.typeAt? type = some (.embeddable n as) := by
  obtain ⟨t, ht, hk⟩ := h.typeAt?
  cases t <;> cases hk
  exact ⟨_, ht⟩

theorem any {x y : Kind} (h : m.HasKind type storedAs (.any x y)) :
    m.typeAt? type = some (.any x y) := by
  obtain ⟨t, ht, hk⟩ := h.typeAt?
  cases t <;> cases hk
  exact ht

end HasKind

/-! ## Single sources -/

section Sources

variable {m : Model} {name : String} {refines : Option Source} {type : TypeId}
  {storedAs : Option Kind} {bindable : Bindable} {isGeneric : Bool} {s : Source}

theorem source_eq_ok : m.source name refines type storedAs bindable isGeneric = .ok s ↔
    ∃ kind, m.HasKind type storedAs kind ∧
      s = .ofInfo refines ⟨name, type, kind, bindable, isGeneric⟩ := by
  unfold source HasKind
  cases (m.typeAt? type).bind (·.sourceKind? storedAs) <;> simp [eq_comm]

/-- What a source says of the type that it was made for. -/
theorem source_info (h : m.source name refines type storedAs bindable isGeneric = .ok s) :
    s.name = name ∧ s.type = type ∧ m.HasKind type storedAs s.kind ∧ s.bindable = bindable := by
  obtain ⟨kind, hk, rfl⟩ := source_eq_ok.1 h
  simp [Source.name, Source.type, Source.kind, Source.bindable, hk]

/-- There is a source for each type of the model but tuples. -/
theorem source_spec (ht : type < m.types.length) :
    Ensures (m.source name refines type storedAs bindable isGeneric)
      (fun _ => ∀ n cs, m.typeAt? type ≠ some (.tuple n cs))
      (fun e => ∃ n cs, m.typeAt? type = some (.tuple n cs) ∧ e = .unrecognizedType name n) := by
  obtain ⟨t, ht⟩ : ∃ t, m.typeAt? type = some t := ⟨_, List.getElem?_eq_getElem ht⟩
  simp only [source, Draft.nameOf, ht]
  cases t with
  | tuple n cs => exact ensures_error.2 ⟨n, cs, rfl, rfl⟩
  | basic | any | embeddable | entity | mappedSupertype =>
    exact ensures_ok.2 fun n cs h => by cases h

theorem exists_source {t : DomainType} (ht : m.typeAt? type = some t)
    (hkind : (t.sourceKind? storedAs).isSome) (name : String) (refines : Option Source)
    (bindable : Bindable) (isGeneric : Bool) :
    ∃ s, m.source name refines type storedAs bindable isGeneric = .ok s := by
  obtain ⟨kind, hkind⟩ := Option.isSome_iff_exists.1 hkind
  refine ⟨_, source_eq_ok.2 ⟨kind, ?_, rfl⟩⟩
  rw [HasKind, ht, Option.bind_some, hkind]

theorem pluralSource_eq_ok {a : Attribute} {c : Classification} {index : Option TypeId}
    {p : PluralSource} : m.pluralSource a s c index = .ok p ↔
      p.plural = s ∧ p.classification = c ∧
      m.source PartNature.element.name none a.type a.storedAs .singular a.isGeneric
        = .ok p.element ∧
      (index.mapM fun i => m.source PartNature.index.name none i none .singular a.isGeneric)
        = .ok p.index ∧
      m.identifierSource c = .ok p.identifier := by
  unfold pluralSource
  simp only [bind_eq_ok]
  constructor
  · rintro ⟨e, he, i, hi, id, hid, h⟩
    cases h
    exact ⟨rfl, rfl, he, hi, hid⟩
  · rintro ⟨rfl, rfl, he, hi, hid⟩
    exact ⟨_, he, _, hi, _, hid, rfl⟩

/-- There is a source of an index if there is a type of it, and it is made for that type. -/
theorem index_rel {index : Option TypeId} {x : Option Source}
    (h : (index.mapM fun i => m.source name none i none bindable isGeneric) = .ok x) :
    Option.Rel (fun i s => m.source name none i none bindable isGeneric = .ok s) index x := by
  cases index with
  | none =>
    cases h
    exact .none
  | some i =>
    rw [Option.mapM_some] at h
    obtain ⟨s, hs, h⟩ := map_eq_ok.1 h
    cases h
    exact .some hs

/-- The source of an index is made for its type. -/
theorem index_eq_ok {index : Option TypeId} {x : Source}
    (h : (index.mapM fun i => m.source name none i none bindable isGeneric) = .ok (some x)) :
    ∃ i, index = some i ∧ m.source name none i none bindable isGeneric = .ok x := by
  cases index_rel h with
  | some hs => exact ⟨_, rfl, hs⟩

/-- The source of an id is made for the kind of such ids. -/
theorem identifierSource_eq_ok {c : Classification} {x : Source}
    (h : m.identifierSource c = .ok (some x)) : c.hasIdentifier = true ∧
      ∃ id, m.findBasic? .long = some id ∧
        m.source PartNature.identifier.name none id none .singular false = .ok x := by
  unfold identifierSource at h
  split at h
  · rename_i id hc hid
    obtain ⟨y, hy, h⟩ := map_eq_ok.1 h
    cases h
    exact ⟨hc, id, hid, hy⟩
  · cases h

/-- The source of an attribute, and the parts of its collection. -/
theorem attributeSource_eq_ok {a : Attribute} {s : AttributeSource} :
    m.attributeSource refines a = .ok s ↔
      m.source a.name refines a.type a.storedAs (if a.isPlural then .plural else .singular)
        a.isGeneric = .ok s.source ∧
      match a.nature with
      | .singular => s.plural = none
      | .plural c index => ∃ p, s.plural = some p ∧ m.pluralSource a s.source c index = .ok p := by
  unfold attributeSource
  simp only [bind_eq_ok]
  cases a.nature with
  | singular =>
    constructor
    · rintro ⟨x, hx, h⟩
      cases h
      exact ⟨hx, rfl⟩
    · rintro ⟨hx, hp⟩
      exact ⟨_, hx, by rw [← hp]; rfl⟩
  | plural c index =>
    constructor
    · rintro ⟨x, hx, h⟩
      obtain ⟨p, hp, h⟩ := bind_eq_ok.1 h
      cases h
      exact ⟨hx, p, rfl, hp⟩
    · rintro ⟨hx, p, hs, hp⟩
      exact ⟨_, hx, bind_eq_ok.2 ⟨p, hp, by rw [← hs]; rfl⟩⟩

/-- The parts of a collection are made for a plural attribute. -/
theorem pluralSource_of_attributeSource {a : Attribute} {x : AttributeSource} {p : PluralSource}
    (h : m.attributeSource refines a = .ok x) (hp : x.plural = some p) :
    ∃ c index, a.nature = .plural c index ∧ m.pluralSource a x.source c index = .ok p := by
  obtain ⟨-, hplural⟩ := attributeSource_eq_ok.1 h
  cases hn : a.nature with
  | singular =>
    rw [hn] at hplural
    rw [show x.plural = none from hplural] at hp
    cases hp
  | plural c index =>
    rw [hn] at hplural
    obtain ⟨p', hp', hmade⟩ := hplural
    rw [hp, Option.some.injEq] at hp'
    exact ⟨c, index, rfl, hp' ▸ hmade⟩

theorem anyPart_eq_ok {k : Kind} : m.anyPart name k = .ok s ↔
    ∃ id, m.findBasic? k = some id ∧ s = .plain ⟨name, id, .basic k k, .singular, false⟩ := by
  unfold anyPart
  cases hk : m.findBasic? k with
  | none => simp
  | some id =>
    have ht := Draft.typeAt?_of_findBasic? hk
    simp only [source_eq_ok, HasKind, ht]
    simp [DomainType.sourceKind?, Source.ofInfo]

end Sources

theorem anyPart_name {m : Model} {name : String} {k : Kind} {s : Source}
    (h : m.anyPart name k = .ok s) : s.name = name := by
  obtain ⟨id, -, rfl⟩ := anyPart_eq_ok.1 h
  rfl

/-! ## What there is no source for -/

/-- Why an attribute has no source: it has values of a tuple, or an index of one. -/
inductive Rejects (m : Model) (a : Attribute) : SourceError → Prop
  | value {n cs} : m.typeAt? a.type = some (.tuple n cs) →
      Rejects m a (.unrecognizedType a.name n)
  | index {i n cs} : a.index? = some i → m.typeAt? i = some (.tuple n cs) →
      Rejects m a (.unrecognizedType PartNature.index.name n)

section Rejects

variable {m : Model} {a : Attribute}

/-- An attribute has no source exactly if it refers to a tuple. -/
theorem exists_rejects_iff : (∃ e, m.Rejects a e) ↔
    ∃ t ∈ a.refersTo, ∃ n cs, m.typeAt? t = some (.tuple n cs) := by
  constructor
  · rintro ⟨e, ht | ⟨hi, ht⟩⟩
    · exact ⟨_, a.type_mem_refersTo, _, _, ht⟩
    · exact ⟨_, by simp [Attribute.refersTo, hi], _, _, ht⟩
  · rintro ⟨t, htmem, n, cs, ht⟩
    rcases List.mem_cons.1 htmem with rfl | htmem
    · exact ⟨_, .value ht⟩
    · exact ⟨_, .index (Option.mem_toList.1 htmem) ht⟩

theorem exists_selfSource (m : Model) (id : TypeId) : ∃ s, m.selfSource id = .ok s := by
  have self : ∀ {t}, m.typeAt? id = some t → (t.sourceKind? none).isSome → ∀ n bindable,
      ∃ s, some <$> m.source n none id none bindable false = .ok s := by
    intro t ht hkind n bindable
    obtain ⟨s, hs⟩ := exists_source ht hkind n none bindable false
    exact ⟨some s, by rw [hs]; rfl⟩
  unfold selfSource
  split
  · exact self ‹_› rfl _ _
  · exact self ‹_› rfl _ _
  · exact self ‹_› rfl _ _
  · exact ⟨none, rfl⟩

theorem exists_anyParts (knows : m.KnowsKinds) (id : TypeId) : ∃ s, m.anyParts id = .ok s := by
  unfold anyParts
  split
  · rename_i x y ht
    have hmem : .any x y ∈ m.bareTypes :=
      List.mem_map.2 ⟨_, List.mem_of_getElem? ht, rfl⟩
    obtain ⟨hx, hy⟩ := knows x y hmem
    obtain ⟨ix, hx⟩ := Option.isSome_iff_exists.1 hx
    obtain ⟨iy, hy⟩ := Option.isSome_iff_exists.1 hy
    exact ⟨_, bind_eq_ok.2 ⟨_, anyPart_eq_ok.2 ⟨ix, hx, rfl⟩, bind_eq_ok.2 ⟨_,
      anyPart_eq_ok.2 ⟨iy, hy, rfl⟩, rfl⟩⟩⟩
  · exact ⟨_, rfl⟩

theorem exists_identifierSource (m : Model) (c : Classification) :
    ∃ s, m.identifierSource c = .ok s := by
  unfold identifierSource
  split
  · rename_i id hid
    obtain ⟨s, hs⟩ := exists_source (Draft.typeAt?_of_findBasic? hid) rfl
      PartNature.identifier.name none .singular false
    rw [hs]
    exact ⟨_, rfl⟩
  · exact ⟨_, rfl⟩

/-- There are sources for the parts of a collection unless its index is of a tuple. -/
theorem pluralSource_spec {s : Source} {c : Classification} {index : Option TypeId}
    (hn : a.nature = .plural c index) (typed : ∀ t ∈ a.refersTo, t < m.types.length)
    (hvalue : ∀ n cs, m.typeAt? a.type ≠ some (.tuple n cs)) :
    Ensures (m.pluralSource a s c index) (fun _ => ∀ e, ¬ m.Rejects a e) (m.Rejects a) := by
  have hindex : a.index? = index := by rw [Attribute.index?, hn]
  refine Ensures.bind (P := fun _ => True)
    ((source_spec (typed _ a.type_mem_refersTo)).mono (fun _ _ => trivial) ?_) fun e _ => ?_
  · rintro e ⟨n, cs, ht, -⟩
    exact absurd ht (hvalue n cs)
  refine Ensures.bind (P := fun _ => ∀ e, ¬ m.Rejects a e) ?_ fun i hi => ?_
  · cases index with
    | none =>
      refine ensures_pure.2 ?_
      rintro e (ht | ⟨hi, -⟩)
      · exact hvalue _ _ ht
      · rw [hindex] at hi
        cases hi
    | some i =>
      rw [Option.mapM_some]
      have hi := typed i (Attribute.index_mem_refersTo hn)
      refine Ensures.bind ((source_spec hi).mono (fun _ => id) ?_) fun x hx => ensures_pure.2 ?_
      · rintro e ⟨n, cs, ht, rfl⟩
        exact .index hindex ht
      · rintro e (ht | ⟨hi, ht⟩)
        · exact hvalue _ _ ht
        · rw [hindex] at hi
          cases hi
          exact hx _ _ ht
  · obtain ⟨x, hx⟩ := m.exists_identifierSource c
    rw [hx]
    exact ensures_ok.2 hi

/-- An attribute has a source unless it refers to a tuple. -/
theorem attributeSource_spec (typed : ∀ t ∈ a.refersTo, t < m.types.length)
    (refines : Option Source) :
    Ensures (m.attributeSource refines a) (fun _ => ∀ e, ¬ m.Rejects a e) (m.Rejects a) := by
  refine Ensures.bind ((source_spec (typed _ a.type_mem_refersTo)).mono (fun _ => id) ?_)
    fun s hvalue => ?_
  · rintro e ⟨n, cs, ht, rfl⟩
    exact .value ht
  · split
    · rename_i hn
      refine ensures_pure.2 ?_
      rintro e (ht | ⟨hi, -⟩)
      · exact hvalue _ _ ht
      · rw [Attribute.index?, hn] at hi
        cases hi
    · rename_i c index hn
      exact (pluralSource_spec hn typed hvalue).bind fun p hp => ensures_pure.2 hp

end Rejects

/-- A model has a registry unless one of its attributes refers to a tuple. -/
theorem registry_spec {m : Model} (coherent : m.Coherent) :
    Ensures m.registry (fun _ => ∀ id, ∀ a ∈ m.declaredBy id, ∀ e, ¬ m.Rejects a e)
      (fun e => ∃ id, ∃ a ∈ m.declaredBy id, m.Rejects a e) := by
  have source : ∀ refines id, ∀ a ∈ m.declaredBy id, Ensures (m.attributeSource refines a)
      (fun _ => ∀ e, ¬ m.Rejects a e) (fun e => ∃ id, ∃ a ∈ m.declaredBy id, m.Rejects a e) :=
    fun refines id a ha => (attributeSource_spec (coherent.typed id a ha) refines).mono
      (fun _ h => h) fun e he => ⟨id, a, ha, he⟩
  refine Ensures.bind (ensures_mapM (R := fun _ _ => True) fun id _ => ?_) fun selves _ => ?_
  · obtain ⟨s, hs⟩ := m.exists_selfSource id
    exact .of_exists_ok ⟨s, hs, trivial⟩
  refine Ensures.bind (ensures_mapM (R := fun _ _ => True) fun id _ => ?_) fun parts _ => ?_
  · obtain ⟨s, hs⟩ := exists_anyParts coherent.knowsKinds id
    exact .of_exists_ok ⟨s, hs, trivial⟩
  refine Ensures.bind (ensures_mapM (R := fun id _ => ∀ a ∈ m.declaredBy id, ∀ e, ¬ m.Rejects a e)
    fun id _ => ?_) fun declared hdeclared => ?_
  · refine (ensures_mapM fun a ha => source none id a ha).imp fun as has a ha => ?_
    obtain ⟨-, -, hsources⟩ := exists_mem_of_forall₂ has ha
    exact hsources
  refine Ensures.bind (ensures_mapM (R := fun _ _ => True) fun id _ => ?_) fun inherited _ => ?_
  · refine (ensures_mapM (R := fun _ _ => True) fun x hx => ?_).imp fun _ _ => trivial
    have ha := (Draft.mem_attributesOf.1 (List.mem_of_mem_filter hx)).2
    exact (source _ x.1 x.2 ha).imp fun _ _ => trivial
  refine ensures_pure.2 fun id a ha => ?_
  have hid := Draft.mem_ids.2 (Draft.lt_of_mem_declaredBy ha)
  obtain ⟨-, -, hsources⟩ := exists_mem_of_forall₂ hdeclared hid
  exact hsources a ha

/-- A regular model has a registry. -/
theorem Regular.exists_registry {m : Model} (regular : m.Regular) : ∃ r, m.registry = .ok r := by
  have hno : ∀ t n cs, m.typeAt? t ≠ some (.tuple n cs) := fun t n cs ht => by
    have hkind := regular.hasKind _ (List.mem_of_getElem? ht) none
    cases hkind
  have hspec : Ensures m.registry (fun _ => True) fun _ => False := by
    refine (registry_spec regular.toCoherent).mono (fun _ _ => trivial) fun e he => ?_
    obtain ⟨id, a, ha, hrejects⟩ := he
    obtain ⟨t, -, n, cs, ht⟩ := exists_rejects_iff.1 ⟨e, hrejects⟩
    exact hno t n cs ht
  obtain ⟨r, hr, -⟩ := hspec.exists_ok
  exact ⟨r, hr⟩

end Model

/-! ## What the registry holds -/

/-- The source of an attribute on a type: its own on the type that declares it, and on other types
one that refines that. -/
def Model.memberSource (m : Model) (id : TypeId) (x : TypeId × Attribute) :
    Except SourceError AttributeSource :=
  if x.1 = id then m.attributeSource none x.2
  else do
    let declared ← m.attributeSource none x.2
    m.attributeSource (some declared.source) x.2

theorem Model.memberSource_eq_ok {m : Model} {id : TypeId} {x : TypeId × Attribute}
    {s : AttributeSource} (h : m.memberSource id x = .ok s) :
    ∃ refines, m.attributeSource refines x.2 = .ok s := by
  unfold memberSource at h
  split at h
  · exact ⟨_, h⟩
  · obtain ⟨_, -, h⟩ := bind_eq_ok.1 h
    exact ⟨_, h⟩

theorem Model.attributeSource_name {m : Model} {refines : Option Source} {a : Attribute}
    {s : AttributeSource} (h : m.attributeSource refines a = .ok s) : s.source.name = a.name :=
  (source_info (attributeSource_eq_ok.1 h).1).1

/-- What the registry of a model holds for one of its types. -/
structure TypeSources.Describe (m : Model) (id : TypeId) (t : TypeSources) : Prop where
  self : m.selfSource id = .ok t.self
  anyParts : m.anyParts id = .ok t.anyParts
  attributes : List.Forall₂ (fun x s => m.memberSource id x = .ok s)
    (m.attributesOf id) t.attributes

section WellFormed

variable {m : Model} (wf : m.WellFormed) {id : TypeId}

include wf

/-- Attributes of a type: the inherited ones, then its own. -/
theorem attributesOf_eq (hid : id < m.types.length) :
    m.attributesOf id = (m.attributesOf id).filter (·.1 != id)
      ++ (m.declaredBy id).map fun a => (id, a) := by
  have walk := wf.walk_chain hid
  obtain ⟨rest, hrest⟩ := walk.head
  have hnd : id ∉ rest := (List.nodup_cons.1 (hrest ▸ walk.nodup)).1
  rw [Draft.attributesOf, hrest, List.reverse_cons, List.flatMap_append, List.filter_append,
    List.flatMap_singleton]
  have hinherited : ∀ x ∈ rest.reverse.flatMap fun t => (m.declaredBy t).map fun a => (t, a),
      (x.1 != id) = true := by
    intro x hx
    obtain ⟨t, ht, hx⟩ := List.mem_flatMap.1 hx
    obtain ⟨a, -, rfl⟩ := List.mem_map.1 hx
    rw [bne_iff_ne]
    rintro rfl
    exact hnd (List.mem_reverse.1 ht)
  have hown : ∀ x ∈ (m.declaredBy id).map fun a => (id, a), ¬ (x.1 != id) = true := by
    intro x hx
    obtain ⟨a, -, rfl⟩ := List.mem_map.1 hx
    simp
  rw [List.filter_eq_self.2 hinherited, List.filter_eq_nil_iff.2 hown, List.append_nil]

/-- Among the sources of what a type declares, the name of an attribute finds its source. -/
theorem exists_declaredSource (hid : id < m.types.length) {sources : List AttributeSource}
    (h : (m.declaredBy id).mapM (m.attributeSource none) = .ok sources) {a : Attribute}
    (ha : a ∈ m.declaredBy id) :
    ∃ s, findSource? sources a.name = some s ∧ m.attributeSource none a = .ok s := by
  have hrel := find?_of_forall₂ (p := (·.name == a.name)) (q := (·.source.name == a.name))
    (mapM_eq_ok.1 h) fun b s hs => by rw [Model.attributeSource_name hs]
  have hfind : (m.declaredBy id).find? (·.name == a.name) = some a := by
    cases hb : (m.declaredBy id).find? (·.name == a.name) with
    | none => exact absurd (beq_self_eq_true _) (List.find?_eq_none.1 hb a ha)
    | some b =>
      have hname : b.name = a.name := by simpa using List.find?_some hb
      exact congrArg some (List.inj_on_of_nodup_map
        (Draft.nodup_declaredBy wf.validSupertypes wf.acyclic wf.distinct hid)
        (List.mem_of_find?_eq_some hb) ha hname)
  rw [hfind] at hrel
  unfold findSource?
  generalize sources.find? (·.source.name == a.name) = found at hrel
  cases hrel with
  | some hs => exact ⟨_, rfl, hs⟩

/-- The registry describes the types of the model at their positions. -/
theorem describe_of_registry {r : Registry} (h : m.registry = .ok r) :
    r.types.length = m.types.length ∧
      ∀ (id : TypeId) (t : TypeSources), r.types[id]? = some t → t.Describe m id := by
  obtain ⟨selves, hselves, h⟩ := bind_eq_ok.1 h
  obtain ⟨parts, hparts, h⟩ := bind_eq_ok.1 h
  obtain ⟨declared, hdeclared, h⟩ := bind_eq_ok.1 h
  obtain ⟨inherited, hinherited, h⟩ := bind_eq_ok.1 h
  cases h
  obtain ⟨lselves, hselves⟩ := mapM_range_eq_ok hselves
  obtain ⟨lparts, hparts⟩ := mapM_range_eq_ok hparts
  obtain ⟨ldeclared, hdeclared⟩ := mapM_range_eq_ok hdeclared
  obtain ⟨linherited, hinherited⟩ := mapM_range_eq_ok hinherited
  refine ⟨by simp [lselves, lparts, ldeclared, linherited], fun id t ht => ?_⟩
  obtain ⟨⟨self, anys⟩, as, hsp, has, rfl⟩ := List.getElem?_zipWith_eq_some.1 ht
  obtain ⟨hself, hanys⟩ := List.getElem?_zip_eq_some.1 hsp
  obtain ⟨inh, own, hinh, hown, rfl⟩ := List.getElem?_zipWith_eq_some.1 has
  have hid : id < m.types.length := by
    rw [← lselves]
    exact (List.getElem?_eq_some_iff.1 hself).1
  refine ⟨hselves id self hself, hparts id anys hanys, ?_⟩
  rw [attributesOf_eq wf hid]
  refine List.rel_append ?_ ?_
  · refine forall₂_imp_of_mem (mapM_eq_ok.1 (hinherited id inh hinh)) fun x hx s hs => ?_
    -- the source of the attribute on the type that declares it is already there
    obtain ⟨hx, hne⟩ := List.mem_filter.1 hx
    obtain ⟨hchain, ha⟩ := Draft.mem_attributesOf.1 hx
    have hlt := Draft.lt_of_mem_declaredBy ha
    obtain ⟨sources, hsources⟩ : ∃ sources, declared[x.1]? = some sources :=
      ⟨_, List.getElem?_eq_getElem (ldeclared ▸ hlt)⟩
    obtain ⟨y, hy, hmade⟩ := exists_declaredSource wf hlt (hdeclared x.1 sources hsources) ha
    rw [Model.memberSource, if_neg (bne_iff_ne.1 hne), hmade]
    dsimp only at hs
    rw [hsources, Option.bind_some, hy] at hs
    exact hs
  · rw [List.forall₂_map_left_iff]
    refine (mapM_eq_ok.1 (hdeclared id own hown)).imp fun a s hs => ?_
    rw [Model.memberSource, if_pos rfl, hs]

variable {r : Registry} (hr : m.registry = .ok r)

include hr

/-- The registry has the sources of each type of the model. -/
theorem exists_typeSources {t : DomainType} (ht : m.typeAt? id = some t) :
    ∃ ts, r.types[id]? = some ts ∧ ts.Describe m id := by
  obtain ⟨hlen, hdescribe⟩ := describe_of_registry wf hr
  have hid := (List.getElem?_eq_some_iff.1 ht).1
  have hts : r.types[id]? = some r.types[id] := List.getElem?_eq_getElem (hlen ▸ hid)
  exact ⟨_, hts, hdescribe id _ hts⟩

/-- What a name leads to on a type is the source of what the model finds. -/
theorem attribute?_rel (parent : Source) (name : String) :
    Option.Rel (fun x s => m.memberSource parent.type x = .ok s)
      (m.findAttribute? parent.type name) (r.attribute? parent name) := by
  rcases Nat.lt_or_ge parent.type m.types.length with hid | hid
  · obtain ⟨ts, hts, describe⟩ := exists_typeSources wf hr (List.getElem?_eq_getElem hid)
    rw [Registry.attribute?, hts, Option.bind_some, findSource?,
      Draft.findAttribute?_eq_find? wf.validSupertypes wf.acyclic wf.distinct hid]
    refine find?_of_forall₂ describe.attributes fun x s hs => ?_
    obtain ⟨refines, hs⟩ := Model.memberSource_eq_ok hs
    rw [Model.attributeSource_name hs]
  · have hts : r.types[parent.type]? = none :=
      List.getElem?_eq_none ((describe_of_registry wf hr).1 ▸ hid)
    rw [Draft.findAttribute?_eq_none hid, Registry.attribute?, hts]
    exact .none

/-- A name leads to the parts of a collection exactly if the model finds a plural attribute. -/
theorem plural?_rel (parent : Source) (name : String) :
    Option.Rel (fun x p => ∃ c index s, x.2.nature = .plural c index ∧
        m.pluralSource x.2 s c index = .ok p)
      ((m.findAttribute? parent.type name).filter (·.2.isPlural)) (r.plural? parent name) := by
  have hrel := attribute?_rel wf hr parent name
  rw [Registry.plural?]
  generalize m.findAttribute? parent.type name = found at hrel
  generalize r.attribute? parent name = source at hrel
  cases hrel with
  | none => exact .none
  | @some x s hmade =>
    obtain ⟨refines, hmade⟩ := Model.memberSource_eq_ok hmade
    obtain ⟨-, hplural⟩ := Model.attributeSource_eq_ok.1 hmade
    rw [Option.filter_some, Option.bind_some, Attribute.isPlural]
    cases hn : x.2.nature with
    | singular =>
      rw [hn] at hplural
      rw [show s.plural = none from hplural]
      exact .none
    | plural c index =>
      rw [hn] at hplural
      obtain ⟨p, hp, hparts⟩ := hplural
      rw [hp]
      exact .some ⟨c, index, s.source, hn, hparts⟩

/-- A plural attribute has the sources of the parts of its collection. -/
theorem exists_pluralSource {parent : Source} {name : String} {x : TypeId × Attribute}
    (hx : m.findAttribute? parent.type name = some x) {c : Classification} {index : Option TypeId}
    (hn : x.2.nature = .plural c index) :
    ∃ p s, r.plural? parent name = some p ∧ m.pluralSource x.2 s c index = .ok p := by
  have hrel := plural?_rel wf hr parent name
  rw [hx, Option.filter_some, Attribute.isPlural, hn] at hrel
  generalize r.plural? parent name = found at hrel
  cases hrel with
  | some hmade =>
    obtain ⟨c', index', s, hn', hmade⟩ := hmade
    rw [hn, Nature.plural.injEq] at hn'
    obtain ⟨rfl, rfl⟩ := hn'
    exact ⟨_, s, rfl, hmade⟩

end WellFormed

/-! ## What is found in the registry -/

section Lookup

variable {m : Model} {r : Registry} {parent s : Source} {name : String}

/-- The source of a managed type is made for the type of that name. -/
theorem selfSource_eq_some {id : TypeId} (h : m.selfSource id = .ok (some s)) :
    ∃ t bindable, m.typeAt? id = some t ∧ t.declaredName? = some s.name ∧
      m.source s.name none id none bindable false = .ok s := by
  have of_map : ∀ n bindable, some <$> m.source n none id none bindable false = .ok (some s) →
      s.name = n ∧ m.source s.name none id none bindable false = .ok s := by
    intro n bindable h
    obtain ⟨x, hx, h⟩ := map_eq_ok.1 h
    cases h
    have hn := (Model.source_info hx).1
    exact ⟨hn, hn ▸ hx⟩
  unfold Model.selfSource at h
  split at h
  · rename_i n _ _ _ ht
    obtain ⟨rfl, hs⟩ := of_map n _ h
    exact ⟨_, _, ht, rfl, hs⟩
  · rename_i n _ _ ht
    obtain ⟨rfl, hs⟩ := of_map n _ h
    exact ⟨_, _, ht, rfl, hs⟩
  · rename_i n _ ht
    obtain ⟨rfl, hs⟩ := of_map n _ h
    exact ⟨_, _, ht, rfl, hs⟩
  · cases h

/-- A source found by the name of a type is a source of the type of that name. -/
theorem managed?_eq_some (regular : m.Regular) (hr : m.registry = .ok r)
    (h : r.managed? name = some s) : ∃ id bindable, m.find? name = some id ∧
      m.source name none id none bindable false = .ok s := by
  have hn : s.name = name := by simpa using List.find?_some h
  obtain ⟨t, ht, hs⟩ := List.mem_filterMap.1 (List.mem_of_find?_eq_some h)
  obtain ⟨id, hid⟩ := List.getElem?_of_mem ht
  have hself := ((describe_of_registry regular.toWellFormed hr).2 id t hid).self
  rw [hs] at hself
  obtain ⟨x, bindable, hx, hname, hs⟩ := selfSource_eq_some hself
  subst hn
  exact ⟨id, bindable, regular.named id x _ hx hname, hs⟩

theorem root_eq_ok (h : r.root name = .ok s) : r.managed? name = some s ∧ s.entity?.isSome := by
  unfold Registry.root at h
  split at h
  · rename_i x hx
    split at h
    · rename_i he
      cases h
      exact ⟨hx, he⟩
    · cases h
  · cases h

/-- What a name leads to on a type is a source of an attribute of that name. -/
theorem attribute?_eq_some (regular : m.Regular) (hr : m.registry = .ok r) {x : AttributeSource}
    (h : r.attribute? parent name = some x) : ∃ a ∈ m.attributesOf parent.type,
      a.2.name = name ∧ ∃ refines, m.attributeSource refines a.2 = .ok x := by
  obtain ⟨t, ht, hx⟩ := Option.bind_eq_some_iff.1 h
  have hattrs := ((describe_of_registry regular.toWellFormed hr).2 _ t ht).attributes
  have hn : x.source.name = name := by simpa using List.find?_some hx
  obtain ⟨a, ha, hmade⟩ := exists_mem_of_forall₂' hattrs (List.mem_of_find?_eq_some hx)
  obtain ⟨refines, hsource⟩ := Model.memberSource_eq_ok hmade
  refine ⟨a, ha, ?_, refines, hsource⟩
  rw [← hn, Model.attributeSource_name hsource]

/-- The parts of the collection that a name leads to are made for a plural attribute of that
name. -/
theorem plural?_eq_some (regular : m.Regular) (hr : m.registry = .ok r) {p : PluralSource}
    (h : r.plural? parent name = some p) : ∃ a ∈ m.attributesOf parent.type, a.2.name = name ∧
      ∃ c index source, a.2.nature = .plural c index ∧
        m.pluralSource a.2 source c index = .ok p := by
  obtain ⟨x, hx, hp⟩ := Option.bind_eq_some_iff.1 h
  obtain ⟨a, ha, hname, refines, hsource⟩ := attribute?_eq_some regular hr hx
  obtain ⟨c, index, hn, hmade⟩ := Model.pluralSource_of_attributeSource hsource hp
  exact ⟨a, ha, hname, c, index, x.source, hn, hmade⟩

/-- An association to any entity has no attributes. -/
theorem attribute?_any (regular : m.Regular) (hr : m.registry = .ok r) {x y : Kind}
    (ht : m.typeAt? parent.type = some (.any x y)) : r.attribute? parent name = none := by
  cases h : r.attribute? parent name with
  | none => rfl
  | some z =>
    obtain ⟨⟨t, a⟩, hmem, -⟩ := attribute?_eq_some regular hr h
    obtain ⟨hchain, ha⟩ := Draft.mem_attributesOf.1 hmem
    have hstop : m.supertypeOf? parent.type = none := by
      rw [Draft.supertypeOf?, ht]
      rfl
    rw [Draft.eq_of_mem_chain hstop hchain, Draft.declaredBy, ht] at ha
    cases ha

/-- A column of an association to any entity has the name that leads to it, up to the other name
of the key. -/
theorem anyPart?_name (h : r.anyPart? parent name = some s) :
    s.name = if name == "id" then keyName else name := by
  obtain ⟨t, -, hs⟩ := Option.bind_eq_some_iff.1 h
  simpa using List.find?_some hs

/-- The columns of an association to any entity. -/
theorem anyPart?_eq_some (regular : m.Regular) (hr : m.registry = .ok r) {x y : Kind}
    (ht : m.typeAt? parent.type = some (.any x y)) (h : r.anyPart? parent name = some s) :
    (name = discriminatorName ∧ m.anyPart discriminatorName x = .ok s) ∨
      (name = keyName ∨ name = "id") ∧ m.anyPart keyName y = .ok s := by
  obtain ⟨t, htypes, hs⟩ := Option.bind_eq_some_iff.1 h
  have hparts := ((describe_of_registry regular.toWellFormed hr).2 _ t htypes).anyParts
  unfold Model.anyParts at hparts
  rw [ht] at hparts
  obtain ⟨d, hd, hparts⟩ := bind_eq_ok.1 hparts
  obtain ⟨k, hk, hparts⟩ := bind_eq_ok.1 hparts
  injection hparts with hparts
  rw [← hparts] at hs
  have hname := anyPart?_name h
  have hdn : d.name = discriminatorName := Model.anyPart_name hd
  have hkn : k.name = keyName := Model.anyPart_name hk
  have hmem := List.mem_of_find?_eq_some hs
  rw [List.mem_pair] at hmem
  rcases hmem with rfl | rfl
  · refine .inl ⟨?_, hd⟩
    rw [hdn] at hname
    split at hname
    · exact absurd hname (by decide)
    · exact hname.symm
  · refine .inr ⟨?_, hk⟩
    rw [hkn] at hname
    split at hname
    · rename_i hid
      exact .inr (by simpa using hid)
    · exact .inl hname.symm

end Lookup

/-! ## What the registry does not miss -/

section Complete

variable {m : Model} (regular : m.Regular) {r : Registry} (hr : m.registry = .ok r)
  {parent : Source} {name : String}

include regular hr

/-- A managed type is found by its name. -/
theorem exists_managed? {id : TypeId} {t : DomainType} (ht : m.typeAt? id = some t)
    (hmanaged : t.isManaged = true) : ∃ s, r.managed? t.name = some s := by
  obtain ⟨ts, hts, describe⟩ := exists_typeSources regular.toWellFormed hr ht
  have hself := describe.self
  rw [Model.selfSource, ht] at hself
  obtain ⟨s, hs, hname⟩ : ∃ s, ts.self = some s ∧ s.name = t.name := by
    cases t with
    | entity | mappedSupertype | embeddable =>
      obtain ⟨s, hs, hself⟩ := map_eq_ok.1 hself
      exact ⟨s, hself.symm, (Model.source_info hs).1⟩
    | basic | any | tuple => cases hmanaged
  have hmem : s ∈ r.selves := List.mem_filterMap.2 ⟨ts, List.mem_of_getElem? hts, hs⟩
  refine Option.isSome_iff_exists.1 (List.find?_isSome.2 ⟨s, hmem, ?_⟩)
  rw [hname, beq_self_eq_true]

/-- What a name leads to on a type is a source of the attribute that the model finds. -/
theorem findAttribute?_of_attribute? {x : AttributeSource}
    (h : r.attribute? parent name = some x) :
    ∃ owner a refines, m.findAttribute? parent.type name = some (owner, a) ∧
      m.attributeSource refines a = .ok x := by
  have hrel := attribute?_rel regular.toWellFormed hr parent name
  rw [h] at hrel
  generalize m.findAttribute? parent.type name = found at hrel
  cases hrel with
  | some hmade =>
    obtain ⟨refines, hsource⟩ := Model.memberSource_eq_ok hmade
    exact ⟨_, _, refines, rfl, hsource⟩

/-- Each attribute that the model finds has a source. -/
theorem exists_attribute? {owner : TypeId} {a : Attribute}
    (h : m.findAttribute? parent.type name = some (owner, a)) :
    ∃ x, r.attribute? parent name = some x := by
  have hrel := attribute?_rel regular.toWellFormed hr parent name
  rw [h] at hrel
  generalize r.attribute? parent name = found at hrel
  cases hrel with
  | some _ => exact ⟨_, rfl⟩

/-- An association to any entity has both columns. -/
theorem exists_anyPart? {x y : Kind} (ht : m.typeAt? parent.type = some (.any x y))
    (hname : name = discriminatorName ∨ name = keyName ∨ name = "id") :
    ∃ s, r.anyPart? parent name = some s := by
  obtain ⟨ts, hts, describe⟩ := exists_typeSources regular.toWellFormed hr ht
  have hparts := describe.anyParts
  rw [Model.anyParts, ht] at hparts
  obtain ⟨d, hd, hparts⟩ := bind_eq_ok.1 hparts
  obtain ⟨k, hk, hparts⟩ := bind_eq_ok.1 hparts
  injection hparts with hparts
  rw [Registry.anyPart?, hts, Option.bind_some, ← hparts]
  refine Option.isSome_iff_exists.1 (List.find?_isSome.2 ?_)
  rcases hname with rfl | rfl | rfl
  · exact ⟨d, by simp, by rw [Model.anyPart_name hd]; decide⟩
  · exact ⟨k, by simp, by rw [Model.anyPart_name hk]; decide⟩
  · exact ⟨k, by simp, by rw [Model.anyPart_name hk]; decide⟩

end Complete

end QueryPath.Logical
