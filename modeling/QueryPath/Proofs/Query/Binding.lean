import QueryPath.Proofs.Catalog.Acceptance
import QueryPath.Proofs.Query.Scope
import QueryPath.Query.Expression

/-!
# Binding is typing

An expression stands for a path exactly if the domain model gives it a type, and the path has that
type. The rules speak of the model alone (`Scope.Typed`):

| expression               | has a type if its base is                                  |
|:-------------------------|:-----------------------------------------------------------|
| `base.n`                 | a common table expression with a column `n`                |
| `base.n`                 | of a managed type, or a collection of one, with an         |
|                          | attribute `n`                                              |
| `base.n`                 | of an association to any entity with a column `n`          |
| `treat(base as T)`       | anything, and `T` is the name of a managed type            |
| `element(b)`, `value(b)` | a collection                                               |
| `index(b)`, `key(b)`     | a collection with an index                                 |

Binding knows nothing of the model; it looks sources up by type and name. What the registry finds
under a name is made for the attribute that the model finds, so a step from a path is one of the
rules for its type (`member_of_step`), and each rule can be followed by a step
(`exists_step_of_member`). The rest are inductions, on the expression for what is bound and on the
rules for what is typed.
-/

namespace QueryPath

open Logical (Model Registry Source SourceKind AttributeSource PluralSource TypeId Attribute
  DomainType Bindable)

/-! ## Types of paths -/

/-- What the domain model knows of a path. -/
inductive PathType where
  | cte (table : Cte)
  | value (type : LogicalType)
  | collection (element : LogicalType) (index : Option LogicalType)
deriving DecidableEq, Repr

/-- The logical type from which steps lead on. A collection has that of its elements. -/
def PathType.logical? : PathType → Option LogicalType
  | cte _ => none
  | value t | collection t _ => some t

namespace Logical

/-- The type at a position, a basic one by its kind. -/
def Model.logicalType (m : Model) (id : TypeId) : LogicalType :=
  match m.typeAt? id with
  | some (.basic k) => .basic k
  | _ => .domain id

/-- The type of an attribute. -/
def Model.attributeType (m : Model) (a : Attribute) : PathType :=
  match a.nature with
  | .singular => .value (m.logicalType a.type)
  | .plural _ index => .collection (m.logicalType a.type) (index.map m.logicalType)

/-- The type of what a source stands for. -/
def Source.logicalType (s : Source) : LogicalType :=
  match s.kind with
  | .basic k _ => .basic k
  | _ => .domain s.type

end Logical

/-- The type of a path. -/
def Path.type : Path → PathType
  | cteRoot t _ => .cte t
  | cteColumn _ c _ => .value (.basic c.kind)
  | member _ s (some plural) _ => .collection s.logicalType (plural.index.map Source.logicalType)
  | root s _ | member _ s none _ | treat _ s | part _ _ s => .value s.logicalType

/-- The logical type of a path is what its type says. -/
theorem typeOfPath?_eq (p : Path) : Expression.typeOfPath? p = p.type.logical? := by
  cases p with
  | member b s plural v => cases plural <;> rfl
  | root | cteRoot | cteColumn | treat | part => rfl

/-! ## The rules -/

/-- From a path of the first type the name leads to one of the second. -/
inductive PathType.Member (m : Model) : PathType → String → PathType → Prop
  | column {t n c} : t.column? n = some c → Member m (.cte t) n (.value (.basic c.kind))
  | managed {σ id t n owner a} : σ.logical? = some (.domain id) → m.typeAt? id = some t →
      t.isManaged = true → m.findAttribute? id n = some (owner, a) →
      Member m σ n (m.attributeType a)
  | discriminator {σ id d k} : σ.logical? = some (.domain id) →
      m.typeAt? id = some (.any d k) → Member m σ discriminatorName (.value (.basic d))
  | key {σ id d k n} : σ.logical? = some (.domain id) → m.typeAt? id = some (.any d k) →
      n = keyName ∨ n = "id" → Member m σ n (.value (.basic k))

/-- The type of the part of a collection that a function names. -/
inductive PathType.Part : PartFunction → PathType → LogicalType → Prop
  | element {e i} : Part .element (.collection e i) e
  | value {e i} : Part .value (.collection e i) e
  | index {e i} : Part .index (.collection e (some i)) i
  | key {e i} : Part .key (.collection e (some i)) i

/-- The types that the model gives to expressions, given the paths of the variables. -/
inductive Scope.Typed (s : Scope) (m : Model) : Expr → PathType → Prop
  | root {n p} : s.pathOf? n = some p → Typed s m (.root n) p.type
  | member {base σ n τ} : Typed s m base σ → σ.Member m n τ → Typed s m (.member base n) τ
  | treat {base σ id t} : Typed s m base σ → m.typeAt? id = some t → t.isManaged = true →
      Typed s m (.treat base t.name) (.value (.domain id))
  | part {f base σ t} : Typed s m base σ → σ.Part f t → Typed s m (.part f base) (.value t)

/-! ## Sources and their types -/

namespace Logical

section Types

variable {m : Model} {s : Source} {stored : Option Kind} {id : TypeId} {t : DomainType}

/-- The type of a source that says what the model says. -/
theorem Model.HasKind.logicalType (h : m.HasKind s.type stored s.kind) :
    s.logicalType = m.logicalType s.type := by
  obtain ⟨t, ht, hkind⟩ := h.typeAt?
  rw [Source.logicalType, Model.logicalType, ht]
  cases t with
  | tuple => cases hkind
  | basic | any | embeddable | entity | mappedSupertype =>
    rw [DomainType.sourceKind?, Option.some.injEq] at hkind
    rw [← hkind]

theorem Model.source_logicalType {n : String} {refines : Option Source} {b : Bindable} {g : Bool}
    (h : m.source n refines id stored b g = .ok s) : s.logicalType = m.logicalType id := by
  obtain ⟨-, rfl, hkind, -⟩ := Model.source_info h
  exact hkind.logicalType

/-- Steps lead on from the sources that are not of a basic type. -/
theorem Source.logicalType_eq_domain :
    s.logicalType = .domain id ↔ s.kind.isNavigable = true ∧ s.type = id := by
  unfold Source.logicalType SourceKind.isNavigable
  cases s.kind <;> simp

theorem Model.logicalType_of_isManaged (ht : m.typeAt? id = some t) (h : t.isManaged = true) :
    m.logicalType id = .domain id := by
  rw [Model.logicalType, ht]
  cases t with
  | embeddable | entity | mappedSupertype => rfl
  | basic | any | tuple => cases h

theorem DomainType.declaredName?_of_isManaged (h : t.isManaged = true) :
    t.declaredName? = some t.name := by
  cases t with
  | embeddable | entity | mappedSupertype => rfl
  | basic | any | tuple => cases h

/-- A type with a name is managed if it has sources. -/
theorem Model.HasKind.isManaged {kind : SourceKind} {n : String} (h : m.HasKind id stored kind)
    (ht : m.typeAt? id = some t) (hn : t.declaredName? = some n) :
    t.isManaged = true ∧ t.name = n := by
  rw [HasKind, ht, Option.bind_some] at h
  cases t with
  | basic | any => cases hn
  | tuple => cases h
  | embeddable | entity | mappedSupertype =>
    cases hn
    exact ⟨rfl, rfl⟩

/-- Steps lead on from managed types and from associations to any entity. -/
theorem Model.HasKind.managed_or_any (h : m.HasKind s.type stored s.kind)
    (hnav : s.kind.isNavigable = true) : ∃ t, m.typeAt? s.type = some t ∧
      (t.isManaged = true ∨ ∃ d k, t = .any d k) := by
  obtain ⟨t, ht, hkind⟩ := h.typeAt?
  refine ⟨t, ht, ?_⟩
  cases t with
  | basic k =>
    rw [DomainType.sourceKind?, Option.some.injEq] at hkind
    rw [← hkind] at hnav
    cases hnav
  | embeddable | entity | mappedSupertype => exact .inl rfl
  | any d k => exact .inr ⟨d, k, rfl⟩
  | tuple => cases hkind

variable {r : Registry} {n : String}

/-- On managed types names lead to attributes. -/
theorem member?_of_isManaged (h : m.HasKind s.type stored s.kind) (ht : m.typeAt? s.type = some t)
    (hmanaged : t.isManaged = true) : r.member? s n = (r.attribute? s n).map (·.source) := by
  rw [Model.HasKind, ht, Option.bind_some] at h
  unfold Registry.member?
  cases t with
  | embeddable | entity | mappedSupertype =>
    rw [DomainType.sourceKind?, Option.some.injEq] at h
    rw [← h]
  | basic | any | tuple => cases hmanaged

/-- On associations to any entity they lead to columns. -/
theorem member?_of_any {d k : Kind} (h : m.HasKind s.type stored s.kind)
    (ht : m.typeAt? s.type = some (.any d k)) : r.member? s n = r.anyPart? s n := by
  rw [Model.HasKind, ht, Option.bind_some, DomainType.sourceKind?, Option.some.injEq] at h
  rw [Registry.member?, ← h]

end Types

end Logical

/-! ## Paths and their types -/

namespace Path

open Logical

variable {m : Model}

theorem logical?_type {p : Path} {id : TypeId} : p.type.logical? = some (.domain id) ↔
    ∃ s, p.source? = some s ∧ s.kind.isNavigable = true ∧ s.type = id := by
  rw [← typeOfPath?_eq]
  have of_source : ∀ x : Source, some x.logicalType = some (.domain id) ↔
      ∃ s, some x = some s ∧ s.kind.isNavigable = true ∧ s.type = id := by
    intro x
    rw [Option.some.injEq, Source.logicalType_eq_domain]
    simp
  cases p with
  | cteRoot | cteColumn => simp [Expression.typeOfPath?, source?]
  | root s | member _ s | treat _ s | part _ _ s => exact of_source s

/-- An attribute is of the type that the model gives to it. -/
theorem type_member {refines : Option Source} {a : Attribute} {x : AttributeSource}
    (h : m.attributeSource refines a = .ok x) (b : Path) (v : Option String) :
    (member b x.source x.plural v).type = m.attributeType a := by
  obtain ⟨hsource, hplural⟩ := Model.attributeSource_eq_ok.1 h
  have htype := Model.source_logicalType hsource
  unfold Model.attributeType
  cases hn : a.nature with
  | singular =>
    rw [hn] at hplural
    rw [show x.plural = none from hplural]
    exact congrArg PathType.value htype
  | plural c index =>
    rw [hn] at hplural
    obtain ⟨p, hp, hmade⟩ := hplural
    obtain ⟨-, -, -, hindex, -⟩ := Model.pluralSource_eq_ok.1 hmade
    have hindex : p.index.map Source.logicalType = index.map m.logicalType := by
      cases index with
      | none =>
        have hnone : none = p.index := Except.ok.inj hindex
        rw [← hnone, Option.map_none, Option.map_none]
      | some i =>
        obtain ⟨s, hs, hp⟩ := map_eq_ok.1 hindex
        rw [← hp, Option.map_some, Option.map_some, Model.source_logicalType hs]
    rw [hp, type, htype, hindex]

theorem eq_cteRoot {p : Path} {t : Cte} (h : p.type = .cte t) : ∃ v, p = .cteRoot t v := by
  cases p with
  | cteRoot t' v =>
    cases h
    exact ⟨v, rfl⟩
  | member b s plural v => cases plural <;> cases h
  | root | cteColumn | treat | part => cases h

theorem eq_member {p : Path} {e : LogicalType} {i : Option LogicalType}
    (h : p.type = .collection e i) : ∃ b s plural v, p = .member b s (some plural) v ∧
      s.logicalType = e ∧ plural.index.map Source.logicalType = i := by
  cases p with
  | member b s plural v =>
    cases plural with
    | none => cases h
    | some plural =>
      cases h
      exact ⟨b, s, plural, v, rfl, rfl, rfl⟩
  | root | cteRoot | cteColumn | treat | part => cases h

section Steps

variable (regular : m.Regular) {r : Registry} (hr : m.registry = .ok r) {b : Path}

include regular hr

theorem Over.step_of_any (hb : b.Over r) {s x : Source} (hs : b.source? = some s)
    (hnav : s.kind.isNavigable = true) {d k : Kind} (ht : m.typeAt? s.type = some (.any d k))
    {n : String} (hx : r.anyPart? s n = some x) (v : Option String) :
    b.step r n v = .ok (.member b x none v) := by
  obtain ⟨stored, hkind⟩ := hb.hasKind regular hr hs
  rw [← member?_of_any hkind ht] at hx
  rw [step_member hs hnav hx, Registry.plural?, attribute?_any regular hr ht, Option.bind_none]

/-- Where a name leads from a path, it leads from the type of the path. -/
theorem member_of_step (hb : b.Over r) {n : String} {v : Option String} {p : Path}
    (h : b.step r n v = .ok p) : b.type.Member m n p.type := by
  rcases step_eq_ok h with ⟨t, u, c, rfl, hc, rfl⟩ | ⟨s, x, hs, hnav, hx, rfl⟩
  · exact .column hc
  obtain ⟨stored, hkind⟩ := hb.hasKind regular hr hs
  have hdomain := logical?_type.2 ⟨s, hs, hnav, rfl⟩
  obtain ⟨t, ht, hmanaged | ⟨d, k, rfl⟩⟩ := hkind.managed_or_any hnav
  · rw [member?_of_isManaged hkind ht hmanaged] at hx
    obtain ⟨y, hy, rfl⟩ := Option.map_eq_some_iff.1 hx
    obtain ⟨owner, a, refines, ha, hsource⟩ := findAttribute?_of_attribute? regular hr hy
    rw [Registry.plural?, hy, Option.bind_some, type_member hsource]
    exact .managed hdomain ht hmanaged ha
  · rw [member?_of_any hkind ht] at hx
    rw [Registry.plural?, attribute?_any regular hr ht, Option.bind_none]
    rcases anyPart?_eq_some regular hr ht hx with ⟨rfl, hpart⟩ | ⟨hn, hpart⟩
    · obtain ⟨i, -, rfl⟩ := Model.anyPart_eq_ok.1 hpart
      exact .discriminator hdomain ht
    · obtain ⟨i, -, rfl⟩ := Model.anyPart_eq_ok.1 hpart
      exact .key hdomain ht hn

/-- Where a name leads from the type of a path, it leads from the path. -/
theorem exists_step_of_member (hb : b.Over r) {n : String} {τ : PathType}
    (h : b.type.Member m n τ) (v : Option String) : ∃ p, b.step r n v = .ok p ∧ p.type = τ := by
  generalize hσ : b.type = σ at h
  cases h with
  | @column t _ c hc =>
    obtain ⟨u, rfl⟩ := eq_cteRoot hσ
    exact ⟨.cteColumn (.cteRoot t u) c v, by simp only [step, hc], rfl⟩
  | managed hdomain ht hmanaged ha =>
    obtain ⟨s, hs, hnav, rfl⟩ := logical?_type.1 (hσ ▸ hdomain)
    obtain ⟨stored, hkind⟩ := hb.hasKind regular hr hs
    obtain ⟨x, hx⟩ := exists_attribute? regular hr ha
    obtain ⟨owner', a', refines, ha', hsource⟩ := findAttribute?_of_attribute? regular hr hx
    rw [ha, Option.some.injEq, Prod.mk.injEq] at ha'
    have hmember : r.member? s n = some x.source := by
      rw [member?_of_isManaged hkind ht hmanaged, hx, Option.map_some]
    refine ⟨_, step_member hs hnav hmember, ?_⟩
    rw [Registry.plural?, hx, Option.bind_some, type_member hsource, ha'.2]
  | discriminator hdomain ht =>
    obtain ⟨s, hs, hnav, rfl⟩ := logical?_type.1 (hσ ▸ hdomain)
    obtain ⟨x, hx⟩ := exists_anyPart? regular hr ht (.inl rfl)
    refine ⟨_, hb.step_of_any regular hr hs hnav ht hx v, ?_⟩
    rcases anyPart?_eq_some regular hr ht hx with ⟨-, hpart⟩ | ⟨hn, -⟩
    · obtain ⟨i, -, rfl⟩ := Model.anyPart_eq_ok.1 hpart
      rfl
    · exact absurd hn (by decide)
  | key hdomain ht hn =>
    obtain ⟨s, hs, hnav, rfl⟩ := logical?_type.1 (hσ ▸ hdomain)
    obtain ⟨x, hx⟩ := exists_anyPart? regular hr ht (.inr hn)
    refine ⟨_, hb.step_of_any regular hr hs hnav ht hx v, ?_⟩
    rcases anyPart?_eq_some regular hr ht hx with ⟨rfl, -⟩ | ⟨-, hpart⟩
    · exact absurd hn (by decide)
    · obtain ⟨i, -, rfl⟩ := Model.anyPart_eq_ok.1 hpart
      rfl

/-- A path is narrowed to managed types only. -/
theorem managed_of_treatAs {target : String} {p : Path} (h : b.treatAs r target = .ok p) :
    ∃ id t, m.typeAt? id = some t ∧ t.isManaged = true ∧ t.name = target ∧
      p.type = .value (.domain id) := by
  obtain ⟨s, hs, rfl⟩ := treatAs_eq_ok h
  obtain ⟨id, bindable, hid, hsource⟩ := managed?_eq_some regular hr hs
  obtain ⟨t, ht, hname⟩ := Draft.typeAt?_of_find? hid
  obtain ⟨-, rfl, hkind, -⟩ := Model.source_info hsource
  obtain ⟨hmanaged, htarget⟩ := hkind.isManaged ht hname
  refine ⟨s.type, t, ht, hmanaged, htarget, ?_⟩
  rw [type, hkind.logicalType, Model.logicalType_of_isManaged ht hmanaged]

theorem exists_treatAs (b : Path) {id : TypeId} {t : DomainType} (ht : m.typeAt? id = some t)
    (hmanaged : t.isManaged = true) :
    ∃ p, b.treatAs r t.name = .ok p ∧ p.type = .value (.domain id) := by
  obtain ⟨s, hs⟩ := exists_managed? regular hr ht hmanaged
  obtain ⟨id', bindable, hid, hsource⟩ := managed?_eq_some regular hr hs
  have hname := DomainType.declaredName?_of_isManaged hmanaged
  rw [regular.named id t t.name ht hname, Option.some.injEq] at hid
  subst hid
  refine ⟨.treat b s, by simp only [treatAs, hs], ?_⟩
  rw [type, Model.source_logicalType hsource, Model.logicalType_of_isManaged ht hmanaged]

/-- The elements of a collection are of the type that the attribute says. -/
theorem logicalType_element {s : Source} {plural : PluralSource} {v : Option String}
    (h : (Path.member b s (some plural) v).Over r) :
    plural.element.logicalType = s.logicalType := by
  cases h with
  | @member _ parent name _ _ _ hover hs hnav hx hplural =>
    obtain ⟨y, hy, hplural⟩ := Option.bind_eq_some_iff.1 hplural.symm
    obtain ⟨stored, hkind⟩ := hover.hasKind regular hr hs
    obtain ⟨t, ht, hmanaged | ⟨d, k, rfl⟩⟩ := hkind.managed_or_any hnav
    · rw [member?_of_isManaged hkind ht hmanaged, hy, Option.map_some, Option.some.injEq] at hx
      obtain ⟨owner, a, refines, -, hsource⟩ := findAttribute?_of_attribute? regular hr hy
      obtain ⟨c, index, -, hmade⟩ := Model.pluralSource_of_attributeSource hsource hplural
      obtain ⟨-, -, helement, -, -⟩ := Model.pluralSource_eq_ok.1 hmade
      have hself := (Model.attributeSource_eq_ok.1 hsource).1
      rw [Model.source_logicalType helement, ← hx, Model.source_logicalType hself]
    · rw [attribute?_any regular hr ht] at hy
      cases hy

/-- The functions for the parts of a collection lead to parts. -/
theorem part_of_applyPart (hb : b.Over r) {f : PartFunction} {p : Path}
    (h : Scope.applyPart f b = .ok p) : ∃ t, b.type.Part f t ∧ p.type = .value t := by
  cases f with
  | element | value =>
    obtain ⟨plural, hplural, rfl⟩ := element_eq_ok.1 h
    obtain ⟨b', s, v, rfl⟩ := plural_eq_ok hplural
    refine ⟨s.logicalType, by constructor, ?_⟩
    rw [type, logicalType_element regular hr hb]
  | index | key =>
    obtain ⟨plural, x, hplural, hx, rfl⟩ := index_eq_ok.1 h
    obtain ⟨b', s, v, rfl⟩ := plural_eq_ok hplural
    refine ⟨x.logicalType, ?_, rfl⟩
    rw [type, hx, Option.map_some]
    constructor

theorem exists_applyPart (hb : b.Over r) {f : PartFunction} {t : LogicalType}
    (h : b.type.Part f t) : ∃ p, Scope.applyPart f b = .ok p ∧ p.type = .value t := by
  generalize hσ : b.type = σ at h
  cases h with
  | element | value =>
    obtain ⟨b', s, plural, v, rfl, rfl, -⟩ := eq_member hσ
    refine ⟨_, element_eq_ok.2 ⟨plural, rfl, rfl⟩, ?_⟩
    rw [type, logicalType_element regular hr hb]
  | index | key =>
    obtain ⟨b', s, plural, v, rfl, -, hindex⟩ := eq_member hσ
    obtain ⟨x, hx, rfl⟩ := Option.map_eq_some_iff.1 hindex
    have hplural : (Path.member b' s (some plural) v).plural = .ok plural := rfl
    exact ⟨_, index_eq_ok.2 ⟨plural, x, hplural, hx, rfl⟩, rfl⟩

end Steps

end Path

/-! ## Expressions and their types -/

namespace Scope

variable {m : Model} (regular : m.Regular) {s : Scope} (hr : m.registry = .ok s.registry)
  (sound : s.Sound)

include regular hr sound

/-- What is bound is typed. -/
theorem typed_of_bind {e : Expr} {p : Path} (h : s.bind e = .ok p) : s.Typed m e p.type := by
  induction e generalizing p with
  | root n => exact .root (bind_root_eq_ok.1 h)
  | member base n ih =>
    obtain ⟨b, hb, hget⟩ := bind_member_eq_ok.1 h
    have isOver := ((reaches_of_bind hb).known sound).isOver
    exact .member (ih hb) (Path.member_of_step regular hr isOver hget)
  | treat base target ih =>
    obtain ⟨b, hb, htreat⟩ := bind_treat_eq_ok.1 h
    obtain ⟨id, t, ht, hmanaged, rfl, htype⟩ := Path.managed_of_treatAs regular hr htreat
    rw [htype]
    exact .treat (ih hb) ht hmanaged
  | part f base ih =>
    obtain ⟨b, hb, hpart⟩ := bind_part_eq_ok.1 h
    have isOver := ((reaches_of_bind hb).known sound).isOver
    obtain ⟨t, ht, htype⟩ := Path.part_of_applyPart regular hr isOver hpart
    rw [htype]
    exact .part (ih hb) ht

/-- What is typed is bound to a path of that type. -/
theorem exists_bind_of_typed {e : Expr} {τ : PathType} (h : s.Typed m e τ) :
    ∃ p, s.bind e = .ok p ∧ p.type = τ := by
  induction h with
  | root hp => exact ⟨_, bind_root_eq_ok.2 hp, rfl⟩
  | member _ hmember ih =>
    obtain ⟨b, hb, rfl⟩ := ih
    have isOver := ((reaches_of_bind hb).known sound).isOver
    obtain ⟨p, hget, hp⟩ := Path.exists_step_of_member regular hr isOver hmember none
    exact ⟨p, bind_member_eq_ok.2 ⟨b, hb, hget⟩, hp⟩
  | treat _ ht hmanaged ih =>
    obtain ⟨b, hb, -⟩ := ih
    obtain ⟨p, htreat, hp⟩ := Path.exists_treatAs regular hr b ht hmanaged
    exact ⟨p, bind_treat_eq_ok.2 ⟨b, hb, htreat⟩, hp⟩
  | part _ hpart ih =>
    obtain ⟨b, hb, rfl⟩ := ih
    have isOver := ((reaches_of_bind hb).known sound).isOver
    obtain ⟨p, hp, htype⟩ := Path.exists_applyPart regular hr isOver hpart
    exact ⟨p, bind_part_eq_ok.2 ⟨b, hb, hp⟩, htype⟩

end Scope

namespace Catalog

open Definition (RawAttribute)

/-- Over a catalog exactly the expressions are bound that the domain model types, and the logical
type of a path is the one that the rules give. -/
theorem bind_iff_typed {raw : Definition RawAttribute} {c : Catalog}
    (h : ofDefinition raw = .ok c) {declarations : List Declaration} {s : Scope}
    (hs : s = Scope.run { registry := c.registry } declarations) :
    (∀ e τ, (∃ p, s.bind e = .ok p ∧ p.type = τ) ↔ s.Typed c.logical e τ) ∧
    ∀ e p τ, s.bind e = .ok p → s.Typed c.logical e τ →
      Expression.typeOfPath? p = τ.logical? := by
  obtain ⟨d, uses, -, -, made⟩ := exists_madeFrom h
  have hregistry : s.registry = c.registry := by rw [hs, Scope.registry_run]
  have sound : s.Sound := hs ▸ Scope.sound_run c.registry declarations
  have hr : c.logical.registry = .ok s.registry := hregistry ▸ made.registry
  refine ⟨fun e τ => ⟨?_, Scope.exists_bind_of_typed made.regular hr sound⟩,
    fun e p τ hp htyped => ?_⟩
  · rintro ⟨p, hp, rfl⟩
    exact Scope.typed_of_bind made.regular hr sound hp
  · obtain ⟨q, hq, rfl⟩ := Scope.exists_bind_of_typed made.regular hr sound htyped
    rw [hp, Except.ok.injEq] at hq
    rw [typeOfPath?_eq, hq]

set_option maxRecDepth 100000 in
theorem typed_amountOfBid : ∃ c p, ofDefinition auctionHouse = .ok c ∧
    (Scope.run { registry := c.registry } Scope.auctionVariables).bind Scope.amountOfBid = .ok p ∧
    (Scope.run { registry := c.registry } Scope.auctionVariables).Typed c.logical
      Scope.amountOfBid (.value (.basic .decimal)) ∧
    Expression.typeOfPath? p = some (.basic .decimal) := by
  let P := fun p : Path => decide (p.type = .value (.basic .decimal))
  obtain ⟨c, hc, hp⟩ : ∃ c, ofDefinition auctionHouse = .ok c ∧
      (((Scope.run { registry := c.registry } Scope.auctionVariables).bind
        Scope.amountOfBid).toOption.any P) = true := exists_ok_of_any (by decide +kernel)
  obtain ⟨p, hp, htype⟩ := exists_ok_of_any hp
  obtain ⟨hbind, htypeOf⟩ :=
    bind_iff_typed (s := Scope.run { registry := c.registry } Scope.auctionVariables) hc rfl
  have htyped := (hbind Scope.amountOfBid _).1 ⟨p, hp, of_decide_eq_true htype⟩
  exact ⟨c, p, hc, hp, htyped, htypeOf _ p _ hp htyped⟩

end Catalog

end QueryPath
