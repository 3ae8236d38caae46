import QueryPath.Proofs.Logical.Registry
import QueryPath.Proofs.Path.Bases

/-!
# Paths over a registry

The steps of a path over a registry are taken along the sources of that registry (`Path.Over`).
Roots and steps make such paths and no others. Each step along sources ends at a source of a type
of the model (`Over.hasKind`).
-/

namespace QueryPath

open Logical (Registry Model Source SourceKind PluralSource)

/-- The source of a part of the collection. -/
def Logical.PluralSource.part? (p : PluralSource) : PartNature → Option Source
  | .element => some p.element
  | .index => p.index
  | .identifier => p.identifier

namespace Path

/-- The steps of the path are taken along sources of the registry. -/
inductive Over (r : Registry) : Path → Prop
  | root {entity s v} : r.root entity = .ok s → Over r (.root s v)
  | cteRoot {t v} : Over r (.cteRoot t v)
  | cteColumn {t u name column v} : t.column? name = some column →
      Over r (.cteColumn (.cteRoot t u) column v)
  | member {b s name x plural v} : Over r b → b.source? = some s → s.kind.isNavigable = true →
      r.member? s name = some x → plural = r.plural? s name → Over r (.member b x plural v)
  | treat {b name t} : Over r b → r.managed? name = some t → Over r (.treat b t)
  | part {b s plural v nature x} : Over r (.member b s (some plural) v) →
      plural.part? nature = some x → Over r (.part (.member b s (some plural) v) nature x)

/-- The second path is a part of the collection at the first. -/
inductive PartOf : Path → Path → Prop
  | intro {b s plural v nature x} : plural.part? nature = some x →
      PartOf (.member b s (some plural) v) (.part (.member b s (some plural) v) nature x)

/-! ## Steps -/

section Steps

variable {r : Registry} {p q : Path} {name : String} {v : Option String}

theorem ofEntity_eq_ok {entity : String} (h : ofEntity r entity v = .ok p) :
    ∃ s, r.root entity = .ok s ∧ p = .root s v := by
  unfold ofEntity at h
  split at h
  · rename_i s hs
    cases h
    exact ⟨s, hs, rfl⟩
  · cases h

/-- A step leads to a column of a common table expression or to what a source has under the
name. -/
theorem step_eq_ok (h : p.step r name v = .ok q) :
    (∃ t u c, p = .cteRoot t u ∧ t.column? name = some c ∧ q = .cteColumn p c v) ∨
      ∃ s x, p.source? = some s ∧ s.kind.isNavigable = true ∧ r.member? s name = some x ∧
        q = .member p x (r.plural? s name) v := by
  unfold step at h
  split at h
  · rename_i t u
    cases hc : t.column? name with
    | none =>
      rw [hc] at h
      cases h
    | some c =>
      rw [hc] at h
      cases h
      exact .inl ⟨t, u, c, rfl, hc, rfl⟩
  · cases hs : p.source? with
    | none =>
      rw [hs] at h
      cases h
    | some s =>
      simp only [hs] at h
      split at h
      · rename_i hnav
        cases hx : r.member? s name with
        | none =>
          rw [hx] at h
          cases h
        | some x =>
          rw [hx] at h
          cases h
          exact .inr ⟨s, x, rfl, hnav, hx, rfl⟩
      · cases h

/-- From a path with a source, a name leads to what the source has under it. -/
theorem step_eq {s : Source} (hs : p.source? = some s) : p.step r name v =
    if s.kind.isNavigable then
      match r.member? s name with
      | some x => .ok (.member p x (r.plural? s name) v)
      | none => .error (.unknownAttribute p.text name)
    else .error (.notNavigable p.text) := by
  unfold step
  split
  · cases hs
  · generalize p.source? = found at hs
    subst hs
    rfl

theorem step_member {s x : Source} (hs : p.source? = some s) (hnav : s.kind.isNavigable = true)
    (hx : r.member? s name = some x) :
    p.step r name v = .ok (.member p x (r.plural? s name) v) := by
  rw [step_eq hs, if_pos hnav, hx]

theorem treatAs_eq_ok (h : p.treatAs r name = .ok q) :
    ∃ t, r.managed? name = some t ∧ q = .treat p t := by
  unfold treatAs at h
  split at h
  · rename_i t ht
    cases h
    exact ⟨t, ht, rfl⟩
  · cases h

theorem plural_eq_ok {plural : PluralSource} (h : p.plural = .ok plural) :
    ∃ b s u, p = .member b s (some plural) u := by
  unfold Path.plural at h
  split at h
  · cases h
    exact ⟨_, _, _, rfl⟩
  · cases h

theorem element_eq_ok : p.element = .ok q ↔
    ∃ plural, p.plural = .ok plural ∧ q = .part p .element plural.element := by
  unfold element
  cases p.plural <;> simp [Except.map, eq_comm]

theorem index_eq_ok : p.index = .ok q ↔
    ∃ plural x, p.plural = .ok plural ∧ plural.index = some x ∧ q = .part p .index x := by
  unfold index
  cases p.plural with
  | error e => simp
  | ok plural => cases hx : plural.index <;> simp [hx, eq_comm]

theorem collectionId_eq_ok : p.collectionId = .ok q ↔
    ∃ plural x, p.plural = .ok plural ∧ plural.identifier = some x ∧ q = .part p .identifier x := by
  unfold collectionId
  cases p.plural with
  | error e => simp
  | ok plural => cases hx : plural.identifier <;> simp [hx, eq_comm]

theorem partOf_of_plural {plural : PluralSource} (h : p.plural = .ok plural) {nature : PartNature}
    {x : Source} (hx : plural.part? nature = some x) : PartOf p (.part p nature x) := by
  obtain ⟨b, s, u, rfl⟩ := plural_eq_ok h
  exact .intro hx

theorem partOf_of_element (h : p.element = .ok q) : PartOf p q := by
  obtain ⟨plural, hp, rfl⟩ := element_eq_ok.1 h
  exact partOf_of_plural hp rfl

theorem partOf_of_index (h : p.index = .ok q) : PartOf p q := by
  obtain ⟨plural, x, hp, hx, rfl⟩ := index_eq_ok.1 h
  exact partOf_of_plural hp hx

theorem partOf_of_collectionId (h : p.collectionId = .ok q) : PartOf p q := by
  obtain ⟨plural, x, hp, hx, rfl⟩ := collectionId_eq_ok.1 h
  exact partOf_of_plural hp hx

end Steps

/-! ## Paths made of steps -/

namespace Over

variable {r : Registry} {p q : Path}

theorem step (hp : p.Over r) {name : String} {v : Option String} (h : p.step r name v = .ok q) :
    q.Over r := by
  rcases step_eq_ok h with ⟨t, u, c, rfl, hc, rfl⟩ | ⟨s, x, hs, hnav, hx, rfl⟩
  · exact .cteColumn hc
  · exact .member hp hs hnav hx rfl

theorem treatAs (hp : p.Over r) {name : String} (h : p.treatAs r name = .ok q) : q.Over r := by
  obtain ⟨t, ht, rfl⟩ := treatAs_eq_ok h
  exact .treat hp ht

theorem partOf (hp : p.Over r) (h : PartOf p q) : q.Over r := by
  cases h with
  | intro hx => exact .part hp hx

/-- The parts of a collection that a path stands for come from the registry. -/
theorem exists_plural? (hp : p.Over r) {plural : PluralSource} (h : p.plural = .ok plural) :
    ∃ parent name, r.plural? parent name = some plural := by
  obtain ⟨b, s, u, rfl⟩ := plural_eq_ok h
  cases hp with
  | member _ _ _ _ hplural => exact ⟨_, _, hplural.symm⟩

theorem base (hp : p.Over r) {b : Path} (hb : p.base? = some b) : b.Over r := by
  cases hp with
  | root => cases hb
  | cteRoot => cases hb
  | cteColumn =>
    cases hb
    exact .cteRoot
  | member h =>
    cases hb
    exact h
  | treat h =>
    cases hb
    exact h
  | part h =>
    cases hb
    exact h

end Over

/-! ## Types of sources -/

section Types

open Logical

variable {m : Model} (regular : m.Regular) {r : Registry} (hr : m.registry = .ok r)

include regular hr

/-- The source of a managed type is one of a type of the model. -/
theorem hasKind_of_managed? {name : String} {s : Source} (h : r.managed? name = some s) :
    m.HasKind s.type none s.kind := by
  obtain ⟨id, bindable, -, hs⟩ := managed?_eq_some regular hr h
  obtain ⟨-, htype, hkind, -⟩ := Model.source_info hs
  exact htype ▸ hkind

/-- So is what a name leads to from there. -/
theorem hasKind_of_member? {s x : Source} {name : String} {stored : Option Kind}
    (hs : m.HasKind s.type stored s.kind) (h : r.member? s name = some x) :
    ∃ stored, m.HasKind x.type stored x.kind := by
  have attr : (r.attribute? s name).map (·.source) = some x →
      ∃ stored, m.HasKind x.type stored x.kind := by
    intro h
    obtain ⟨y, hy, rfl⟩ := Option.map_eq_some_iff.1 h
    obtain ⟨a, -, -, refines, ha⟩ := attribute?_eq_some regular hr hy
    obtain ⟨-, htype, hkind, -⟩ := Model.source_info (Model.attributeSource_eq_ok.1 ha).1
    exact ⟨_, htype ▸ hkind⟩
  unfold Registry.member? at h
  split at h
  · cases h
  · rename_i discriminator key hk
    rw [hk] at hs
    have ht := hs.any
    have part : ∀ {n k}, m.anyPart n k = .ok x → ∃ stored, m.HasKind x.type stored x.kind := by
      intro n k hx
      obtain ⟨id, hid, rfl⟩ := Model.anyPart_eq_ok.1 hx
      refine ⟨none, ?_⟩
      rw [Model.HasKind, show (Source.plain _).type = id from rfl, Draft.typeAt?_of_findBasic? hid]
      rfl
    rcases anyPart?_eq_some regular hr ht h with ⟨-, hx⟩ | ⟨-, hx⟩
    · exact part hx
    · exact part hx
  · exact attr h

/-- So are the parts of the collection that a name leads to. -/
theorem hasKind_of_plural? {s x : Source} {name : String} {plural : PluralSource}
    (h : r.plural? s name = some plural) {nature : PartNature} (hx : plural.part? nature = some x) :
    ∃ stored, m.HasKind x.type stored x.kind := by
  obtain ⟨a, -, -, c, index, source, -, hmade⟩ := plural?_eq_some regular hr h
  obtain ⟨-, -, helement, hindex, hidentifier⟩ := Model.pluralSource_eq_ok.1 hmade
  have of_source : ∀ {n type stored b g}, m.source n none type stored b g = .ok x →
      ∃ stored, m.HasKind x.type stored x.kind := by
    intro n type stored b g hs
    obtain ⟨-, htype, hkind, -⟩ := Model.source_info hs
    exact ⟨stored, htype ▸ hkind⟩
  cases nature with
  | element =>
    cases hx
    exact of_source helement
  | index =>
    rw [show plural.index = some x from hx] at hindex
    obtain ⟨i, -, hi⟩ := Model.index_eq_ok hindex
    exact of_source hi
  | identifier =>
    rw [show plural.identifier = some x from hx] at hidentifier
    obtain ⟨-, id, -, hid⟩ := Model.identifierSource_eq_ok hidentifier
    exact of_source hid

/-- The last source of a path is one of a type of the model. -/
theorem Over.hasKind {p : Path} (hp : p.Over r) {s : Source} (hs : p.source? = some s) :
    ∃ stored, m.HasKind s.type stored s.kind := by
  induction hp generalizing s with
  | root h =>
    cases hs
    exact ⟨none, hasKind_of_managed? regular hr (root_eq_ok h).1⟩
  | cteRoot => cases hs
  | cteColumn => cases hs
  | member _ hbase _ hx _ ih =>
    cases hs
    obtain ⟨stored, hkind⟩ := ih hbase
    exact hasKind_of_member? regular hr hkind hx
  | treat _ h =>
    cases hs
    exact ⟨none, hasKind_of_managed? regular hr h⟩
  | part hbase hx _ =>
    cases hs
    cases hbase with
    | member _ _ _ _ hplural => exact hasKind_of_plural? regular hr hplural.symm hx

end Types

end Path

end QueryPath
