import QueryPath.Proofs.Catalog.Visible
import QueryPath.Proofs.Path.Over
import QueryPath.Proofs.Path.Text

/-!
# Names in a catalog

Where a definition uses identifiers of path expressions for its names, sources have identifiers for
their names, too, but for the columns of associations to any entity, whose reserved names are no
more part of a path text than identifiers are. No source has the reserved name of a part of a
collection (`member?_name`).
-/

namespace QueryPath

open QueryPath.Expr (IsIdentifier)
open Logical (TypeId Source SourceKind)

/-- Types and attributes, the identifiers of entities included, have names that path expressions
can spell. -/
structure Definition.Spellable (d : Definition String) : Prop where
  types : ∀ n ∈ d.typeNames, IsIdentifier n
  attributes : ∀ x ∈ d.declarations (·.name), IsIdentifier x.2

instance (d : Definition String) : Decidable d.Spellable :=
  decidable_of_iff ((∀ n ∈ d.typeNames, IsIdentifier n) ∧
    ∀ x ∈ d.declarations (·.name), IsIdentifier x.2) ⟨fun h => ⟨h.1, h.2⟩, fun h => ⟨h.1, h.2⟩⟩

/-! ## Reserved names -/

theorem Expr.IsIdentifier.ne_identifierName {n : String} (h : IsIdentifier n) :
    n ≠ identifierName := by
  rintro rfl
  exact absurd h (by decide)

theorem Expr.IsIdentifier.ofName?_eq_none {n : String} (h : IsIdentifier n) :
    PartNature.ofName? n = none := by
  cases hn : PartNature.ofName? n with
  | none => rfl
  | some nature =>
    rw [← PartNature.ofName?_eq_some_iff.1 hn] at h
    cases nature <;> exact absurd h (by decide)

/-- A name that a step along sources can have. -/
def IsMemberName (n : String) : Prop := IsIdentifier n ∨ n = discriminatorName ∨ n = keyName

theorem IsMemberName.separable {n : String} (h : IsMemberName n) : Separable n := by
  rcases h with h | rfl | rfl
  · exact h.separable
  · decide
  · decide

theorem IsMemberName.ofName?_eq_none {n : String} (h : IsMemberName n) :
    PartNature.ofName? n = none := by
  rcases h with h | rfl | rfl
  · exact h.ofName?_eq_none
  · decide
  · decide

/-! ## Names of sources -/

namespace Catalog.MadeFrom

open Definition (Attribute)

variable {c : Catalog} {d : Definition Attribute} {uses : Definition.Uses}
  (made : c.MadeFrom d uses) (spellable : d.outline.Spellable)

include made spellable

theorem isIdentifier_managed? {n : String} {s : Source} (h : c.registry.managed? n = some s) :
    s.name = n ∧ IsIdentifier n := by
  obtain ⟨id, bindable, hid, hs⟩ := Logical.managed?_eq_some made.regular made.registry h
  refine ⟨(Logical.Model.source_info hs).1, spellable.types n ?_⟩
  obtain ⟨t, -, hmem, hn⟩ := made.drafted.typeAt?_of_find? hid
  rw [Definition.outline, Definition.typeNames_map, ← Definition.declaredTypes_name]
  have hb := (Definition.declaredName?_of_mem hmem).1
  rw [Logical.DomainType.declaredName?_bare, hn, Option.some.injEq] at hb
  exact List.mem_map.2 ⟨_, hmem, hb.symm⟩

omit made in
theorem isIdentifier_member {n : String} {a : Attribute} (ha : a ∈ d.members n) :
    IsIdentifier a.name := by
  apply spellable.attributes (n, a.name)
  rw [Definition.outline]
  have hdecl := Definition.declarations_map Attribute.name d Definition.Identifier.attribute
  rw [show Attribute.name ∘ Definition.Identifier.attribute = (·.name) from rfl] at hdecl
  rw [hdecl]
  exact List.mem_map.2 ⟨_, Definition.mem_members.1 ha, rfl⟩

theorem isIdentifier_attribute {id : TypeId} {y : TypeId × Logical.Attribute}
    (hy : y ∈ c.logical.attributesOf id) : IsIdentifier y.2.name := by
  obtain ⟨t, a⟩ := y
  obtain ⟨-, ha⟩ := Logical.Draft.mem_attributesOf.1 hy
  by_cases hn : ∃ n, c.logical.find? n = some t
  · obtain ⟨n, hn⟩ := hn
    obtain ⟨b, hb, hbec⟩ := exists_mem_of_forall₂' (made.drafted.attributes n t hn) ha
    exact hbec.name_eq ▸ isIdentifier_member spellable hb
  · rw [(made.drafted.unnamed made.checked fun n hid => hn ⟨n, hid⟩).2] at ha
    cases ha

/-- The source that a name leads to has that name, or one of the reserved names of the columns of
an association to any entity. -/
theorem member?_name {s x : Source} {n : String} (h : c.registry.member? s n = some x) :
    (x.name = n ∧ IsIdentifier n ∧ ∃ y, c.registry.attribute? s n = some y ∧ y.source = x) ∨
      (∃ k₁ k₂, s.kind = .any k₁ k₂) ∧ c.registry.anyPart? s n = some x := by
  have attr : (c.registry.attribute? s n).map (·.source) = some x →
      x.name = n ∧ IsIdentifier n ∧ ∃ y, c.registry.attribute? s n = some y ∧ y.source = x := by
    intro h
    obtain ⟨y, hy, rfl⟩ := Option.map_eq_some_iff.1 h
    obtain ⟨a, ha, rfl, refines, hsource⟩ :=
      Logical.attribute?_eq_some made.regular made.registry hy
    exact ⟨(Logical.Model.source_info (Logical.Model.attributeSource_eq_ok.1 hsource).1).1,
      made.isIdentifier_attribute spellable ha, y, hy, rfl⟩
  unfold Logical.Registry.member? at h
  split at h
  · cases h
  · rename_i k₁ k₂ hk
    exact .inr ⟨⟨k₁, k₂, hk⟩, h⟩
  · exact .inl (attr h)

theorem isMemberName_member? {s x : Source} {stored : Option Kind} {n : String}
    (hs : c.logical.HasKind s.type stored s.kind) (h : c.registry.member? s n = some x) :
    IsMemberName x.name := by
  rcases made.member?_name spellable h with ⟨rfl, hn, -⟩ | ⟨⟨k₁, k₂, hk⟩, hx⟩
  · exact .inl hn
  · rw [hk] at hs
    rcases Logical.anyPart?_eq_some made.regular made.registry hs.any hx with ⟨-, hx⟩ | ⟨-, hx⟩
    · exact .inr (.inl (Logical.Model.anyPart_name hx))
    · exact .inr (.inr (Logical.Model.anyPart_name hx))

/-- The name of a source leads to that source, whatever name has led to it. -/
theorem member?_self {s x : Source} {stored : Option Kind} {n : String}
    (hs : c.logical.HasKind s.type stored s.kind) (h : c.registry.member? s n = some x) :
    c.registry.member? s x.name = some x ∧
      c.registry.plural? s x.name = c.registry.plural? s n := by
  rcases made.member?_name spellable h with ⟨rfl, -⟩ | ⟨⟨k₁, k₂, hk⟩, hx⟩
  · exact ⟨h, rfl⟩
  · have hnone : ∀ n, c.registry.attribute? s n = none := fun n =>
      Logical.attribute?_any made.regular made.registry (hk ▸ hs).any
    have hname : (if (x.name == "id") = true then keyName else x.name) = x.name := by
      rw [Logical.anyPart?_name hx]
      split <;> simp_all
    refine ⟨?_, by simp only [Logical.Registry.plural?, hnone]⟩
    simp only [Logical.Registry.member?, hk]
    rw [Logical.Registry.anyPart?, hname, Logical.anyPart?_name hx]
    exact hx

end Catalog.MadeFrom

end QueryPath
