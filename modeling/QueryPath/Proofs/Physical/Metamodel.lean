import QueryPath.Physical.Part
import QueryPath.Proofs.Outcome
import QueryPath.Proofs.Walk

/-!
# How metamodels grow

Entities are declared under names that differ and keep their names and tables; what changes is
found by the name of the entity (`entity?_modifyEntity`). Uses of embeddables are only added, and
only the one that was added last gets mappings.
-/

namespace QueryPath.Physical

namespace Metamodel

variable {m : Metamodel} {name : String}

/-! ## Entities -/

/-- The names of the entities. -/
def entityNames (m : Metamodel) : List String := m.entities.map (·.name)

theorem entity?_name {e : Entity} (h : m.entity? name = some e) : e.name = name := by
  simpa using List.find?_some h

theorem entity?_isSome : (m.entity? name).isSome = true ↔ name ∈ m.entityNames := by
  simp [entity?, entityNames]

theorem entity_eq_ok {e : Entity} : m.entity name = .ok e ↔ m.entity? name = some e := by
  unfold entity
  cases m.entity? name <;> simp

section Modify

variable {f : Entity → Entity} (hf : ∀ e, (f e).name = e.name)

include hf

theorem entityNames_modifyEntity : (m.modifyEntity name f).entityNames = m.entityNames := by
  simp only [entityNames, modifyEntity, List.map_map]
  apply List.map_congr_left
  intro e _
  simp only [Function.comp_apply]
  split
  · exact hf e
  · rfl

/-- What an entity becomes is found under its name. -/
theorem entity?_modifyEntity (n : String) :
    (m.modifyEntity name f).entity? n =
      (m.entity? n).map fun e => if e.name = name then f e else e := by
  simp only [entity?, modifyEntity, List.find?_map]
  have hpred : (fun e : Entity => e.name == n) ∘ (fun e => if e.name == name then f e else e) =
      fun e => e.name == n := by
    funext e
    simp only [Function.comp_apply]
    split <;> simp [hf]
  rw [hpred]
  simp only [beq_iff_eq]

theorem tableOf_modifyEntity (m : Metamodel) (name : String) (ht : ∀ e, (f e).table = e.table) :
    (m.modifyEntity name f).tableOf = m.tableOf := by
  funext n
  rw [tableOf, entity?_modifyEntity hf, tableOf]
  cases m.entity? n with
  | none => rfl
  | some e =>
    simp only [Option.map_some, Option.getD_some]
    split
    · exact ht e
    · rfl

end Modify

/-- Putting an entity under another changes the two and no more. -/
theorem setSupertype_spec {n s : String} (hn : n ∈ m.entityNames) (hs : s ∈ m.entityNames) :
    ∃ m', m.setSupertype n s = .ok m' ∧ m'.entityNames = m.entityNames ∧ m'.usages = m.usages ∧
      ∀ k x, m.entity? k = some x → m'.entity? k = some { x with
        supertype := if k = n then some s else x.supertype
        subtypes := if s = k then x.subtypes ++ [n] else x.subtypes } := by
  obtain ⟨x, hx⟩ := Option.isSome_iff_exists.1 (entity?_isSome.2 hn)
  obtain ⟨y, hy⟩ := Option.isSome_iff_exists.1 (entity?_isSome.2 hs)
  refine ⟨_, bind_eq_ok.2 ⟨x, entity_eq_ok.2 hx, bind_eq_ok.2
    ⟨y, entity_eq_ok.2 hy, rfl⟩⟩, ?_, rfl, fun k z hz => ?_⟩
  · rw [entityNames_modifyEntity, entityNames_modifyEntity] <;>
      exact fun _ => rfl
  · rw [entity?_modifyEntity, entity?_modifyEntity, hz]
    rotate_left
    · exact fun _ => rfl
    · exact fun _ => rfl
    have hname := entity?_name hz
    subst hname
    simp only [Option.map_some, Option.some.injEq]
    by_cases h₁ : z.name = n
    · simp only [if_pos h₁]
      by_cases h₂ : s = z.name
      · simp only [if_pos h₂, if_pos h₂.symm]
      · simp only [if_neg h₂, if_neg (Ne.symm h₂)]
    · simp only [if_neg h₁]
      by_cases h₂ : s = z.name
      · simp only [if_pos h₂, if_pos h₂.symm]
      · simp only [if_neg h₂, if_neg (Ne.symm h₂)]

/-- A mapping is added to a known entity unless its name is taken. -/
theorem addMapping_eq_ok {e : Entity} {mapping : Mapping} (he : m.entity? name = some e)
    (hn : mapping.name ∉ e.mappings.map Mapping.name) :
    m.addMapping name mapping =
      .ok (m.modifyEntity name fun e => { e with mappings := e.mappings ++ [mapping] }) := by
  have hdecl : e.declared? mapping.name = none := by
    refine List.find?_eq_none.2 fun x hx hxn => hn ?_
    exact List.mem_map.2 ⟨x, hx, by simpa using hxn⟩
  rw [addMapping, entity_eq_ok.2 he]
  simp only [bind, Except.bind, hdecl]
  rfl

/-! ## Uses of embeddables -/

theorem addUsageMapping_eq_ok {id : UsageId} {u : Usage} {mapping : Mapping}
    (hu : m.usage? id = some u) (hn : mapping.name ∉ u.mappings.map Mapping.name) :
    m.addUsageMapping id mapping = .ok { m with
      usages := m.usages.modify id fun u => { u with mappings := u.mappings ++ [mapping] } } := by
  have hdecl : u.mapping? mapping.name = none := by
    refine List.find?_eq_none.2 fun x hx hxn => hn ?_
    exact List.mem_map.2 ⟨x, hx, by simpa using hxn⟩
  rw [addUsageMapping, hu]
  simp only [hdecl]

end Metamodel

end QueryPath.Physical
