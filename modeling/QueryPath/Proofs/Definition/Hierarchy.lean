import QueryPath.Proofs.Definition.Check

/-!
# What lies above an entity

The chain of an entity begins with the entity, goes on with the mapped supertypes between it and
the nearest entity above it, and then is the chain of that entity (`exists_segments`). The bounded
walks of a definition find just these parts of it.
-/

namespace QueryPath.Definition

/-- The types have different names, and every supertype is an entity or a mapped supertype. -/
structure WellNamed {α : Type} (d : Definition α) : Prop where
  nodup_typeNames : d.typeNames.Nodup
  isExtensible : ∀ n s, d.supertypeOf? n = some s → d.isExtensible s = true

theorem Checked.wellNamed {d : Definition Attribute} (checked : Checked d) : WellNamed d :=
  ⟨checked.nodup_typeNames, checked.isExtensible⟩

section Names

variable {α : Type} {d : Definition α} {n s : String}

theorem isExtensible_iff : d.isExtensible n = true ↔
    n ∈ d.entities.map (·.name) ++ d.mappedSupertypes.map (·.name) := by
  simp [isExtensible, entity?, mappedSupertype?, List.find?_isSome]

theorem isExtensible_of_supertypeOf? (h : d.supertypeOf? n = some s) :
    d.isExtensible n = true := by
  rw [isExtensible, Bool.or_eq_true]
  unfold supertypeOf? at h
  split at h
  · rename_i e he
    exact .inl (by rw [he]; rfl)
  · obtain ⟨x, hx, -⟩ := Option.bind_eq_some_iff.1 h
    exact .inr (by rw [hx]; rfl)

theorem mem_typeNames_of_supertypeOf? (h : d.supertypeOf? n = some s) : n ∈ d.typeNames :=
  isExtensible_mem (isExtensible_of_supertypeOf? h)

theorem wellNamed_iff : WellNamed d ↔
    d.typeNames.Nodup ∧ ∀ n ∈ d.typeNames, (d.supertypeOf? n).all d.isExtensible = true := by
  constructor
  · intro named
    refine ⟨named.nodup_typeNames, fun n _ => ?_⟩
    rw [Option.all_eq_true_iff_get]
    exact fun h => named.isExtensible n _ (Option.some_get h).symm
  · rintro ⟨nodup, hall⟩
    refine ⟨nodup, fun n s h => ?_⟩
    have hn := hall n (mem_typeNames_of_supertypeOf? h)
    rwa [h] at hn

instance : Decidable (WellNamed d) := decidable_of_iff _ wellNamed_iff.symm

/-- There is no circle if the way up from each type ends within a bound. -/
theorem acyclic_of_upTo {k : Nat}
    (h : ∀ n ∈ d.typeNames, (upTo d.supertypeOf? (k + 1) n).length ≤ k) :
    Acyclic d.supertypeOf? := by
  refine acyclic_of_walks fun n => ?_
  cases hs : d.supertypeOf? n with
  | none => exact ⟨[n], .stop hs⟩
  | some s => exact ⟨_, walk_upTo (h n (mem_typeNames_of_supertypeOf? hs))⟩

end Names

section Walks

/-- Without cycles there is a walk from each type to the top. -/
theorem exists_walk_supertypes {α : Type} {d : Definition α} (named : WellNamed d)
    (acyclic : Acyclic d.supertypeOf?) {n : String} (hn : n ∈ d.typeNames) :
    ∃ l, Walk d.supertypeOf? n l ∧ l.length ≤ d.typeNames.length :=
  exists_walk (fun a b h => isExtensible_mem (named.isExtensible a b h)) hn
    (acyclic.not_revisits n)

variable {d : Definition Attribute}

theorem supertypeOf?_outline (d : Definition Attribute) :
    d.outline.supertypeOf? = d.supertypeOf? :=
  supertypeOf?_map Attribute.name d

/-- The names of attributes along a chain differ. -/
theorem nodup_chain (distinct : DistinctNames d.outline) {n : String}
    (hn : n ∈ d.typeNames) {l : List String} (hl : Walk d.supertypeOf? n l) :
    ((l.flatMap d.members).map (·.name)).Nodup := by
  have hnodup := distinct.chain n (by rwa [outline, typeNames_map]) l
    (by rwa [supertypeOf?_outline])
  have hnames : d.outline.memberNames = fun n => (d.members n).map (·.name) :=
    funext (memberNames_outline d)
  rwa [List.map_flatMap, ← hnames]

theorem nodup_members (checked : Checked d) (acyclic : Acyclic d.supertypeOf?)
    (distinct : DistinctNames d.outline) {n : String} (hn : n ∈ d.typeNames) :
    ((d.members n).map (·.name)).Nodup := by
  obtain ⟨l, hl, -⟩ := exists_walk_supertypes checked.wellNamed acyclic hn
  have hnodup := nodup_chain distinct hn hl
  obtain ⟨t, rfl⟩ := hl.head
  rw [List.flatMap_cons, List.map_append] at hnodup
  exact (List.nodup_append.1 hnodup).1

end Walks

/-- The chain of an entity, which is empty where there is no entity. -/
def ChainOf {α : Type} (d : Definition α) : Option (Entity α) → List String → Prop
  | none, l => l = []
  | some e, l => e ∈ d.entities ∧ Walk d.supertypeOf? e.name l

section Segments

variable {α : Type} {d : Definition α} (named : WellNamed d)

include named

theorem supertypeOf?_entity {e : Entity α} (he : e ∈ d.entities) :
    d.supertypeOf? e.name = e.supertype := by
  simp [supertypeOf?, entity?_of_mem named.nodup_typeNames he]

/-- From a type on upwards: mapped supertypes, and then nothing or an entity with all above it. -/
theorem exists_segments_from {s : String} {l : List String} (hl : Walk d.supertypeOf? s l)
    (hs : d.isExtensible s = true) :
    ∃ (above : List (MappedSupertype α)) (next : Option (Entity α))
      (rest : List String), l = above.map (·.name) ++ rest ∧ (∀ x ∈ above, x ∈ d.mappedSupertypes) ∧
      (∀ n, above.length < n → d.mappedUpTo n s = above ∧ d.entityUpTo n s = next) ∧
      d.ChainOf next rest := by
  induction hl with
  | @stop s hstop =>
    cases he : d.entity? s with
    | some e =>
      obtain ⟨hmem, rfl⟩ := entity?_mem he
      refine ⟨[], some e, [e.name], rfl, by simp, fun n hn => ?_, hmem, .stop hstop⟩
      obtain ⟨k, rfl⟩ := Nat.exists_eq_succ_of_ne_zero (Nat.ne_of_gt hn)
      have hnone := mappedSupertype?_of_entity named.nodup_typeNames hmem
      simp [mappedUpTo, entityUpTo, he, hnone]
    | none =>
      obtain ⟨x, hx⟩ : ∃ x, d.mappedSupertype? s = some x := by
        simpa [isExtensible, he, Option.isSome_iff_exists] using hs
      obtain ⟨hmem, rfl⟩ := mappedSupertype?_mem hx
      have hsuper : x.supertype = none := by simpa [supertypeOf?, he, hx] using hstop
      refine ⟨[x], none, [], rfl, by simpa, fun n hn => ?_, rfl⟩
      obtain ⟨k, rfl⟩ := Nat.exists_eq_succ_of_ne_zero (Nat.ne_zero_of_lt hn)
      simp [mappedUpTo, entityUpTo, he, hx, hsuper]
  | @step s s' l hstep hl ih =>
    cases he : d.entity? s with
    | some e =>
      obtain ⟨hmem, rfl⟩ := entity?_mem he
      refine ⟨[], some e, _, rfl, by simp, fun n hn => ?_, hmem, .step hstep hl⟩
      obtain ⟨k, rfl⟩ := Nat.exists_eq_succ_of_ne_zero (Nat.ne_of_gt hn)
      have hnone := mappedSupertype?_of_entity named.nodup_typeNames hmem
      simp [mappedUpTo, entityUpTo, he, hnone]
    | none =>
      obtain ⟨x, hx⟩ : ∃ x, d.mappedSupertype? s = some x := by
        simpa [isExtensible, he, Option.isSome_iff_exists] using hs
      have hsuper : x.supertype = some s' := by simpa [supertypeOf?, he, hx] using hstep
      obtain ⟨above, next, rest, rfl, hmapped, hupTo, hnext⟩ :=
        ih (named.isExtensible s s' hstep)
      obtain ⟨hmem, rfl⟩ := mappedSupertype?_mem hx
      refine ⟨x :: above, next, rest, rfl, List.forall_mem_cons.2 ⟨hmem, hmapped⟩, fun n hn => ?_,
        hnext⟩
      obtain ⟨k, rfl⟩ := Nat.exists_eq_succ_of_ne_zero (Nat.ne_zero_of_lt hn)
      obtain ⟨hm, hen⟩ := hupTo k (by simpa using hn)
      simp [mappedUpTo, entityUpTo, he, hx, hsuper, hm, hen]

/-- The chain of an entity by its parts. -/
theorem exists_segments (acyclic : Acyclic d.supertypeOf?) {e : Entity α}
    (he : e ∈ d.entities) :
    ∃ rest, Walk d.supertypeOf? e.name
        (e.name :: (d.flattened e).reverse.map (·.name) ++ rest) ∧
      (∀ x ∈ d.flattened e, x ∈ d.mappedSupertypes) ∧ d.ChainOf (d.nearestEntity? e) rest := by
  have hmem : e.name ∈ d.typeNames := mem_typeNames_of_entity he
  obtain ⟨l, hl, -⟩ := exists_walk_supertypes named acyclic hmem
  have hnodup := hl.nodup
  cases hl with
  | stop hstop =>
    rw [supertypeOf?_entity named he] at hstop
    refine ⟨[], ?_, ?_, ?_⟩
    · simpa [flattened, hstop] using Walk.stop ((supertypeOf?_entity named he).trans hstop)
    · simp [flattened, hstop]
    · simp [nearestEntity?, hstop, ChainOf]
  | @step _ s l hstep hl =>
    obtain ⟨above, next, rest, rfl, hmapped, hupTo, hnext⟩ :=
      exists_segments_from named hl (named.isExtensible _ s hstep)
    have hlen : above.length ≤ d.mappedSupertypes.length := by
      rw [List.nodup_cons, List.nodup_append] at hnodup
      have hsub : above ⊆ d.mappedSupertypes := fun x hx => hmapped x hx
      exact ((List.Nodup.of_map _ hnodup.2.1).subperm hsub).length_le
    obtain ⟨hm, hen⟩ := hupTo (d.mappedSupertypes.length + 1) (Nat.lt_succ_of_le hlen)
    have hsuper : e.supertype = some s := (supertypeOf?_entity named he).symm.trans hstep
    have hflat : d.flattened e = above.reverse := by simp [flattened, hsuper, hm]
    have hnear : d.nearestEntity? e = next := by simp [nearestEntity?, hsuper, hen]
    rw [hflat, hnear, List.reverse_reverse]
    exact ⟨rest, .step hstep hl, fun x hx => hmapped x (List.mem_reverse.1 hx), hnext⟩

end Segments

end QueryPath.Definition
