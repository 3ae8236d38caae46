import QueryPath.Proofs.Definition.Tables

/-!
# Guards of the walks

The walks up a hierarchy end because each has a number of steps to spend. As loops they have no
such number but a guard: the walk for a table remembers the names it has seen, the walk for an
entity counts the types it has passed, and the walk over mapped supertypes looks at how many it
holds. The bodies of these loops are `tablePass`, `nearestPass` and `flattenedPass`.

Each loop ends with what its walk finds, whether or not some type is above itself
(`runs_tablePass`, `runs_nearestPass`, `runs_flattenedPass`). Where no type is, the walks find what
the whole chain of an entity has to offer, so that no guard has cut it short
(`exactAt_of_acyclic`).
-/

namespace QueryPath.Definition

variable {α : Type} (d : Definition α)

/-- One pass of the walk for a table, with the names that have been seen. -/
def tablePass : List String × Option String → Option String ⊕ List String × Option String
  | (_, none) => .inl none
  | (seen, some name) =>
      if name ∈ seen then .inl none
      else match d.ownTable? name with
        | some table => .inl (some table)
        | none => .inr (name :: seen, d.supertypeOf? name)

/-- One pass of the walk for the nearest entity, with the number of types that have been passed. -/
def nearestPass : Nat × Option String → Option (Entity α) ⊕ Nat × Option String
  | (_, none) => .inl none
  | (steps, some name) =>
      match d.entity? name with
      | some e => .inl (some e)
      | none =>
          if d.mappedSupertypes.length < steps + 1 then .inl none
          else .inr (steps + 1, (d.mappedSupertype? name).bind (·.supertype))

/-- One pass of the walk over mapped supertypes, with those that have been found. -/
def flattenedPass : List (MappedSupertype α) × Option String →
    List (MappedSupertype α) ⊕ List (MappedSupertype α) × Option String
  | (chain, none) => .inl chain.reverse
  | (chain, some name) =>
      match d.mappedSupertype? name with
      | some s =>
          if chain.length ≤ d.mappedSupertypes.length then .inr (chain ++ [s], s.supertype)
          else .inl chain.reverse
      | none => .inl chain.reverse

variable {d}

/-! ## Counted steps -/

/-- The loop may pass as many types as there are mapped supertypes, and looks at one more. -/
theorem runs_nearestPass {n steps : Nat} (hn : n + steps = d.mappedSupertypes.length)
    (current : Option String) :
    Runs d.nearestPass (steps, current) (current.bind (d.entityUpTo (n + 1))) := by
  induction n generalizing steps current with
  | zero =>
    cases current with
    | none => exact .done rfl
    | some name =>
      have hlast : d.mappedSupertypes.length < steps + 1 := by omega
      refine .done ?_
      cases he : d.entity? name <;> simp [nearestPass, entityUpTo, he, hlast]
  | succ n ih =>
    cases current with
    | none => exact .done rfl
    | some name =>
      cases he : d.entity? name with
      | some e => exact .done (by simp [nearestPass, entityUpTo, he])
      | none =>
        have hmore : ¬ d.mappedSupertypes.length < steps + 1 := by omega
        have hpass : d.nearestPass (steps, some name) =
            .inr (steps + 1, (d.mappedSupertype? name).bind (·.supertype)) := by
          simp only [nearestPass, he, hmore, if_false]
        rw [Option.bind_some, entityUpTo, he]
        exact .more hpass (ih (by omega) _)

/-- The loop may find as many mapped supertypes as there are, and one more. -/
theorem runs_flattenedPass {n : Nat} {chain : List (MappedSupertype α)}
    (hn : n + chain.length = d.mappedSupertypes.length + 1) (current : Option String) :
    Runs d.flattenedPass (chain, current)
      (chain ++ (current.map (d.mappedUpTo n)).getD []).reverse := by
  induction n generalizing chain current with
  | zero =>
    have hlast : ¬ chain.length ≤ d.mappedSupertypes.length := by omega
    refine .done ?_
    cases current with
    | none => simp [flattenedPass]
    | some name =>
      cases hs : d.mappedSupertype? name <;> simp [flattenedPass, mappedUpTo, hs, hlast]
  | succ n ih =>
    cases current with
    | none => exact .done (by simp [flattenedPass])
    | some name =>
      cases hs : d.mappedSupertype? name with
      | none => exact .done (by simp [flattenedPass, mappedUpTo, hs])
      | some s =>
        have hmore : chain.length ≤ d.mappedSupertypes.length := by omega
        have hpass : d.flattenedPass (chain, some name) = .inr (chain ++ [s], s.supertype) := by
          simp only [flattenedPass, hs, hmore, if_true]
        have hlen : n + (chain ++ [s]).length = d.mappedSupertypes.length + 1 := by
          rw [List.length_append, List.length_singleton]
          omega
        have hnext := ih hlen s.supertype
        rw [List.append_assoc, List.singleton_append] at hnext
        simp only [Option.map_some, Option.getD_some, mappedUpTo, hs]
        exact .more hpass hnext

/-! ## Names that have been seen -/

/-- The names that the walk for a table has seen on its way to the current one. Each belongs to an
entity or a mapped supertype without a table and led to the next. -/
structure Seen (d : Definition α) (seen : List String) (current : Option String) : Prop where
  nodup : seen.Nodup
  isExtensible : ∀ n ∈ seen, d.isExtensible n = true
  ownTable? : ∀ n ∈ seen, d.ownTable? n = none
  leads : ∀ n ∈ seen, ∀ s, d.supertypeOf? n = some s → s ∈ seen ∨ current = some s

namespace Seen

variable {seen : List String} {current : Option String} {name : String}

theorem nil : d.Seen [] current := ⟨.nil, nofun, nofun, nofun⟩

/-- A name without a table that leads on has been seen next. -/
theorem cons (h : d.Seen seen (some name)) (hnew : name ∉ seen) (hown : d.ownTable? name = none)
    {s : String} (hs : d.supertypeOf? name = some s) : d.Seen (name :: seen) (some s) where
  nodup := List.nodup_cons.2 ⟨hnew, h.nodup⟩
  isExtensible := List.forall_mem_cons.2 ⟨isExtensible_of_supertypeOf? hs, h.isExtensible⟩
  ownTable? := List.forall_mem_cons.2 ⟨hown, h.ownTable?⟩
  leads := by
    refine List.forall_mem_cons.2 ⟨fun t ht => .inr (hs.symm.trans ht), fun n hn t ht => .inl ?_⟩
    rcases h.leads n hn t ht with ht | ht
    · exact List.mem_cons_of_mem _ ht
    · exact Option.some.inj ht ▸ List.mem_cons_self

/-- From a name that is seen again there is no way to a table. -/
theorem tableUpTo_eq_none (h : d.Seen seen (some name)) (hname : name ∈ seen) (n : Nat) :
    d.tableUpTo n name = none := by
  have closed : ∀ x ∈ seen, ∀ s, d.supertypeOf? x = some s → s ∈ seen := by
    intro x hx s hs
    rcases h.leads x hx s hs with hmem | hcur
    · exact hmem
    · exact Option.some.inj hcur ▸ hname
  have stuck : ∀ x ∈ seen, d.tableUpTo n x = none := by
    induction n with
    | zero => exact fun _ _ => rfl
    | succ n ih =>
      intro x hx
      rw [tableUpTo_succ, h.ownTable? x hx, Option.none_or, Option.bind_eq_none_iff]
      exact fun s hs => ih s (closed x hx s hs)
  exact stuck name hname

/-- There are no more names to be seen than entities and mapped supertypes. -/
theorem mem_of_isExtensible (h : d.Seen seen current)
    (hlen : d.entities.length + d.mappedSupertypes.length ≤ seen.length)
    (hname : d.isExtensible name = true) : name ∈ seen := by
  have hsub : seen ⊆ d.entities.map (·.name) ++ d.mappedSupertypes.map (·.name) :=
    fun n hn => isExtensible_iff.1 (h.isExtensible n hn)
  have hperm := (h.nodup.subperm hsub).perm_of_length_le (by simpa using hlen)
  exact hperm.mem_iff.2 (isExtensible_iff.1 hname)

end Seen

/-- A name of nothing in the hierarchy has no table and leads nowhere. -/
theorem eq_none_of_not_isExtensible {name : String} (h : d.isExtensible name ≠ true) :
    d.ownTable? name = none ∧ d.supertypeOf? name = none := by
  constructor
  · cases hown : d.ownTable? name with
    | none => rfl
    | some table =>
      obtain ⟨e, he, -⟩ := Option.bind_eq_some_iff.1 hown
      exact absurd (by simp [isExtensible, he]) h
  · cases hs : d.supertypeOf? name with
    | none => rfl
    | some s => exact absurd (isExtensible_of_supertypeOf? hs) h

/-- The loop may see as many names as there are entities and mapped supertypes. What it gives up
at a name that it has seen, the walk does not find either in the steps that it has left. -/
theorem runs_tablePass {n : Nat} {seen : List String} {current : Option String}
    (h : d.Seen seen current)
    (hn : d.entities.length + d.mappedSupertypes.length ≤ n + seen.length) :
    Runs d.tablePass (seen, current) (current.bind (d.tableUpTo n)) := by
  induction n generalizing seen current with
  | zero =>
    cases current with
    | none => exact .done rfl
    | some name =>
      by_cases hname : name ∈ seen
      · exact .done (by simp [tablePass, hname, tableUpTo])
      · obtain ⟨hown, hstop⟩ := eq_none_of_not_isExtensible fun hext =>
          hname (h.mem_of_isExtensible (by omega) hext)
        have hpass : d.tablePass (seen, some name) = .inr (name :: seen, none) := by
          simp only [tablePass, hname, hown, hstop, if_false]
        exact .more hpass (.done rfl)
  | succ n ih =>
    cases current with
    | none => exact .done rfl
    | some name =>
      by_cases hname : name ∈ seen
      · exact .done (by simp [tablePass, hname, h.tableUpTo_eq_none hname])
      · rw [Option.bind_some, tableUpTo_succ]
        cases hown : d.ownTable? name with
        | some table => exact .done (by simp [tablePass, hname, hown])
        | none =>
          have hpass : d.tablePass (seen, some name) =
              .inr (name :: seen, d.supertypeOf? name) := by
            simp only [tablePass, hname, hown, if_false]
          refine .more hpass ?_
          cases hs : d.supertypeOf? name with
          | none => exact .done rfl
          | some s => exact ih (h.cons hname hown hs) (by rw [List.length_cons]; omega)

/-! ## Chains without circles -/

/-- The walks from an entity find what there is on the chain above it: the first entity, the mapped
supertypes below that, and the first table that the entity or a type above it names. -/
structure ExactAt (d : Definition α) (e : Entity α) (above : List String) : Prop where
  nearestEntity? : d.nearestEntity? e = above.findSome? d.entity?
  flattened : (d.flattened e).reverse.map some =
    (above.takeWhile fun n => (d.entity? n).isNone).map d.mappedSupertype?
  nodup_flattened : (d.flattened e).Nodup
  tableOf? : d.tableOf? e.name = (e.name :: above).findSome? d.ownTable?

theorem exactAt_of_acyclic (named : WellNamed d) (acyclic : Acyclic d.supertypeOf?) {e : Entity α}
    (he : e ∈ d.entities) :
    ∃ above, Walk d.supertypeOf? e.name (e.name :: above) ∧ d.ExactAt e above := by
  obtain ⟨rest, hl, hflat, hnext⟩ := exists_segments named acyclic he
  rw [List.cons_append] at hl
  have hmapped : ∀ x ∈ (d.flattened e).reverse, d.mappedSupertype? x.name = some x ∧
      d.entity? x.name = none := fun x hx =>
    have hx := hflat x (List.mem_reverse.1 hx)
    ⟨mappedSupertype?_of_mem named.nodup_typeNames hx,
      entity?_of_mappedSupertype named.nodup_typeNames hx⟩
  have hrest : rest.findSome? d.entity? = d.nearestEntity? e ∧
      rest.takeWhile (fun n => (d.entity? n).isNone) = [] := by
    cases hp : d.nearestEntity? e with
    | none =>
      rw [hp] at hnext
      obtain rfl : rest = [] := hnext
      exact ⟨rfl, rfl⟩
    | some p =>
      rw [hp] at hnext
      obtain ⟨hmem, hwalk⟩ := hnext
      obtain ⟨t, rfl⟩ := hwalk.head
      simp [entity?_of_mem named.nodup_typeNames hmem]
  refine ⟨_, hl, ?_, ?_, ?_, tableOf?_eq_findSome? named acyclic he hl⟩
  · have hnone : ((d.flattened e).reverse.map (·.name)).findSome? d.entity? = none := by
      rw [List.findSome?_eq_none_iff, List.forall_mem_map]
      exact fun x hx => (hmapped x hx).2
    rw [List.findSome?_append, hnone, Option.none_or, hrest.1]
  · rw [List.takeWhile_append_of_pos, hrest.2, List.append_nil, List.map_map]
    · exact List.map_congr_left fun x hx => (hmapped x hx).1.symm
    · rw [List.forall_mem_map]
      exact fun x hx => by rw [(hmapped x hx).2]; rfl
  · have hnodup := (List.nodup_append.1 (List.nodup_cons.1 hl.nodup).2).1
    exact List.nodup_reverse.1 hnodup.of_map

/-- Each guarded loop ends with what the walk finds, and with nothing else. Without circles, the
walks from an entity find what its chain has to offer. -/
theorem guards_exact (d : Definition α) :
    (∀ name r, Runs d.tablePass ([], some name) r ↔ r = d.tableOf? name) ∧
    (∀ (e : Entity α) r, Runs d.nearestPass (0, e.supertype) r ↔ r = d.nearestEntity? e) ∧
    (∀ (e : Entity α) r, Runs d.flattenedPass ([], e.supertype) r ↔ r = d.flattened e) ∧
    (WellNamed d → Acyclic d.supertypeOf? → ∀ e ∈ d.entities, ∃ above,
      Walk d.supertypeOf? e.name (e.name :: above) ∧ d.ExactAt e above) := by
  refine ⟨fun name r => Runs.iff ?_, fun e r => Runs.iff ?_, fun e r => Runs.iff ?_,
    fun named acyclic e he => exactAt_of_acyclic named acyclic he⟩
  · exact runs_tablePass .nil (Nat.le_refl _)
  · exact runs_nearestPass (Nat.add_zero _) e.supertype
  · exact runs_flattenedPass (Nat.add_zero _) e.supertype

/-- Auctions are tracked; between them and silent auctions lie two mapped supertypes. -/
def silentAuctions : Definition Attribute where
  mappedSupertypes := [
    { name := "Audited", supertype := some "Timed" },
    { name := "Timed", supertype := some "Auction" },
    { name := "Tracked" }]
  entities := [
    { name := "Auction", table := some "auctions", supertype := some "Tracked" },
    { name := "SilentAuction", supertype := some "Audited" }]

theorem guards_exact_silentAuction :
    WellNamed silentAuctions ∧ Acyclic silentAuctions.supertypeOf? ∧
      silentAuctions.ExactAt { name := "SilentAuction", supertype := some "Audited" }
        ["Audited", "Timed", "Auction", "Tracked"] := by
  have named : WellNamed silentAuctions := by decide
  have acyclic : Acyclic silentAuctions.supertypeOf? := acyclic_of_upTo (k := 5) (by decide)
  obtain ⟨above, hl, hexact⟩ := (guards_exact silentAuctions).2.2.2 named acyclic
    { name := "SilentAuction", supertype := some "Audited" } (by decide)
  have hwalk : Walk silentAuctions.supertypeOf? "SilentAuction"
      ["SilentAuction", "Audited", "Timed", "Auction", "Tracked"] :=
    .step rfl (.step rfl (.step rfl (.step rfl (.stop rfl))))
  obtain rfl := (List.cons.inj (hl.unique hwalk)).2
  exact ⟨named, acyclic, hexact⟩

/-- The walks end on a circle of names, which has no table. -/
example :
    let d : Definition Attribute :=
      { mappedSupertypes := [
          { name := "Audited", supertype := some "Timed" },
          { name := "Timed", supertype := some "Audited" }]
        entities := [{ name := "Auction", supertype := some "Audited" }] }
    d.tableOf? "Auction" = none ∧ d.entities.map d.nearestEntity? = [none] := by decide

end QueryPath.Definition
