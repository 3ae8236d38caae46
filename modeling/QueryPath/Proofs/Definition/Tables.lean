import QueryPath.Proofs.Definition.Hierarchy

/-!
# Tables of entities

The table of an entity is the first that an entity names along its chain: its own, or else that of
the nearest entity above it that has one (`tableOf?_eq_findSome?`). The check of a definition sees
to it that each entity has a table.
-/

namespace QueryPath.Definition

variable {α : Type}

/-- The table that an entity names itself. -/
def ownTable? (d : Definition α) (n : String) : Option String := (d.entity? n).bind (·.table)

/-! ## Tables along a chain -/

theorem tableUpTo_succ (d : Definition α) (n : Nat) (name : String) :
    d.tableUpTo (n + 1) name =
      (d.ownTable? name).or ((d.supertypeOf? name).bind (d.tableUpTo n)) := by
  rw [tableUpTo, ownTable?]
  cases (d.entity? name).bind (·.table) <;> rfl

theorem tableUpTo_eq (d : Definition α) (n : Nat) (name : String) :
    d.tableUpTo n name = (upTo d.supertypeOf? n name).findSome? d.ownTable? := by
  induction n generalizing name with
  | zero => rfl
  | succ n ih =>
    rw [tableUpTo_succ]
    cases hs : d.supertypeOf? name with
    | none =>
      rw [upTo_succ_none hs, List.findSome?_singleton]
      exact Option.or_none
    | some s =>
      rw [upTo_succ_some hs, List.findSome?_cons, Option.bind_some, ih]
      cases d.ownTable? name <;> rfl

theorem tableOf?_eq_findSome? {d : Definition α} (named : WellNamed d)
    (acyclic : Acyclic d.supertypeOf?) {e : Entity α} (he : e ∈ d.entities)
    {l : List String} (hl : Walk d.supertypeOf? e.name l) :
    d.tableOf? e.name = l.findSome? d.ownTable? := by
  -- Embeddables have nothing above them and nothing below, so the walk is short enough.
  obtain ⟨l', hl', hlen⟩ := exists_walk
    (S := d.entities.map (·.name) ++ d.mappedSupertypes.map (·.name))
    (fun a b h => isExtensible_iff.1 (named.isExtensible a b h))
    (List.mem_append_left _ (List.mem_map_of_mem he)) (acyclic.not_revisits _)
  obtain rfl := hl.unique hl'
  rw [tableOf?, tableUpTo_eq, hl.upTo_eq]
  simpa using hlen

/-! ## Every entity has a table -/

/-- Along the chain of each entity a table is named, and the first is its table. -/
theorem exists_table {d : Definition Attribute} (checked : Checked d)
    (acyclic : Acyclic d.supertypeOf?) {e : Entity Attribute} (he : e ∈ d.entities)
    {l : List String} (hl : Walk d.supertypeOf? e.name l) :
    ∃ table, d.tableOf? e.name = some table ∧ l.findSome? d.ownTable? = some table := by
  obtain ⟨table, htable⟩ := checked.exists_table e he
  have hfirst := tableOf?_eq_findSome? checked.wellNamed acyclic he hl
  exact ⟨table, htable, hfirst.symm.trans htable⟩

end QueryPath.Definition
