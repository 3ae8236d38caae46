import Mathlib.Data.List.Duplicate
import QueryPath.Proofs.Logical.Draft
import QueryPath.Proofs.Outcome
import QueryPath.Proofs.Walk

/-!
# Chains of supertypes

A draft can be completed exactly if its supertypes have no cycles and no attribute of a type hides
another (`build_spec`). The chain of each type is then the whole walk along its supertypes, and an
attribute is found by its name on a type if it is declared anywhere along the chain.
-/

namespace QueryPath.Logical

/-- What is found to be repeated is in the list, and there twice if it was not seen before. -/
theorem firstRepeated_eq_some {α : Type} [BEq α] [LawfulBEq α] {seen l : List α} {a : α}
    (h : firstRepeated seen l = some a) : a ∈ l ∧ (a ∈ seen ∨ List.Duplicate a l) := by
  induction l generalizing seen with
  | nil => cases h
  | cons b l ih =>
    rw [firstRepeated] at h
    split at h
    · rename_i hb
      cases h
      exact ⟨List.mem_cons_self, .inl (List.contains_iff_mem.1 hb)⟩
    · obtain ⟨hl, hseen | hdup⟩ := ih h
      · rcases List.mem_cons.1 hseen with rfl | hseen
        · exact ⟨List.mem_cons_self, .inr hl.duplicate_cons_self⟩
        · exact ⟨List.mem_cons_of_mem _ hl, .inl hseen⟩
      · exact ⟨List.mem_cons_of_mem _ hl, .inr (hdup.duplicate_cons b)⟩

namespace Draft

/-- Supertypes are types of the draft. -/
def ValidSupertypes (d : Draft) : Prop := ∀ id s, d.supertypeOf? id = some s → s < d.types.length

/-- No attribute of a type hides another, inherited ones included. -/
def DistinctAttributes (d : Draft) : Prop :=
  ∀ id l, Walk d.supertypeOf? id l → ((l.flatMap d.declaredBy).map (·.name)).Nodup

variable {d : Draft}

theorem chainUpTo_eq (d : Draft) (n : Nat) (id : TypeId) :
    d.chainUpTo n id = upTo d.supertypeOf? n id := by
  induction n generalizing id with
  | zero => rfl
  | succ n ih =>
    rw [chainUpTo]
    cases hs : d.supertypeOf? id with
    | none => rw [upTo_succ_none hs]
    | some s => rw [upTo_succ_some hs, ← ih]

theorem mem_ids {id : TypeId} : id ∈ d.ids ↔ id < d.types.length := List.mem_range

theorem lt_of_supertypeOf? {id s : TypeId} (h : d.supertypeOf? id = some s) :
    id < d.types.length := by
  obtain ⟨t, ht, -⟩ := Option.bind_eq_some_iff.1 h
  exact (List.getElem?_eq_some_iff.1 ht).1

/-- In a valid draft a walk that comes back to no type has no more members than there are types. -/
theorem exists_walk_le (valid : d.ValidSupertypes) {id : TypeId} (hid : id < d.types.length)
    (h : ¬ Revisits d.supertypeOf? id) :
    ∃ l, Walk d.supertypeOf? id l ∧ l.length ≤ d.types.length := by
  have closed : ∀ a b, d.supertypeOf? a = some b → b ∈ d.ids := fun a b h => mem_ids.2 (valid a b h)
  obtain ⟨l, hl, hlen⟩ := exists_walk closed (mem_ids.2 hid) h
  exact ⟨l, hl, by simpa [ids] using hlen⟩

theorem walk_chain (valid : d.ValidSupertypes) (acyclic : Acyclic d.supertypeOf?)
    {id : TypeId} (hid : id < d.types.length) : Walk d.supertypeOf? id (d.chain id) := by
  obtain ⟨l, hl, hlen⟩ := exists_walk_le valid hid (acyclic.not_revisits id)
  rw [chain, chainUpTo_eq, hl.upTo_eq hlen]
  exact hl

/-- A type is a subtype of those that its supertypes lead to. -/
theorem isSubtype_iff (valid : d.ValidSupertypes) (acyclic : Acyclic d.supertypeOf?)
    {id t : TypeId} (hid : id < d.types.length) :
    d.isSubtype id t = true ↔ Relation.ReflTransGen (Leads d.supertypeOf?) id t := by
  rw [isSubtype, List.contains_iff_mem, (walk_chain valid acyclic hid).mem_iff]

/-- A type without a supertype stands alone in its chain. -/
theorem eq_of_mem_chain {id t : TypeId} (hid : d.supertypeOf? id = none) (ht : t ∈ d.chain id) :
    t = id := by
  rw [chain, chainUpTo_eq] at ht
  cases hn : d.types.length with
  | zero =>
    rw [hn] at ht
    cases ht
  | succ n =>
    rw [hn, upTo_succ_none hid] at ht
    exact List.mem_singleton.1 ht

/-- A type is found to be in a circle exactly if its supertypes come back to some type. -/
theorem isCyclicAt_iff (valid : d.ValidSupertypes) {id : TypeId} (hid : id < d.types.length) :
    d.isCyclicAt id = true ↔ Revisits d.supertypeOf? id := by
  rw [isCyclicAt, chainUpTo_eq, decide_eq_true_iff]
  constructor
  · intro hlen
    by_contra h
    obtain ⟨l, hl, hle⟩ := exists_walk_le valid hid h
    rw [hl.upTo_eq (Nat.le_succ_of_le hle)] at hlen
    exact Nat.not_lt.2 hle hlen
  · intro h
    by_contra hlen
    exact (walk_upTo (Nat.not_lt.1 hlen)).not_revisits h

/-- Circles of supertypes pass through types of the draft. -/
theorem acyclic_iff : Acyclic d.supertypeOf? ↔ ∀ id ∈ d.ids, ¬ Revisits d.supertypeOf? id := by
  constructor
  · intro acyclic id _
    exact acyclic.not_revisits id
  · intro h id hcycle
    obtain ⟨s, hs, -⟩ := Relation.TransGen.head'_iff.1 hcycle
    exact h id (mem_ids.2 (lt_of_supertypeOf? hs)) ⟨id, .refl, hcycle⟩

/-! ## Attributes along a chain -/

theorem mem_attributesOf {id t : TypeId} {a : Attribute} :
    (t, a) ∈ d.attributesOf id ↔ t ∈ d.chain id ∧ a ∈ d.declaredBy t := by
  simp only [attributesOf, List.mem_flatMap, List.mem_reverse, List.mem_map, Prod.mk.injEq]
  constructor
  · rintro ⟨_, ht, _, ha, rfl, rfl⟩
    exact ⟨ht, ha⟩
  · rintro ⟨ht, ha⟩
    exact ⟨t, ht, a, ha, rfl, rfl⟩

theorem attributesOf_perm (d : Draft) (id : TypeId) :
    ((d.attributesOf id).map (·.2)).Perm ((d.chain id).flatMap d.declaredBy) := by
  rw [attributesOf, List.map_flatMap]
  simp only [List.map_map, Function.comp_def, List.map_id']
  exact (List.reverse_perm _).flatMap_right _

/-- A name at which the attributes of a type clash is the name of two of them. -/
theorem duplicate_of_clashAt? {id : TypeId} {n : String} (h : d.clashAt? id = some n) :
    List.Duplicate n ((d.attributesOf id).map (·.2.name)) := by
  rcases (firstRepeated_eq_some h).2 with hseen | hdup
  · cases hseen
  · exact hdup

theorem clashAt?_eq_none {id : TypeId} :
    d.clashAt? id = none ↔ (((d.chain id).flatMap d.declaredBy).map (·.name)).Nodup := by
  rw [clashAt?, firstRepeated_eq_none_iff, ← ((attributesOf_perm d id).map _).nodup_iff,
    List.map_map]
  simp [Function.comp_def]

theorem declaredBy_eq_nil {id : TypeId} (h : d.types.length ≤ id) : d.declaredBy id = [] := by
  simp [declaredBy, typeAt?, List.getElem?_eq_none h]

theorem lt_of_mem_declaredBy {id : TypeId} {a : Attribute} (ha : a ∈ d.declaredBy id) :
    id < d.types.length := by
  by_contra hge
  rw [declaredBy_eq_nil (Nat.not_lt.1 hge)] at ha
  cases ha

theorem distinctAttributes_iff (valid : d.ValidSupertypes) (acyclic : Acyclic d.supertypeOf?) :
    d.DistinctAttributes ↔ ∀ id ∈ d.ids, d.clashAt? id = none := by
  constructor
  · intro h id hid
    exact clashAt?_eq_none.2 (h id _ (walk_chain valid acyclic (mem_ids.1 hid)))
  · intro h id l hl
    rcases Nat.lt_or_ge id d.types.length with hid | hid
    · rw [hl.unique (walk_chain valid acyclic hid)]
      exact clashAt?_eq_none.1 (h id (mem_ids.2 hid))
    · cases hl with
      | stop _ => simp [declaredBy_eq_nil hid]
      | step hs _ => exact absurd (lt_of_supertypeOf? hs) (Nat.not_lt.2 hid)

/-- The attributes of a type, inherited ones included, have different names. -/
theorem nodup_attributesOf (valid : d.ValidSupertypes) (acyclic : Acyclic d.supertypeOf?)
    (distinct : d.DistinctAttributes) {id : TypeId} (hid : id < d.types.length) :
    ((d.attributesOf id).map (·.2.name)).Nodup := by
  have hclash := (distinctAttributes_iff valid acyclic).1 distinct id (mem_ids.2 hid)
  rw [clashAt?, firstRepeated_eq_none_iff] at hclash
  exact hclash.1

/-- What completing a draft takes. Circles of supertypes are looked for before names that clash. -/
theorem build_spec (valid : d.ValidSupertypes) :
    Ensures d.build
      (fun m => m.toDraft = d ∧ Acyclic d.supertypeOf? ∧ d.DistinctAttributes)
      (fun e =>
        (∃ id ∈ d.ids, Revisits d.supertypeOf? id ∧ e = .supertypeCycle (d.nameOf id)) ∨
        Acyclic d.supertypeOf? ∧ ∃ id ∈ d.ids, ∃ name, d.clashAt? id = some name ∧
          e = .duplicateAttribute (d.nameOf id) name) := by
  unfold build
  cases hcyc : d.ids.find? d.isCyclicAt with
  | some id =>
    have hid := List.mem_of_find?_eq_some hcyc
    have hrevisits := (isCyclicAt_iff valid (mem_ids.1 hid)).1 (List.find?_some hcyc)
    exact ensures_error.2 (.inl ⟨id, hid, hrevisits, rfl⟩)
  | none =>
    have acyclic : Acyclic d.supertypeOf? := by
      refine acyclic_iff.2 fun id hid h => ?_
      exact List.find?_eq_none.1 hcyc id hid ((isCyclicAt_iff valid (mem_ids.1 hid)).2 h)
    dsimp only
    cases hclash : d.ids.findSome? fun id => (d.clashAt? id).map (id, ·) with
    | some x =>
      obtain ⟨id, hid, hx⟩ := List.exists_of_findSome?_eq_some hclash
      obtain ⟨name, hname, rfl⟩ := Option.map_eq_some_iff.1 hx
      exact ensures_error.2 (.inr ⟨acyclic, id, hid, name, hname, rfl⟩)
    | none =>
      refine ensures_ok.2 ⟨rfl, acyclic, (distinctAttributes_iff valid acyclic).2 fun id hid => ?_⟩
      simpa using List.findSome?_eq_none_iff.1 hclash id hid

/-- An attribute is found on a type by its name if it is declared anywhere along the chain. -/
theorem findAttribute?_eq_some (valid : d.ValidSupertypes) (acyclic : Acyclic d.supertypeOf?)
    (distinct : d.DistinctAttributes) {id : TypeId} (hid : id < d.types.length) {n : String}
    {t : TypeId} {a : Attribute} :
    d.findAttribute? id n = some (t, a) ↔
      t ∈ d.chain id ∧ a ∈ d.declaredBy t ∧ a.name = n := by
  have hnd := distinct id _ (walk_chain valid acyclic hid)
  rw [findAttribute?]
  generalize d.chain id = l at hnd ⊢
  induction l with
  | nil => simp
  | cons x l ih =>
    simp only [List.flatMap_cons, List.map_append, List.nodup_append] at hnd
    obtain ⟨hx, hl, hdisj⟩ := hnd
    rw [List.findSome?_cons, List.mem_cons]
    cases hfind : (d.declaredBy x).find? (·.name == n) with
    | none =>
      have hnone := List.find?_eq_none.1 hfind
      simp only [Option.map_none]
      refine (ih hl).trans ?_
      constructor
      · rintro ⟨ht, ha⟩
        exact ⟨.inr ht, ha⟩
      · rintro ⟨rfl | ht, ha, hn⟩
        · exact absurd (by simpa using hn) (hnone a ha)
        · exact ⟨ht, ha, hn⟩
    | some b =>
      have hb := List.mem_of_find?_eq_some hfind
      have hbn : b.name = n := by simpa using List.find?_some hfind
      simp only [Option.map_some, Option.some.injEq, Prod.mk.injEq]
      constructor
      · rintro ⟨rfl, rfl⟩
        exact ⟨.inl rfl, hb, hbn⟩
      · rintro ⟨ht, ha, hn⟩
        -- no attribute further up has the name of one on the type itself
        have hxt : x = t := by
          rcases ht with rfl | ht
          · rfl
          · refine absurd ?_ (hdisj b.name (List.mem_map_of_mem hb) a.name
              (List.mem_map_of_mem (List.mem_flatMap.2 ⟨t, ht, ha⟩)))
            rw [hbn, hn]
        subst hxt
        exact ⟨rfl, List.inj_on_of_nodup_map hx hb ha (hbn.trans hn.symm)⟩

/-- Where types from supertypes and from the other end are searched, the same attribute is found. -/
theorem findAttribute?_eq_find? (valid : d.ValidSupertypes) (acyclic : Acyclic d.supertypeOf?)
    (distinct : d.DistinctAttributes) {id : TypeId} (hid : id < d.types.length) (n : String) :
    d.findAttribute? id n = (d.attributesOf id).find? (·.2.name == n) := by
  have hspec := fun {t a} =>
    findAttribute?_eq_some valid acyclic distinct hid (n := n) (t := t) (a := a)
  cases hfind : (d.attributesOf id).find? (·.2.name == n) with
  | some x =>
    obtain ⟨ht, ha⟩ := mem_attributesOf.1 (List.mem_of_find?_eq_some hfind)
    exact hspec.2 ⟨ht, ha, by simpa using List.find?_some hfind⟩
  | none =>
    cases h : d.findAttribute? id n with
    | none => rfl
    | some x =>
      obtain ⟨ht, ha, hn⟩ := hspec.1 h
      exact absurd (by simpa using hn) (List.find?_eq_none.1 hfind x (mem_attributesOf.2 ⟨ht, ha⟩))

/-- Behind the types of a draft there are no attributes. -/
theorem findAttribute?_eq_none {id : TypeId} (hid : d.types.length ≤ id) (n : String) :
    d.findAttribute? id n = none := by
  have hstop : d.supertypeOf? id = none := by
    cases hs : d.supertypeOf? id with
    | none => rfl
    | some s => exact absurd (lt_of_supertypeOf? hs) (Nat.not_lt.2 hid)
  refine List.findSome?_eq_none_iff.2 fun t ht => ?_
  rw [eq_of_mem_chain hstop ht, declaredBy_eq_nil hid]
  rfl

/-- The attributes that a type declares have different names. -/
theorem nodup_declaredBy (valid : d.ValidSupertypes) (acyclic : Acyclic d.supertypeOf?)
    (distinct : d.DistinctAttributes) {id : TypeId} (hid : id < d.types.length) :
    ((d.declaredBy id).map (·.name)).Nodup := by
  have walk := walk_chain valid acyclic hid
  have hnd := distinct id _ walk
  obtain ⟨rest, hrest⟩ := walk.head
  rw [hrest, List.flatMap_cons, List.map_append] at hnd
  exact (List.nodup_append.1 hnd).1

end Draft

end QueryPath.Logical
