import QueryPath.Proofs.Catalog.Draft

/-!
# When a checked definition has a domain model

The names of a definition and the types of its draft lead on alike (`Drafted.leads`). So the
supertypes of the draft have a cycle just if those of the definition have one, and attributes of
the draft hide one another just if their names do. These are the only two reasons for which there
is no domain model (`logicalModel_spec`); if there is one, it is regular.
-/

namespace QueryPath.Definition

open Logical (Draft TypeId DomainType)

namespace Drafted

variable {d : Definition Attribute} (checked : Checked d) {m : Draft}
  {declared : List (String × Attribute)} (h : Drafted d declared m)

include h

theorem typeAt?_of_find? {n : String} {id : TypeId} (hid : m.find? n = some id) :
    ∃ t, m.typeAt? id = some t ∧ t.bare ∈ d.declaredTypes ∧ t.declaredName? = some n := by
  obtain ⟨new, htypes, hnew⟩ := h.types
  exact mem_declaredTypes_of_find? htypes hnew hid

include checked

theorem named {id : TypeId} {t : DomainType} {n : String} (ht : m.typeAt? id = some t)
    (hn : t.declaredName? = some n) : m.find? n = some id := by
  obtain ⟨new, htypes, hnew⟩ := h.types
  rw [h.find?_eq_some checked, ← typeName_at htypes hnew, ht]
  exact hn

/-- Types without names have neither supertypes nor attributes. -/
theorem unnamed {id : TypeId} (hn : ∀ n, m.find? n ≠ some id) :
    m.supertypeOf? id = none ∧ m.declaredBy id = [] := by
  obtain ⟨new, htypes, hnew⟩ := h.types
  rw [Draft.supertypeOf?, Draft.declaredBy]
  cases ht : m.typeAt? id with
  | none => exact ⟨rfl, rfl⟩
  | some t =>
    have hint := isInterned_of_unnamed htypes hnew checked.nodup_typeNames ht hn
    exact ⟨DomainType.supertype?_of_isInterned hint, DomainType.attributes_of_isInterned hint⟩

/-- Names lead on as their types do. -/
theorem leads (n : String) (id : TypeId) (hid : m.find? n = some id) :
    Option.Rel (fun n id => m.find? n = some id) (d.supertypeOf? n) (m.supertypeOf? id) := by
  rw [h.supertypes n id hid]
  cases hs : d.supertypeOf? n with
  | none => exact .none
  | some s =>
    obtain ⟨j, hj⟩ := (h.exists_find? checked).2 (isExtensible_mem (checked.isExtensible n s hs))
    rw [Option.bind_some, hj]
    exact .some hj

theorem validSupertypes : m.ValidSupertypes := by
  intro id s hs
  by_cases hn : ∃ n, m.find? n = some id
  · obtain ⟨n, hn⟩ := hn
    have hrel := h.leads checked n id hn
    rw [hs] at hrel
    generalize d.supertypeOf? n = x at hrel
    cases hrel with
    | some hj => exact Draft.lt_of_find? hj
  · rw [(h.unnamed checked fun n hid => hn ⟨n, hid⟩).1] at hs
    cases hs

theorem walk {n : String} {id : TypeId} (hid : m.find? n = some id) {l : List String}
    (hl : Walk d.supertypeOf? n l) :
    ∃ ids, Walk m.supertypeOf? id ids ∧ List.Forall₂ (fun n id => m.find? n = some id) l ids :=
  hl.transfer (fun a b hab => h.leads checked a b hab) hid

theorem walk_back {n : String} {id : TypeId} (hid : m.find? n = some id) {ids : List TypeId}
    (hl : Walk m.supertypeOf? id ids) :
    ∃ l, Walk d.supertypeOf? n l ∧ List.Forall₂ (fun id n => m.find? n = some id) ids l := by
  refine hl.transfer (fun a b hab => ?_) hid
  have hrel := h.leads checked b a hab
  generalize d.supertypeOf? b = x at hrel
  generalize m.supertypeOf? a = y at hrel
  cases hrel with
  | none => exact .none
  | some hj => exact .some hj

theorem acyclic_iff : Acyclic m.supertypeOf? ↔ Acyclic d.supertypeOf? := by
  constructor
  · intro acyclic
    apply acyclic_of_walks
    intro n
    by_cases hn : n ∈ d.typeNames
    · obtain ⟨id, hid⟩ := (h.exists_find? checked).2 hn
      obtain ⟨ids, hids, -⟩ :=
        Draft.exists_walk_le (h.validSupertypes checked) (Draft.lt_of_find? hid)
          (acyclic.not_revisits id)
      obtain ⟨l, hl, -⟩ := h.walk_back checked hid hids
      exact ⟨l, hl⟩
    · refine ⟨[n], .stop ?_⟩
      cases hs : d.supertypeOf? n with
      | none => rfl
      | some s => exact absurd (mem_typeNames_of_supertypeOf? hs) hn
  · intro acyclic
    apply acyclic_of_walks
    intro id
    by_cases hn : ∃ n, m.find? n = some id
    · obtain ⟨n, hn⟩ := hn
      obtain ⟨l, hl, -⟩ := exists_walk_supertypes checked.wellNamed acyclic
        ((h.exists_find? checked).1 ⟨id, hn⟩)
      obtain ⟨ids, hids, -⟩ := h.walk checked hn hl
      exact ⟨ids, hids⟩
    · exact ⟨[id], .stop (h.unnamed checked fun n hid => hn ⟨n, hid⟩).1⟩

omit checked h in
/-- Along a chain the types have the attributes that their names have. -/
theorem names_eq (h : Drafted d (d.declarations Identifier.attribute) m) {l : List String}
    {ids : List TypeId} (hl : List.Forall₂ (fun n id => m.find? n = some id) l ids) :
    (ids.flatMap m.declaredBy).map (·.name) = l.flatMap d.outline.memberNames := by
  induction hl with
  | nil => rfl
  | cons hid _ ih =>
    rw [List.flatMap_cons, List.map_append, ih, List.flatMap_cons, memberNames_outline,
      Attribute.Becomes.names_eq (h.attributes _ _ hid)]
    rfl

omit h in
theorem distinctAttributes_iff (h : Drafted d (d.declarations Identifier.attribute) m)
    (acyclic : Acyclic d.supertypeOf?) : m.DistinctAttributes ↔ DistinctNames d.outline := by
  constructor
  · intro distinct
    have chain : ∀ n ∈ d.typeNames, ∀ l, Walk d.supertypeOf? n l →
        (l.flatMap d.outline.memberNames).Nodup := by
      intro n hn l hl
      obtain ⟨id, hid⟩ := (h.exists_find? checked).2 hn
      obtain ⟨ids, hids, hrel⟩ := h.walk checked hid hl
      rw [← names_eq h hrel]
      exact distinct id ids hids
    refine ⟨fun e he => ?_, fun n hn l hl => ?_⟩
    · obtain ⟨e, hmem, rfl⟩ := List.mem_map.1 he
      have hn := chain e.name (mem_typeNames.2 (.inl ⟨e, hmem, rfl⟩)) [e.name] <| .stop <| by
        obtain ⟨hen, hsn⟩ := not_isExtensible_of_embeddable checked.nodup_typeNames hmem
        simp [supertypeOf?, hen, hsn]
      rw [List.flatMap_singleton, memberNames_outline,
        members_embeddable checked.nodup_typeNames hmem] at hn
      exact hn
    · rw [supertypeOf?_outline] at hl
      exact chain n (by rwa [outline, typeNames_map] at hn) l hl
  · intro distinct id ids hids
    by_cases hn : ∃ n, m.find? n = some id
    · obtain ⟨n, hn⟩ := hn
      obtain ⟨l, hl, -⟩ := exists_walk_supertypes checked.wellNamed acyclic
        ((h.exists_find? checked).1 ⟨id, hn⟩)
      obtain ⟨ids', hids', hrel⟩ := h.walk checked hn hl
      rw [hids.unique hids', names_eq h hrel]
      exact distinct.chain n
        (by rw [outline, typeNames_map]; exact (h.exists_find? checked).1 ⟨id, hn⟩) l
        (by rwa [supertypeOf?_outline])
    · obtain ⟨hs, ha⟩ := h.unnamed checked fun n hid => hn ⟨n, hid⟩
      rw [hids.unique (.stop hs)]
      simp [ha]

end Drafted

/-! ## The domain model -/

section LogicalModel

variable {d : Definition Attribute} (checked : Checked d)

theorem Element.HasType.lt {m : Draft} {e : Element} {type : TypeId} (h : e.HasType m type) :
    type < m.types.length := by
  cases e <;> exact (List.findIdx?_eq_some_iff_getElem.1 h).1

theorem IndexHasType.lt {m : Draft} {i : Option Index} {type : TypeId}
    (h : IndexHasType m i (some type)) : type < m.types.length := by
  cases h with
  | some hi => exact (List.findIdx?_eq_some_iff_getElem.1 hi).1

theorem Attribute.Becomes.lt {m : Draft} {a : Attribute} {b : Logical.Attribute}
    (h : a.Becomes m b) : ∀ t ∈ b.refersTo, t < m.types.length := by
  cases h with
  | plural he hi hl =>
    refine List.forall_mem_cons.2 ⟨he.lt, fun t ht => ?_⟩
    obtain rfl := Option.mem_toList.1 ht
    exact hi.lt
  | basic h | embedded h | toOne h | any h =>
    exact List.forall_mem_singleton.2 (List.findIdx?_eq_some_iff_getElem.1 h).1

include checked

theorem Drafted.coherent {m : Draft} (h : Drafted d (d.declarations Identifier.attribute) m) :
    m.Coherent := by
  refine ⟨h.validSupertypes checked, h.knowsKinds, fun id a ha => ?_⟩
  by_cases hn : ∃ n, m.find? n = some id
  · obtain ⟨n, hn⟩ := hn
    obtain ⟨_, _, hbec⟩ := exists_mem_of_forall₂' (h.attributes n id hn) ha
    exact hbec.lt
  · rw [(h.unnamed checked fun n hid => hn ⟨n, hid⟩).2] at ha
    cases ha

theorem Drafted.regular {m : Logical.Model}
    (h : Drafted d (d.declarations Identifier.attribute) m.toDraft)
    (acyclic : Acyclic m.supertypeOf?) (distinct : m.DistinctAttributes) : m.Regular := by
  refine ⟨⟨h.coherent checked, acyclic, distinct⟩, fun id t n ht hn => h.named checked ht hn,
    fun t ht storedAs => ?_⟩
  obtain ⟨new, htypes, hnew⟩ := h.types
  have hmem : t.bare ∈ d.declaredTypes ++ new := htypes ▸ List.mem_map_of_mem ht
  rw [← DomainType.sourceKind?_bare]
  rcases List.mem_append.1 hmem with hmem | hmem
  · rcases mem_declaredTypes.1 hmem with ⟨e, _, he⟩ | ⟨s, _, hs⟩ | ⟨e, _, he⟩
    · rw [← he]
      rfl
    · rw [← hs]
      rfl
    · rw [← he]
      rfl
  · have hint := hnew _ hmem
    cases hb : t.bare <;> first | rfl | (rw [hb] at hint; cases hint)

/-- A checked definition has a regular domain model, unless its supertypes have a cycle or names
of its attributes clash. -/
theorem logicalModel_spec : Ensures d.logicalModel
    (fun m => (Drafted d (d.declarations Identifier.attribute) m.toDraft ∧ m.Regular) ∧
      Acyclic d.supertypeOf? ∧ DistinctNames d.outline)
    (fun e => ((∃ name, e = .logical (.supertypeCycle name)) ∨
      ∃ owner name, e = .logical (.duplicateAttribute owner name)) ∧
        ¬ (Acyclic d.supertypeOf? ∧ DistinctNames d.outline)) := by
  refine Ensures.bind ((draft_spec checked).mono (fun _ => id) fun e he => ⟨.inr he.1, he.2⟩)
    fun m hm => ?_
  refine ((Draft.build_spec (hm.validSupertypes checked)).imp ?_).mapError ?_
  · rintro m' ⟨rfl, acyclic, distinct⟩
    have acyclic' := (hm.acyclic_iff checked).1 acyclic
    exact ⟨⟨hm, hm.regular checked acyclic distinct⟩, acyclic',
      (hm.distinctAttributes_iff checked acyclic').1 distinct⟩
  · rintro e (⟨id, -, hcycle, rfl⟩ | ⟨acyclic, id, hid, name, hclash, rfl⟩)
    · exact ⟨.inl ⟨_, rfl⟩, fun hd => ((hm.acyclic_iff checked).2 hd.1).not_revisits id hcycle⟩
    · refine ⟨.inr ⟨_, name, rfl⟩, fun hd => ?_⟩
      have distinct := (hm.distinctAttributes_iff checked hd.1).2 hd.2
      rw [(Draft.distinctAttributes_iff (hm.validSupertypes checked) acyclic).1 distinct id hid]
        at hclash
      cases hclash

end LogicalModel

end QueryPath.Definition
