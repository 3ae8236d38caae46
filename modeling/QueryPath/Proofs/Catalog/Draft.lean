import QueryPath.Proofs.Catalog.Types

/-!
# The domain model of a checked definition

`Drafted d declared m` says of a draft `m` that it has the types of the definition `d` with their
supertypes, and of their attributes those that are listed in `declared`. The draft of a definition
is made in steps that keep this true while the list grows to all declarations; the only thing that
can go wrong is an attribute whose name is taken (`draft_spec`).

| definition      | domain model                                          |
|-----------------|-------------------------------------------------------|
| type `n`        | the type `m.find? n`                                  |
| supertype       | `supertypeOf?` (`Drafted.leads`)                      |
| attribute       | attribute of the type, related by `Becomes`           |
| `Acyclic`       | `Acyclic` (`Drafted.acyclic_iff`)                     |
| `DistinctNames` | `DistinctAttributes` (`Drafted.distinctAttributes_iff`) |
-/

namespace QueryPath.Definition

open Logical (Draft TypeId DomainType)

/-- The draft has the types of the definition and their supertypes, and of their attributes those
that are listed. -/
structure Drafted (d : Definition Attribute) (declared : List (String × Attribute)) (m : Draft) :
    Prop where
  types : ∃ new : List DomainType, m.bareTypes = d.declaredTypes ++ new ∧
    ∀ t ∈ new, t.isInterned = true
  knowsKinds : m.KnowsKinds
  supertypes : ∀ n id, m.find? n = some id → m.supertypeOf? id = (d.supertypeOf? n).bind m.find?
  attributes : ∀ n id, m.find? n = some id → List.Forall₂ (Attribute.Becomes m)
    ((declared.filter (·.1 == n)).map (·.2)) (m.declaredBy id)

/-! ## Types and supertypes -/

section Supertypes

variable {d : Definition Attribute} {m : Draft}

/-- All types can be declared, since their names differ. -/
theorem declareTypes_spec (nodup : d.typeNames.Nodup) :
    Ensures (d.declaredTypes.foldlM Logic.declare {}) (fun m => m.types = d.declaredTypes)
      fun _ => False := by
  refine ensures_foldlM (fun done (m : Draft) => m.types = done) rfl ?_
  intro done t rest m hl hm
  have hfind : m.find? t.name = none := by
    apply List.findIdx?_eq_none_iff.2
    intro t' ht'
    rw [hm] at ht'
    have hdone := declaredName?_of_mem (hl ▸ List.mem_append_left _ ht')
    rw [← declaredTypes_name] at nodup
    have hne := ne_of_mem_of_not_mem (List.mem_map_of_mem ht') (not_mem_before nodup hl)
    simpa [hdone.1] using hne
  rw [Logic.declare, Draft.declare, hfind]
  refine ensures_ok.2 ?_
  simp [Draft.push, hm]

theorem mem_extensions {n : String} {s : Option String} (nodup : d.typeNames.Nodup)
    (h : (n, s) ∈ d.extensions) : d.isExtensible n = true ∧ d.supertypeOf? n = s := by
  simp only [extensions, List.mem_append, List.mem_map, Prod.mk.injEq] at h
  rcases h with ⟨x, hx, rfl, rfl⟩ | ⟨e, he, rfl, rfl⟩
  · have hs := mappedSupertype?_of_mem nodup hx
    have he : d.entity? x.name = none := by
      cases he : d.entity? x.name with
      | none => rfl
      | some e =>
        obtain ⟨hmem, hn⟩ := entity?_mem he
        rw [← hn, mappedSupertype?_of_entity nodup hmem] at hs
        cases hs
    exact ⟨by simp [isExtensible, hs], by simp [supertypeOf?, he, hs]⟩
  · have he := entity?_of_mem nodup he
    exact ⟨by simp [isExtensible, he], by simp [supertypeOf?, he]⟩

theorem nodup_extensions (nodup : d.typeNames.Nodup) : (d.extensions.map (·.1)).Nodup := by
  have hnames : d.extensions.map (·.1) =
      d.mappedSupertypes.map (·.name) ++ d.entities.map (·.name) := by
    simp [extensions, Function.comp_def]
  rw [hnames]
  refine List.Nodup.sublist ?_ nodup
  rw [typeNames, List.append_assoc]
  exact List.sublist_append_right _ _

/-- The name above a type is the one listed for it. -/
theorem supertypeOf?_eq_extensions (nodup : d.typeNames.Nodup) (n : String) :
    d.supertypeOf? n = (d.extensions.find? (·.1 == n)).bind (·.2) := by
  cases hf : d.extensions.find? (·.1 == n) with
  | some x =>
    have hn : x.1 = n := by simpa using List.find?_some hf
    subst hn
    exact (mem_extensions nodup (List.mem_of_find?_eq_some hf)).2
  | none =>
    have hnone := List.find?_eq_none.1 hf
    have he : d.entity? n = none := by
      apply List.find?_eq_none.2
      intro e he hn
      exact hnone (e.name, e.supertype) (List.mem_append_right _ (List.mem_map_of_mem he)) hn
    have hs : d.mappedSupertype? n = none := by
      apply List.find?_eq_none.2
      intro s hs hn
      exact hnone (s.name, s.supertype) (List.mem_append_left _ (List.mem_map_of_mem hs)) hn
    simp [supertypeOf?, he, hs]

/-- A name that can be extended stands for a type that can be extended. -/
theorem isExtensible_of_find? (nodup : d.typeNames.Nodup) (htypes : m.bareTypes = d.declaredTypes)
    {n : String} {id : TypeId} (hn : d.isExtensible n = true) (h : m.find? n = some id) :
    ∃ t, m.typeAt? id = some t ∧ t.isExtensible = true := by
  have htypes' : m.bareTypes = d.declaredTypes ++ [] := by rw [htypes, List.append_nil]
  obtain ⟨t, ht, hmem, hname⟩ := mem_declaredTypes_of_find? htypes' (by simp) h
  refine ⟨t, ht, ?_⟩
  rw [← DomainType.isExtensible_bare]
  rw [← DomainType.declaredName?_bare] at hname
  rcases mem_declaredTypes.1 hmem with ⟨e, he, hb⟩ | ⟨s, _, hb⟩ | ⟨e, _, hb⟩
  · -- no embeddable has the name of a type that can be extended
    rw [← hb] at hname
    obtain rfl : e.name = n := Option.some.inj hname
    obtain ⟨hen, hsn⟩ := not_isExtensible_of_embeddable nodup he
    simp [isExtensible, hen, hsn] at hn
  · rw [← hb]
    rfl
  · rw [← hb]
    rfl

/-- The draft has just the declared types, without attributes, and the supertypes that are
listed. -/
structure Extended (d : Definition Attribute) (extensions : List (String × Option String))
    (m : Draft) : Prop where
  types : m.bareTypes = d.declaredTypes
  attributes : ∀ id, m.declaredBy id = []
  supertypes : ∀ n id, m.find? n = some id →
    m.supertypeOf? id = ((extensions.find? (·.1 == n)).bind (·.2)).bind m.find?

namespace Extended

theorem start (htypes : m.types = d.declaredTypes) : Extended d [] m := by
  have hfresh : ∀ id t, m.typeAt? id = some t → t.attributes = [] ∧ t.supertype? = none := by
    intro id t ht
    rw [Draft.typeAt?, htypes] at ht
    rcases mem_declaredTypes.1 (List.mem_of_getElem? ht) with
      ⟨e, _, rfl⟩ | ⟨s, _, rfl⟩ | ⟨e, _, rfl⟩ <;> exact ⟨rfl, rfl⟩
  refine ⟨?_, fun id => ?_, fun n id _ => ?_⟩
  · rw [Draft.bareTypes, htypes]
    exact (List.map_congr_left fun t ht => (declaredName?_of_mem ht).2.2).trans (List.map_id _)
  · rw [Draft.declaredBy]
    cases ht : m.typeAt? id with
    | none => rfl
    | some t => exact (hfresh id t ht).1
  · rw [Draft.supertypeOf?]
    cases ht : m.typeAt? id with
    | none => rfl
    | some t => exact (hfresh id t ht).2

theorem step (checked : Checked d) {done rest : List (String × Option String)} {n : String}
    {s : Option String} (hl : d.extensions = done ++ (n, s) :: rest) (h : Extended d done m) :
    ∃ m', Logic.setSupertype m n s = .ok m' ∧ Extended d (done ++ [(n, s)]) m' := by
  have nodup := checked.nodup_typeNames
  have hn := mem_extensions nodup (hl ▸ List.mem_append_right _ List.mem_cons_self)
  have hdone : done.find? (·.1 == n) = none := by
    apply List.find?_eq_none.2
    intro x hx hxn
    exact not_mem_before (nodup_extensions nodup) hl (List.mem_map.2 ⟨x, hx, by simpa using hxn⟩)
  cases s with
  | none =>
    refine ⟨m, rfl, h.types, h.attributes, fun n' id hid => ?_⟩
    rw [h.supertypes n' id hid, List.find?_append]
    cases done.find? (·.1 == n') with
    | some x => rfl
    | none => by_cases hnn : n = n' <;> simp [hnn]
  | some s =>
    have hs := checked.isExtensible n s hn.2
    have htypes : m.bareTypes = d.declaredTypes ++ [] := by rw [h.types, List.append_nil]
    obtain ⟨i, hi⟩ := (exists_find? htypes (by simp) nodup).2 (isExtensible_mem hn.1)
    obtain ⟨j, hj⟩ := (exists_find? htypes (by simp) nodup).2 (isExtensible_mem hs)
    obtain ⟨m', hm'⟩ := Draft.setSupertype_ok (isExtensible_of_find? nodup h.types hs hj)
      (isExtensible_of_find? nodup h.types hn.1 hi)
    obtain ⟨htypes', hattrs, hsupers⟩ := Draft.setSupertype_spec hm'
    have hfind : m'.find? = m.find? := by
      funext x
      rw [Draft.find?_eq_bareTypes, Draft.find?_eq_bareTypes, htypes']
    refine ⟨m', ?_, htypes'.trans h.types, fun id => (hattrs id).trans (h.attributes id),
      fun n' id hid => ?_⟩
    · simp only [Logic.setSupertype, Logic.find_eq_ok hi, Logic.find_eq_ok hj, bind, Except.bind,
        mapError_eq_ok, hm']
    · rw [hfind] at hid ⊢
      rw [hsupers id, List.find?_append]
      by_cases hnn : n = n'
      · subst hnn
        rw [hi, Option.some.injEq] at hid
        rw [if_pos hid, hdone]
        simp [hj]
      · have hne : i ≠ id := by
          rintro rfl
          exact hnn (Draft.find?_inj hi hid)
        rw [if_neg hne, h.supertypes n' id hid]
        cases done.find? (·.1 == n') with
        | some x => rfl
        | none => simp [hnn]

theorem drafted (checked : Checked d) (h : Extended d d.extensions m) : Drafted d [] m := by
  refine ⟨⟨[], by rw [h.types, List.append_nil], by simp⟩, ?_, ?_, ?_⟩
  · intro x y hxy
    rw [h.types] at hxy
    rcases mem_declaredTypes.1 hxy with ⟨e, _, he⟩ | ⟨s, _, hs⟩ | ⟨e, _, he⟩
    · cases he
    · cases hs
    · cases he
  · intro n id hid
    rw [h.supertypes n id hid, ← supertypeOf?_eq_extensions checked.nodup_typeNames]
  · intro n id _
    rw [h.attributes id]
    exact .nil

end Extended

/-- The supertypes of a checked definition can be set. -/
theorem setSupertypes_spec (checked : Checked d) (htypes : m.types = d.declaredTypes) :
    Ensures (d.extensions.foldlM (fun m e => Logic.setSupertype m e.1 e.2) m) (Drafted d [])
      fun _ => False := by
  refine Ensures.imp (ensures_foldlM (Extended d) (.start htypes) ?_) fun m' h => h.drafted checked
  intro done x rest m' hl h
  exact .of_exists_ok (h.step checked hl)

end Supertypes

/-! ## Attributes -/

/-- An attribute is declared twice, and so the definition is not one that has a domain model. -/
def Clash (d : Definition Attribute) (e : CatalogError) : Prop :=
  (∃ owner name, e = .logical (.duplicateAttribute owner name)) ∧
    ¬ (Acyclic d.supertypeOf? ∧ DistinctNames d.outline)

section Attributes

variable {d : Definition Attribute} (checked : Checked d) {m : Draft}
  {done : List (String × Attribute)} {n : String}

theorem Drafted.exists_find? (checked : Checked d) (h : Drafted d done m) :
    (∃ id, m.find? n = some id) ↔ n ∈ d.typeNames := by
  obtain ⟨new, htypes, hnew⟩ := h.types
  exact Definition.exists_find? htypes hnew checked.nodup_typeNames

theorem Drafted.find?_eq_some (checked : Checked d) (h : Drafted d done m) {id : TypeId} :
    m.find? n = some id ↔ d.typeNames[id]? = some n := by
  obtain ⟨new, htypes, hnew⟩ := h.types
  exact Definition.find?_eq_some htypes hnew checked.nodup_typeNames

/-- Types that are interned in between are of no concern. -/
theorem Drafted.interns (h : Drafted d done m) {m' : Draft} (hint : Draft.Interns m m')
    (hknows : m'.KnowsKinds) : Drafted d done m' := by
  obtain ⟨new, htypes, hnew⟩ := h.types
  obtain ⟨new', htypes', hnew'⟩ := hint.bareTypes
  have hfind : m'.find? = m.find? := funext hint.find?
  refine ⟨⟨new ++ new', ?_, ?_⟩, hknows, ?_, ?_⟩
  · rw [htypes', htypes, List.append_assoc]
  · intro t ht
    rcases List.mem_append.1 ht with ht | ht
    · exact hnew t ht
    · exact hnew' t ht
  · intro n id hid
    rw [hfind] at hid ⊢
    rw [hint.supertypeOf?, h.supertypes n id hid]
  · intro n id hid
    rw [hfind] at hid
    rw [hint.declaredBy]
    exact (h.attributes n id hid).imp fun _ _ hab => hab.mono hint.grows

theorem Drafted.isManaged (h : Drafted d done m) {id : TypeId} (hid : m.find? n = some id) :
    ∃ t, m.typeAt? id = some t ∧ t.isManaged = true := by
  obtain ⟨new, htypes, hnew⟩ := h.types
  obtain ⟨t, ht, hmem, -⟩ := mem_declaredTypes_of_find? htypes hnew hid
  refine ⟨t, ht, ?_⟩
  rw [← DomainType.isManaged_bare]
  exact (declaredName?_of_mem hmem).2.1

/-- One more attribute is listed when the type of that name has it. -/
theorem Drafted.declare (h : Drafted d done m) {m' : Draft} {a : Attribute}
    {b : Logical.Attribute} {id : TypeId} (hid : m.find? n = some id) (hbec : a.Becomes m b)
    (hbare : m'.bareTypes = m.bareTypes) (hsup : ∀ j, m'.supertypeOf? j = m.supertypeOf? j)
    (hattr : ∀ j, m'.declaredBy j = if id = j then m.declaredBy j ++ [b] else m.declaredBy j) :
    Drafted d (done ++ [(n, a)]) m' := by
  have hgrows : Draft.Grows m m' := .of_bareTypes_eq hbare
  have hfind : m'.find? = m.find? := by
    funext x
    rw [Draft.find?_eq_bareTypes, hbare, ← Draft.find?_eq_bareTypes]
  refine ⟨hbare ▸ h.types, h.knowsKinds.of_bareTypes_eq hbare, ?_, ?_⟩
  · intro n' id' hid'
    rw [hfind] at hid' ⊢
    rw [hsup, h.supertypes n' id' hid']
  · intro n' id' hid'
    rw [hfind] at hid'
    rw [hattr, List.filter_append, List.map_append]
    have hold := (h.attributes n' id' hid').imp fun _ _ hab => hab.mono hgrows
    by_cases hnn : n = n'
    · subst hnn
      rw [hid, Option.some.injEq] at hid'
      rw [if_pos hid']
      apply List.rel_append hold
      simpa using hbec.mono hgrows
    · have hne : id ≠ id' := by
        rintro rfl
        exact hnn (Draft.find?_inj hid hid')
      rw [if_neg hne]
      simpa [hnn] using hold

include checked

/-- Names of attributes that a type has so far are names of declarations. -/
theorem Drafted.not_mem_names (h : Drafted d done m) {a : Attribute} {id : TypeId}
    (hid : m.find? n = some id) (hl : done ++ [(n, a)] <+: d.declarations Identifier.attribute)
    (acyclic : Acyclic d.supertypeOf?) (distinct : DistinctNames d.outline) :
    a.name ∉ (m.declaredBy id).map (·.name) := by
  obtain ⟨rest, hrest⟩ := hl
  have hnodup := nodup_members checked acyclic distinct ((h.exists_find? checked).1 ⟨id, hid⟩)
  rw [members, attributesAt, ← hrest, List.append_assoc, List.filter_append, List.map_append,
    List.map_append] at hnodup
  rw [Attribute.Becomes.names_eq (h.attributes n id hid)]
  intro hmem
  exact (List.nodup_append.1 hnodup).2.2 _ hmem a.name (by simp) rfl

/-- One more attribute. -/
theorem addAttribute_spec (h : Drafted d done m) {a : Attribute} {id : TypeId}
    (hid : m.find? n = some id) (hl : done ++ [(n, a)] <+: d.declarations Identifier.attribute) :
    Ensures (Logic.addAttribute id m a) (Drafted d (done ++ [(n, a)])) (Clash d) := by
  have hshape := checked.checkShape (n, a) (hl.subset (by simp))
  obtain ⟨b, m₁, hb, hint, hknows, hbec, hlacks⟩ := Logic.attributeOf_spec
    (fun x hx => (h.exists_find? checked).2 hx) h.knowsKinds hshape
  have h₁ := h.interns hint hknows
  have hid₁ : m₁.find? n = some id := (hint.find? n).trans hid
  have hadd : Logic.addAttribute id m a = (m₁.addAttribute id b).mapError .logical := by
    rw [Logic.addAttribute, hb]
    rfl
  rw [hadd]
  rcases Draft.addAttribute_spec hlacks (h₁.isManaged hid₁) with
    ⟨hdup, herr⟩ | ⟨m₂, hm₂, -, hbare, hsup, hattr⟩
  · rw [herr]
    refine ensures_error.2 ⟨⟨_, _, rfl⟩, fun hd => ?_⟩
    rw [hbec.name_eq] at hdup
    exact h₁.not_mem_names checked hid₁ hl hd.1 hd.2 hdup
  · rw [hm₂]
    exact ensures_ok.2 (h₁.declare hid₁ hbec hbare hsup hattr)

/-- Attributes of one type. -/
theorem addAttributes_spec (h : Drafted d done m) (hn : n ∈ d.typeNames) {as : List Attribute}
    (hl : done ++ as.map (n, ·) <+: d.declarations Identifier.attribute) :
    Ensures (Logic.addAttributes m n as) (Drafted d (done ++ as.map (n, ·))) (Clash d) := by
  obtain ⟨id, hid⟩ := (h.exists_find? checked).2 hn
  rw [Logic.addAttributes, Logic.find_eq_ok hid]
  refine ensures_foldlM (fun done' m' => Drafted d (done ++ done'.map (n, ·)) m') (by simpa) ?_
  intro done' a rest m' has hm'
  rw [List.map_append, ← List.append_assoc]
  refine addAttribute_spec checked hm' ?_ ?_
  · rw [hm'.find?_eq_some checked, ← h.find?_eq_some checked]
    exact hid
  · refine List.IsPrefix.trans ⟨rest.map (n, ·), ?_⟩ hl
    simp [has]

/-- The identifier of an entity is declared like an attribute. -/
theorem addIdentifier_eq (h : Drafted d done m) (hn : n ∈ d.typeNames) (i : Option Identifier) :
    Logic.addIdentifier m n i =
      Logic.addAttributes m n (i.toList.map Identifier.attribute) := by
  obtain ⟨id, hid⟩ := (h.exists_find? checked).2 hn
  cases i with
  | none =>
    rw [Logic.addAttributes, Logic.find_eq_ok hid]
    rfl
  | some i =>
    simp only [Logic.addIdentifier, Logic.addAttributes, Logic.find_eq_ok hid, Option.toList_some,
      List.map_cons, List.map_nil, List.foldlM_cons, List.foldlM_nil, bind_pure]
    rfl

/-- Attributes of an entity, its identifier first. -/
theorem addEntity_spec (h : Drafted d done m) (hn : n ∈ d.typeNames) {i : Option Identifier}
    {as : List Attribute} (hl : done ++ (i.toList.map Identifier.attribute ++ as).map (n, ·) <+:
      d.declarations Identifier.attribute) :
    Ensures (do Logic.addAttributes (← Logic.addIdentifier m n i) n as)
      (Drafted d (done ++ (i.toList.map Identifier.attribute ++ as).map (n, ·))) (Clash d) := by
  rw [List.map_append, ← List.append_assoc] at hl ⊢
  rw [addIdentifier_eq checked h hn]
  refine (addAttributes_spec checked h hn ((List.prefix_append _ _).trans hl)).bind fun m' hm' => ?_
  exact addAttributes_spec checked hm' hn hl

omit checked in
/-- Attributes of several types, one type after another. -/
theorem addTypes_spec {γ : Type} {l : List γ} {f : Draft → γ → Except CatalogError Draft}
    (declares : γ → List (String × Attribute))
    (step : ∀ x ∈ l, ∀ done m, Drafted d done m →
      done ++ declares x <+: d.declarations Identifier.attribute →
      Ensures (f m x) (Drafted d (done ++ declares x)) (Clash d))
    (h : Drafted d done m)
    (hl : done ++ l.flatMap declares <+: d.declarations Identifier.attribute) :
    Ensures (l.foldlM f m) (Drafted d (done ++ l.flatMap declares)) (Clash d) := by
  refine ensures_foldlM (fun l' m' => Drafted d (done ++ l'.flatMap declares) m') (by simpa) ?_
  intro l' x rest m' hl' hm'
  rw [List.flatMap_append, List.flatMap_singleton, ← List.append_assoc]
  apply step x (hl' ▸ List.mem_append_right _ List.mem_cons_self) _ m' hm'
  refine List.IsPrefix.trans ⟨rest.flatMap declares, ?_⟩ hl
  simp [hl']

end Attributes

/-- The draft of a checked definition, if no two attributes of one type have the same name. -/
theorem draft_spec {d : Definition Attribute} (checked : Checked d) :
    Ensures d.draft (Drafted d (d.declarations Identifier.attribute)) (Clash d) := by
  unfold draft
  refine ((declareTypes_spec checked.nodup_typeNames).mono (fun _ => id) fun _ h => h.elim).bind
    fun m hm => ?_
  refine ((setSupertypes_spec checked hm).mono (fun _ => id) fun _ h => h.elim).bind fun m hm => ?_
  rw [declarations]
  have hl := List.prefix_refl (d.declarations Identifier.attribute)
  conv at hl => lhs; rw [declarations]
  have hl' := (List.prefix_append _ _).trans hl
  refine (addTypes_spec (fun e : Embeddable Attribute => e.attributes.map (e.name, ·)) ?_ hm
    ((List.prefix_append _ _).trans hl')).bind fun m hm => ?_
  · intro e he done m hm hl
    exact addAttributes_spec checked hm (mem_typeNames.2 (.inl ⟨e, he, rfl⟩)) hl
  refine (addTypes_spec (fun s : MappedSupertype Attribute => s.attributes.map (s.name, ·)) ?_ hm
    hl').bind fun m hm => ?_
  · intro s hs done m hm hl
    exact addAttributes_spec checked hm (mem_typeNames.2 (.inr (.inl ⟨s, hs, rfl⟩))) hl
  refine addTypes_spec (fun e : Entity Attribute =>
    (e.identifier.toList.map Identifier.attribute ++ e.attributes).map (e.name, ·)) ?_ hm hl
  intro e he done m hm hl
  exact addEntity_spec checked hm (mem_typeNames_of_entity he) hl

end QueryPath.Definition
