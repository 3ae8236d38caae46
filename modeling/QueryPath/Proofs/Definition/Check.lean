import QueryPath.Definition.Check
import QueryPath.Proofs.Definition.Outline
import QueryPath.Proofs.Outcome

/-!
# Checked definitions

What a definition has once `Definition.check` accepts it: distinct names of types, references that
lead to types of the right sort, a table for each entity, and no embeddable inside itself. The check
gives attributes their shapes and leaves the outline as it is.
-/

namespace QueryPath.Definition

/-- What the check of a definition establishes. -/
structure Checked (d : Definition Attribute) : Prop where
  nodup_typeNames : d.typeNames.Nodup
  isExtensible : ∀ n s, d.supertypeOf? n = some s → d.isExtensible s = true
  checkShape : ∀ x ∈ d.declarations Identifier.attribute,
    d.checkShape x.1 x.2.name x.2.shape = .ok ()
  exists_table : ∀ e ∈ d.entities, ∃ table, d.tableOf? e.name = some table
  nesting : d.checkAllNesting = .ok ()

/-! ## Single checks -/

@[simp] theorem ensure_eq_ok {fault : Fault} {b : Bool} : ensure fault b = .ok () ↔ b = true := by
  cases b <;> simp [ensure]

@[simp] theorem require_eq_ok {α : Type} {fault : Fault} {x : Option α} {a : α} :
    require fault x = .ok a ↔ x = some a := by
  cases x <;> simp [require]

section References

variable {α : Type} {d : Definition α} {owner name target : String}

@[simp] theorem checkEntity_eq_ok :
    d.checkEntity owner name target = .ok () ↔ (d.entity? target).isSome = true := ensure_eq_ok

@[simp] theorem checkEmbeddable_eq_ok :
    d.checkEmbeddable owner name target = .ok () ↔ (d.embeddable? target).isSome = true :=
  ensure_eq_ok

theorem checkPlural_eq_ok {p : Plural Element} : d.checkPlural owner name p = .ok () ↔
    d.checkElement owner name p.element = .ok () ∧ p.hasTable = true ∧
      (p.classification.isIndexed = true → p.index.isSome = true) ∧
      (p.classification.hasIdentifier = true → p.idColumn.isSome = true) := by
  have hseq : ∀ {x y : Except Fault Unit}, (x >>= fun _ => y) = .ok () ↔
      x = .ok () ∧ y = .ok () := by
    intro x y
    cases x <;> simp [bind, Except.bind]
  simp only [checkPlural, hseq, ensure_eq_ok, Bool.or_eq_true, Bool.not_eq_true']
  cases p.classification.isIndexed <;> cases p.classification.hasIdentifier <;> simp

end References

/-! ## Shapes -/

theorem map_require_congr {α β : Type} {fault fault' : Fault} {x : Option α} {f : α → β} {b : β}
    (h : (require fault x).map f = .ok b) : (require fault' x).map f = .ok b := by
  cases x with
  | some a => exact h
  | none => cases h

/-- The place of a collection does not matter to the shape of its elements, but only to faults. -/
theorem RawElement.shape_at {e : RawElement} {role : String} {s : Element}
    (h : e.shape role = .ok s) (role' : String) : e.shape role' = .ok s := by
  unfold RawElement.shape at h ⊢
  split at h
  · exact map_require_congr h
  · exact h
  · exact map_require_congr h
  · cases h

/-- An attribute has the same shape at every place. -/
theorem RawAttribute.shape_at {a : RawAttribute} {owner : String} {s : Shape}
    (h : a.shape owner = .ok s) (place : String) : a.shape place = .ok s := by
  unfold RawAttribute.shape at h ⊢
  split at h
  · exact map_require_congr h
  · exact h
  · exact map_require_congr h
  · obtain ⟨q, hq, rfl⟩ := map_eq_ok.1 h
    obtain ⟨element, helement, hq⟩ := bind_eq_ok.1 hq
    exact map_eq_ok.2 ⟨q, bind_eq_ok.2 ⟨element, RawElement.shape_at helement _, hq⟩, rfl⟩
  · exact h
  · cases h

/-! ## References -/

section Map

variable {α β : Type} (f : α → β) (d : Definition α)

theorem checkElement_map (owner name : String) (e : Element) :
    (d.map f).checkElement owner name e = d.checkElement owner name e := by
  cases e <;> simp [checkElement, checkEmbeddable, checkEntity]

/-- What a shape refers to is looked up in the outline. -/
theorem checkShape_map (owner name : String) (s : Shape) :
    (d.map f).checkShape owner name s = d.checkShape owner name s := by
  cases s <;>
    simp [checkShape, checkPlural, checkElement_map, checkEmbeddable, checkEntity]

end Map

theorem shape_of_checkAttribute {raw : Definition RawAttribute} {owner : String} {a : RawAttribute}
    {b : Attribute} (h : raw.checkAttribute owner a = .ok b) : a.shape owner = .ok b.shape := by
  obtain ⟨s, hs, h⟩ := bind_eq_ok.1 h
  obtain ⟨⟨⟩, -, h⟩ := bind_eq_ok.1 h
  cases h
  exact hs

theorem checkAttribute_eq_ok {d : Definition RawAttribute} {owner : String} {a : RawAttribute}
    {b : Attribute} (h : d.checkAttribute owner a = .ok b) :
    b.name = a.name ∧ d.checkShape owner b.name b.shape = .ok () := by
  obtain ⟨s, -, h⟩ := bind_eq_ok.1 h
  obtain ⟨⟨⟩, hs, h⟩ := bind_eq_ok.1 h
  cases h
  exact ⟨rfl, hs⟩

/-- What the check makes of a list of attributes. -/
theorem checkAttributes_eq_ok {d : Definition RawAttribute} {owner : String}
    {as : List RawAttribute} {bs : List Attribute}
    (h : as.mapM (d.checkAttribute owner) = .ok bs) :
    bs.map Attribute.name = as.map RawAttribute.name ∧
      ∀ b ∈ bs, d.checkShape owner b.name b.shape = .ok () := by
  rw [mapM_eq_ok] at h
  induction h with
  | nil => simp
  | cons hab _ ih =>
    obtain ⟨hn, hs⟩ := checkAttribute_eq_ok hab
    refine ⟨by simp only [List.map_cons, hn, ih.1], ?_⟩
    exact List.forall_mem_cons.2 ⟨hs, ih.2⟩

theorem checkSupertype_eq_ok {d : Definition RawAttribute} {isEntity : Bool} {n : String}
    {s : Option String} :
    d.checkSupertype isEntity n s = .ok () ↔ ∀ t, s = some t → d.isExtensible t = true := by
  cases s <;> simp [checkSupertype]

/-! ## Types -/

theorem checkEntityType_eq_ok {d : Definition RawAttribute} {e : Entity RawAttribute}
    {e' : Entity Attribute} (h : d.checkEntityType e = .ok e') :
    e'.map Attribute.name = e.map RawAttribute.name ∧
      (∀ s, e'.supertype = some s → d.isExtensible s = true) ∧
      (e'.table.isSome = true ∨ (d.tableOf? e'.name).isSome = true) ∧
      ∀ b ∈ e'.attributes, d.checkShape e'.name b.name b.shape = .ok () := by
  obtain ⟨⟨⟩, hs, h⟩ := bind_eq_ok.1 h
  obtain ⟨⟨⟩, htable, h⟩ := bind_eq_ok.1 h
  obtain ⟨bs, hbs, h⟩ := bind_eq_ok.1 h
  cases h
  obtain ⟨hn, hsh⟩ := checkAttributes_eq_ok hbs
  refine ⟨by simp only [Entity.map, hn], ?_, ?_, hsh⟩
  · exact checkSupertype_eq_ok.1 hs
  · rwa [ensure_eq_ok, Bool.or_eq_true] at htable

theorem checkMappedSupertype_eq_ok {d : Definition RawAttribute}
    {s : MappedSupertype RawAttribute} {s' : MappedSupertype Attribute}
    (h : d.checkMappedSupertype s = .ok s') :
    s'.map Attribute.name = s.map RawAttribute.name ∧
      (∀ t, s'.supertype = some t → d.isExtensible t = true) ∧
      ∀ b ∈ s'.attributes, d.checkShape s'.name b.name b.shape = .ok () := by
  obtain ⟨⟨⟩, hs, h⟩ := bind_eq_ok.1 h
  obtain ⟨bs, hbs, h⟩ := bind_eq_ok.1 h
  cases h
  obtain ⟨hn, hsh⟩ := checkAttributes_eq_ok hbs
  refine ⟨by simp only [MappedSupertype.map, hn], ?_, hsh⟩
  exact checkSupertype_eq_ok.1 hs

theorem checkEmbeddableType_eq_ok {d : Definition RawAttribute} {e : Embeddable RawAttribute}
    {e' : Embeddable Attribute} (h : d.checkEmbeddableType e = .ok e') :
    e'.map Attribute.name = e.map RawAttribute.name ∧
      ∀ b ∈ e'.attributes, d.checkShape e'.name b.name b.shape = .ok () := by
  obtain ⟨bs, hbs, h⟩ := bind_eq_ok.1 h
  cases h
  obtain ⟨hn, hsh⟩ := checkAttributes_eq_ok hbs
  exact ⟨by simp only [Embeddable.map, hn], hsh⟩

/-! ## Definitions -/

/-- What the check of a list establishes for its members, and what it leaves as it is. -/
theorem map_eq_and_forall {α β γ : Type} {f : α → Except Fault β} {g : β → γ} {g' : α → γ}
    {P : β → Prop} {l : List α} {l' : List β} (h : l.mapM f = .ok l')
    (hf : ∀ a b, f a = .ok b → g b = g' a ∧ P b) : l'.map g = l.map g' ∧ ∀ b ∈ l', P b := by
  rw [mapM_eq_ok] at h
  induction h with
  | nil => simp
  | cons hab _ ih =>
    obtain ⟨hg, hP⟩ := hf _ _ hab
    exact ⟨by simp only [List.map_cons, hg, ih.1], List.forall_mem_cons.2 ⟨hP, ih.2⟩⟩

section Outline

/-! What is looked up by name does not tell two definitions of the same outline apart. -/

variable {d : Definition RawAttribute} {d' : Definition Attribute}
  (h : d'.outline = d.map RawAttribute.name)

include h

theorem typeNames_of_outline : d'.typeNames = d.typeNames := by
  rw [← typeNames_map Attribute.name d', ← typeNames_map RawAttribute.name d, ← h]
  rfl

theorem isExtensible_of_outline (n : String) : d'.isExtensible n = d.isExtensible n := by
  rw [← isExtensible_map Attribute.name d', ← isExtensible_map RawAttribute.name d, ← h]
  rfl

theorem tableOf?_of_outline (n : String) : d'.tableOf? n = d.tableOf? n := by
  rw [← tableOf?_map Attribute.name d', ← tableOf?_map RawAttribute.name d, ← h]
  rfl

theorem checkShape_of_outline (owner n : String) (s : Shape) :
    d'.checkShape owner n s = d.checkShape owner n s := by
  rw [← checkShape_map Attribute.name d', ← checkShape_map RawAttribute.name d, ← h]
  rfl

end Outline

/-- A checked definition has the outline of the definition as it was read. -/
theorem checked_of_check {d : Definition RawAttribute} {d' : Definition Attribute}
    (h : d.check = .ok d') : Checked d' ∧ d'.outline = d.map RawAttribute.name := by
  unfold check at h
  obtain ⟨-, -, h⟩ := bind_eq_ok.1 h
  cases hr : Logical.firstRepeated [] d.typeNames with
  | some n =>
    simp only [hr] at h
    cases h
  | none =>
    simp only [hr] at h
    obtain ⟨es, hes, h⟩ := bind_eq_ok.1 h
    obtain ⟨ms, hms, h⟩ := bind_eq_ok.1 h
    obtain ⟨bs, hbs, h⟩ := bind_eq_ok.1 h
    obtain ⟨⟨⟩, nesting, h⟩ := bind_eq_ok.1 h
    cases h
    obtain ⟨hes, pes⟩ := map_eq_and_forall hes fun _ _ => checkEntityType_eq_ok
    obtain ⟨hms, pms⟩ := map_eq_and_forall hms fun _ _ => checkMappedSupertype_eq_ok
    obtain ⟨hbs, pbs⟩ := map_eq_and_forall hbs fun _ _ => checkEmbeddableType_eq_ok
    generalize hd' : (⟨d.name, bs, ms, es⟩ : Definition Attribute) = d'
    have hout : d'.outline = d.map RawAttribute.name := by
      subst hd'
      simp only [outline, map, hes, hms, hbs]
    have nodup : d'.typeNames.Nodup := by
      rw [typeNames_of_outline hout]
      exact (Logical.firstRepeated_eq_none_iff.1 hr).1
    refine ⟨⟨nodup, ?_, ?_, ?_, by subst hd'; exact nesting⟩, hout⟩
    · intro n s hs
      rw [isExtensible_of_outline hout]
      unfold supertypeOf? at hs
      split at hs
      · rename_i e he
        exact (pes e (by subst hd'; exact (entity?_mem he).1)).1 s hs
      · obtain ⟨x, hx, hs⟩ := Option.bind_eq_some_iff.1 hs
        exact (pms x (by subst hd'; exact (mappedSupertype?_mem hx).1)).1 s hs
    · intro x hx
      rw [checkShape_of_outline hout]
      subst hd'
      simp only [declarations, List.mem_append, List.mem_flatMap, List.mem_map] at hx
      rcases hx with (⟨e, he, b, hb, rfl⟩ | ⟨e, he, b, hb, rfl⟩) | ⟨e, he, b, hb | hb, rfl⟩
      · exact pbs e he b hb
      · exact (pms e he).2 b hb
      · obtain ⟨i, _, rfl⟩ := hb
        rfl
      · exact (pes e he).2.2 b hb
    · intro e he
      rcases (pes e (by subst hd'; exact he)).2.1 with htable | htable
      · obtain ⟨table, htable⟩ := Option.isSome_iff_exists.1 htable
        exact ⟨table, tableOf?_of_table nodup he htable⟩
      · rw [← tableOf?_of_outline hout] at htable
        exact Option.isSome_iff_exists.1 htable

end QueryPath.Definition
