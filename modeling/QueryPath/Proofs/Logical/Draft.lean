import QueryPath.Logical.Source

/-!
# How drafts grow

A draft never loses a type, and what a type is apart from its supertype and its attributes stays
as it was: `Grows` says so, and what is found by name or by kind in a draft is found at the same
position in those that grow from it.

New types have neither supertypes nor attributes, and change none of those that there are
(`Expands`). Asking for a basic type or for an association to any entity adds types without names
at most (`Interns`), so it changes no names either. Setting a supertype and declaring an attribute
adds no types at all (`bareTypes_modify`).
-/

namespace QueryPath.Logical

/-! ## Types without supertype and attributes -/

namespace DomainType

/-- The type without its supertype and its attributes. -/
def bare : DomainType → DomainType
  | embeddable n _ => embeddable n []
  | entity n _ _ b => entity n [] none b
  | mappedSupertype n _ _ => mappedSupertype n [] none
  | t => t

variable (t : DomainType)

@[simp] theorem bare_addAttribute (a : Attribute) : (t.addAttribute a).bare = t.bare := by
  cases t <;> rfl

@[simp] theorem bare_setSupertype (s : TypeId) : (t.setSupertype s).bare = t.bare := by
  cases t <;> rfl

@[simp] theorem declaredName?_bare : t.bare.declaredName? = t.declaredName? := by
  cases t <;> rfl

@[simp] theorem isManaged_bare : t.bare.isManaged = t.isManaged := by
  cases t <;> rfl

@[simp] theorem isExtensible_bare : t.bare.isExtensible = t.isExtensible := by
  cases t <;> rfl

@[simp] theorem sourceKind?_bare (storedAs : Option Kind) :
    t.bare.sourceKind? storedAs = t.sourceKind? storedAs := by
  cases t <;> rfl

@[simp] theorem supertype?_bare : t.bare.supertype? = none := by
  cases t <;> rfl

@[simp] theorem attributes_bare : t.bare.attributes = [] := by
  cases t <;> rfl

@[simp] theorem bare_eq_basic {k : Kind} : t.bare = .basic k ↔ t = .basic k := by
  cases t <;> simp [bare]

@[simp] theorem bare_eq_any {d k : Kind} : t.bare = .any d k ↔ t = .any d k := by
  cases t <;> simp [bare]

@[simp] theorem supertype?_addAttribute (a : Attribute) :
    (t.addAttribute a).supertype? = t.supertype? := by
  cases t <;> rfl

@[simp] theorem attributes_setSupertype (s : TypeId) :
    (t.setSupertype s).attributes = t.attributes := by
  cases t <;> rfl

/-- Whether the type enters a draft when it is first asked for. -/
def isInterned : DomainType → Bool
  | basic _ | any _ _ => true
  | _ => false

variable {t}

theorem declaredName?_of_isInterned (h : t.isInterned = true) : t.declaredName? = none := by
  cases t <;> first | rfl | cases h

theorem bare_of_isInterned (h : t.isInterned = true) : t.bare = t := by
  cases t <;> first | rfl | cases h

theorem supertype?_of_isInterned (h : t.isInterned = true) : t.supertype? = none :=
  bare_of_isInterned h ▸ supertype?_bare t

theorem attributes_of_isInterned (h : t.isInterned = true) : t.attributes = [] :=
  bare_of_isInterned h ▸ attributes_bare t

end DomainType

namespace Draft

/-- The types without their supertypes and attributes. -/
def bareTypes (d : Draft) : List DomainType := d.types.map DomainType.bare

theorem find?_eq_bareTypes (d : Draft) (n : String) :
    d.find? n = d.bareTypes.findIdx? (·.declaredName? == some n) := by
  simp [find?, bareTypes, Function.comp_def]

theorem findBasic?_eq_bareTypes (d : Draft) (k : Kind) :
    d.findBasic? k = d.bareTypes.findIdx? (· == .basic k) := by
  simp only [findBasic?, bareTypes, List.findIdx?_map]
  congr 1
  funext t
  rw [Bool.eq_iff_iff]
  simp

theorem findAny?_eq_bareTypes (d : Draft) (x y : Kind) :
    d.findAny? x y = d.bareTypes.findIdx? (· == .any x y) := by
  simp only [findAny?, bareTypes, List.findIdx?_map]
  congr 1
  funext t
  rw [Bool.eq_iff_iff]
  simp

/-! ## Growth -/

/-- The second draft has the types of the first at the same positions, and perhaps more. -/
def Grows (d d' : Draft) : Prop := d.bareTypes <+: d'.bareTypes

namespace Grows

variable {d d' d'' : Draft}

theorem of_bareTypes_eq (h : d'.bareTypes = d.bareTypes) : Grows d d' :=
  ⟨[], by rw [List.append_nil, h]⟩

theorem length_le (h : Grows d d') : d.types.length ≤ d'.types.length := by
  have hlen := List.IsPrefix.length_le h
  rwa [Draft.bareTypes, Draft.bareTypes, List.length_map, List.length_map] at hlen

variable {id : TypeId}

theorem find? (h : Grows d d') {n : String} (hn : d.find? n = some id) : d'.find? n = some id := by
  rw [find?_eq_bareTypes] at hn ⊢
  exact h.findIdx?_eq_some hn

theorem findBasic? (h : Grows d d') {k : Kind} (hk : d.findBasic? k = some id) :
    d'.findBasic? k = some id := by
  rw [findBasic?_eq_bareTypes] at hk ⊢
  exact h.findIdx?_eq_some hk

theorem findAny? (h : Grows d d') {x y : Kind} (hxy : d.findAny? x y = some id) :
    d'.findAny? x y = some id := by
  rw [findAny?_eq_bareTypes] at hxy ⊢
  exact h.findIdx?_eq_some hxy

end Grows

/-! ## Types found by kind and by name -/

section Found

variable {d : Draft} {id : TypeId}

theorem typeAt?_of_findBasic? {k : Kind} (h : d.findBasic? k = some id) :
    d.typeAt? id = some (.basic k) := by
  obtain ⟨hlt, ht, -⟩ := List.findIdx?_eq_some_iff_getElem.1 h
  rw [typeAt?, List.getElem?_eq_getElem hlt]
  simpa using ht

theorem typeAt?_of_findAny? {x y : Kind} (h : d.findAny? x y = some id) :
    d.typeAt? id = some (.any x y) := by
  obtain ⟨hlt, ht, -⟩ := List.findIdx?_eq_some_iff_getElem.1 h
  rw [typeAt?, List.getElem?_eq_getElem hlt]
  simpa using ht

theorem typeAt?_of_find? {n : String} (h : d.find? n = some id) :
    ∃ t, d.typeAt? id = some t ∧ t.declaredName? = some n := by
  obtain ⟨hlt, ht, -⟩ := List.findIdx?_eq_some_iff_getElem.1 h
  exact ⟨d.types[id], List.getElem?_eq_getElem hlt, by simpa using ht⟩

theorem lt_of_find? {n : String} (h : d.find? n = some id) : id < d.types.length :=
  (List.findIdx?_eq_some_iff_getElem.1 h).1

/-- No two names stand for one type. -/
theorem find?_inj {n n' : String} (h : d.find? n = some id) (h' : d.find? n' = some id) :
    n = n' := by
  obtain ⟨t, ht, hn⟩ := typeAt?_of_find? h
  obtain ⟨t', ht', hn'⟩ := typeAt?_of_find? h'
  rw [ht, Option.some.injEq] at ht'
  subst ht'
  rw [hn, Option.some.injEq] at hn'
  exact hn'

end Found

/-! ## New types -/

/-- The second draft has more types than the first by some without supertypes and attributes. -/
def Expands (d d' : Draft) : Prop :=
  ∃ new : List DomainType, d'.types = d.types ++ new ∧ ∀ t ∈ new, t.bare = t

namespace Expands

variable {d d' : Draft}

theorem push {t : DomainType} (d : Draft) (h : t.bare = t) : Expands d (d.push t).2 :=
  ⟨[t], rfl, by simpa using h⟩

theorem grows (h : Expands d d') : Grows d d' := by
  obtain ⟨l, hl, hnew⟩ := h
  refine ⟨l, ?_⟩
  rw [bareTypes, bareTypes, hl, List.map_append]
  congr 1
  exact ((List.map_congr_left hnew).trans (List.map_id l)).symm

/-- At each position either both drafts have the same type or the second one has a new type. -/
private theorem typeAt?_cases (h : Expands d d') (id : TypeId) :
    d'.typeAt? id = d.typeAt? id ∨
      d.typeAt? id = none ∧ ∃ t, d'.typeAt? id = some t ∧ t.bare = t := by
  obtain ⟨l, hl, hnew⟩ := h
  simp only [typeAt?, hl]
  rcases Nat.lt_or_ge id d.types.length with hlt | hge
  · exact .inl (List.getElem?_append_left hlt)
  · rw [List.getElem?_append_right hge, List.getElem?_eq_none hge]
    cases ht : l[id - d.types.length]? with
    | none => exact .inl rfl
    | some t => exact .inr ⟨rfl, t, rfl, hnew t (List.mem_of_getElem? ht)⟩

theorem supertypeOf? (h : Expands d d') : d'.supertypeOf? = d.supertypeOf? := by
  funext id
  simp only [Draft.supertypeOf?]
  rcases h.typeAt?_cases id with he | ⟨hn, t, ht, hbare⟩
  · rw [he]
  · rw [hn, ht, ← hbare]
    exact t.supertype?_bare

theorem declaredBy (h : Expands d d') (id : TypeId) : d'.declaredBy id = d.declaredBy id := by
  simp only [Draft.declaredBy]
  rcases h.typeAt?_cases id with he | ⟨hn, t, ht, hbare⟩
  · rw [he]
  · rw [hn, ht, ← hbare]
    exact t.attributes_bare

end Expands

/-! ## Types that enter when asked for -/

/-- The second draft has more types than the first by some without names. -/
def Interns (d d' : Draft) : Prop :=
  ∃ new : List DomainType, d'.types = d.types ++ new ∧ ∀ t ∈ new, t.isInterned = true

namespace Interns

variable {d d' d'' : Draft}

theorem refl (d : Draft) : Interns d d := ⟨[], by simp, by simp⟩

theorem trans (h : Interns d d') (h' : Interns d' d'') : Interns d d'' := by
  obtain ⟨l, hl, hint⟩ := h
  obtain ⟨l', hl', hint'⟩ := h'
  refine ⟨l ++ l', by rw [hl', hl, List.append_assoc], fun t ht => ?_⟩
  rcases List.mem_append.1 ht with ht | ht
  · exact hint t ht
  · exact hint' t ht

theorem push {t : DomainType} (d : Draft) (h : t.isInterned = true) : Interns d (d.push t).2 :=
  ⟨[t], rfl, by simpa using h⟩

theorem expands (h : Interns d d') : Expands d d' := by
  obtain ⟨l, hl, hint⟩ := h
  exact ⟨l, hl, fun t ht => DomainType.bare_of_isInterned (hint t ht)⟩

theorem bareTypes (h : Interns d d') :
    ∃ new : List DomainType, d'.bareTypes = d.bareTypes ++ new ∧
      ∀ t ∈ new, t.isInterned = true := by
  obtain ⟨l, hl, hint⟩ := h
  refine ⟨l, ?_, hint⟩
  rw [Draft.bareTypes, hl, List.map_append, Draft.bareTypes]
  congr 1
  exact (List.map_congr_left fun t ht => DomainType.bare_of_isInterned (hint t ht)).trans
    (List.map_id l)

theorem grows (h : Interns d d') : Grows d d' := h.expands.grows

theorem supertypeOf? (h : Interns d d') : d'.supertypeOf? = d.supertypeOf? :=
  h.expands.supertypeOf?

theorem declaredBy (h : Interns d d') (id : TypeId) : d'.declaredBy id = d.declaredBy id :=
  h.expands.declaredBy id

theorem find? (h : Interns d d') (n : String) : d'.find? n = d.find? n := by
  obtain ⟨l, hl, hint⟩ := h
  have hnew : l.findIdx? (·.declaredName? == some n) = none := by
    rw [List.findIdx?_eq_none_iff]
    intro t ht
    simp [DomainType.declaredName?_of_isInterned (hint t ht)]
  simp only [Draft.find?, hl, List.findIdx?_append, hnew, Option.map_none, Option.or_none]

end Interns

/-- The basic type of a kind is known from then on. -/
theorem basic_spec (d : Draft) (k : Kind) :
    Interns d (d.basic k).2 ∧ (d.basic k).2.findBasic? k = some (d.basic k).1 := by
  unfold basic
  cases hk : d.findBasic? k with
  | some id => exact ⟨.refl d, hk⟩
  | none =>
    refine ⟨.push d rfl, ?_⟩
    rw [findBasic?] at hk
    simp [push, findBasic?, List.findIdx?_append, hk]

/-- The basic type of a kind is no association. -/
theorem findAny?_basic (d : Draft) (k x y : Kind) :
    (d.basic k).2.findAny? x y = d.findAny? x y := by
  unfold basic
  cases d.findBasic? k with
  | some id => rfl
  | none => simp [push, findAny?, List.findIdx?_append]

theorem any_spec (d : Draft) (x y : Kind) :
    Interns d (d.any x y).2 ∧ (d.any x y).2.findAny? x y = some (d.any x y).1 := by
  unfold any
  cases hxy : d.findAny? x y with
  | some id => exact ⟨.refl d, hxy⟩
  | none =>
    refine ⟨((basic_spec d x).1.trans (basic_spec _ y).1).trans (.push _ rfl), ?_⟩
    rw [← findAny?_basic d x, ← findAny?_basic _ y, findAny?] at hxy
    simp [push, findAny?, List.findIdx?_append, hxy]

/-- The two kinds of each association to any entity are known. -/
def KnowsKinds (d : Draft) : Prop :=
  ∀ x y, .any x y ∈ d.bareTypes → (d.findBasic? x).isSome ∧ (d.findBasic? y).isSome

namespace KnowsKinds

variable {d d' : Draft}

theorem of_bareTypes_eq (h : KnowsKinds d) (he : d'.bareTypes = d.bareTypes) : KnowsKinds d' := by
  intro x y hxy
  rw [findBasic?_eq_bareTypes, findBasic?_eq_bareTypes, he, ← findBasic?_eq_bareTypes,
    ← findBasic?_eq_bareTypes]
  exact h x y (he ▸ hxy)

theorem push (h : KnowsKinds d) {t : DomainType}
    (ht : ∀ x y, t.bare = .any x y → (d.findBasic? x).isSome ∧ (d.findBasic? y).isSome) :
    KnowsKinds (d.push t).2 := by
  have grows : Grows d (d.push t).2 := ⟨[t.bare], by simp [Draft.push, bareTypes]⟩
  have known : ∀ k, (d.findBasic? k).isSome → ((d.push t).2.findBasic? k).isSome := by
    intro k hk
    obtain ⟨id, hid⟩ := Option.isSome_iff_exists.1 hk
    exact Option.isSome_iff_exists.2 ⟨id, grows.findBasic? hid⟩
  intro x y hxy
  have hxy : .any x y ∈ d.bareTypes ++ [t.bare] := by simpa [Draft.push, bareTypes] using hxy
  rcases List.mem_append.1 hxy with hxy | hxy
  · exact (h x y hxy).imp (known x) (known y)
  · exact (ht x y (List.mem_singleton.1 hxy).symm).imp (known x) (known y)

theorem basic (h : KnowsKinds d) (k : Kind) : KnowsKinds (d.basic k).2 := by
  unfold Draft.basic
  cases d.findBasic? k with
  | some id => exact h
  | none => exact h.push fun x y hxy => by simp at hxy

theorem any (h : KnowsKinds d) (x y : Kind) : KnowsKinds (d.any x y).2 := by
  unfold Draft.any
  cases d.findAny? x y with
  | some id => exact h
  | none =>
    refine ((h.basic x).basic y).push fun x' y' hxy => ?_
    obtain ⟨rfl, rfl⟩ : x = x' ∧ y = y' := by simpa using hxy
    have hx := (basic_spec ((d.basic x).2) y).1.grows.findBasic? (basic_spec d x).2
    have hy := (basic_spec ((d.basic x).2) y).2
    exact ⟨by simp [hx], by simp [hy]⟩

end KnowsKinds

/-! ## Supertypes and attributes -/

section Modify

variable (d : Draft) (id : TypeId)

theorem typeAt?_modify (f : DomainType → DomainType) (j : TypeId) :
    (d.modify id f).typeAt? j = (d.typeAt? j).map fun t => if id = j then f t else t := by
  simp only [typeAt?, modify, List.getElem?_modify]
  rfl

theorem bareTypes_modify {f : DomainType → DomainType} (h : ∀ t, (f t).bare = t.bare) :
    (d.modify id f).bareTypes = d.bareTypes := by
  apply List.ext_getElem?
  intro j
  simp only [bareTypes, modify, List.getElem?_map, List.getElem?_modify]
  cases d.types[j]? with
  | none => rfl
  | some t =>
    simp only [Option.map_eq_map, Option.map_some, Option.some.injEq]
    split
    · exact h t
    · rfl

end Modify

variable {d d' : Draft} {id : TypeId}

theorem check_eq_true {p : DomainType → Bool} :
    d.check id p = true ↔ ∃ t, d.typeAt? id = some t ∧ p t = true := by
  unfold check
  cases d.typeAt? id <;> simp

theorem setSupertype_spec {s : TypeId} (h : d.setSupertype id s = .ok d') :
    d'.bareTypes = d.bareTypes ∧ (∀ j, d'.declaredBy j = d.declaredBy j) ∧
      ∀ j, d'.supertypeOf? j = if id = j then some s else d.supertypeOf? j := by
  unfold setSupertype at h
  split at h
  · rename_i hc
    obtain ⟨t, ht, hext⟩ := check_eq_true.1 (Bool.and_eq_true_iff.1 hc).2
    cases h
    refine ⟨bareTypes_modify d id (DomainType.bare_setSupertype · s), fun j => ?_, fun j => ?_⟩
    · simp only [declaredBy, typeAt?_modify, Option.map_map]
      congr 2
      funext t
      simp only [Function.comp_apply]
      split <;> simp
    · simp only [supertypeOf?, typeAt?_modify]
      split
      · rename_i hj
        subst hj
        simp [ht, DomainType.supertype?_setSupertype hext]
      · simp
  · cases h

theorem setSupertype_ok {s : TypeId} (hs : ∃ t, d.typeAt? s = some t ∧ t.isExtensible = true)
    (hid : ∃ t, d.typeAt? id = some t ∧ t.isExtensible = true) :
    ∃ d', d.setSupertype id s = .ok d' := by
  rw [setSupertype, check_eq_true.2 hs, check_eq_true.2 hid]
  exact ⟨_, rfl⟩

/-- An attribute with its index type is declared on a managed type unless its name is taken. -/
theorem addAttribute_spec {a : Attribute} (hindex : lacksIndex a = false)
    (hid : ∃ t, d.typeAt? id = some t ∧ t.isManaged = true) :
    (a.name ∈ (d.declaredBy id).map (·.name) ∧
      d.addAttribute id a = .error (.duplicateAttribute (d.nameOf id) a.name)) ∨
    ∃ d', d.addAttribute id a = .ok d' ∧ a.name ∉ (d.declaredBy id).map (·.name) ∧
      d'.bareTypes = d.bareTypes ∧ (∀ j, d'.supertypeOf? j = d.supertypeOf? j) ∧
      ∀ j, d'.declaredBy j = if id = j then d.declaredBy j ++ [a] else d.declaredBy j := by
  have hmem : (d.declaredBy id).any (·.name == a.name) = true ↔
      a.name ∈ (d.declaredBy id).map (·.name) := by
    simp
  unfold addAttribute
  rw [hindex, check_eq_true.2 hid]
  simp only [Bool.false_eq_true, if_false, Bool.not_true]
  split
  · rename_i hany
    exact .inl ⟨hmem.1 hany, rfl⟩
  · rename_i hany
    obtain ⟨t, ht, hman⟩ := hid
    refine .inr ⟨_, rfl, fun hn => hany (hmem.2 hn),
      bareTypes_modify d id (DomainType.bare_addAttribute · a), fun j => ?_, fun j => ?_⟩
    · simp only [supertypeOf?, typeAt?_modify]
      cases d.typeAt? j with
      | none => rfl
      | some t =>
        simp only [Option.map_some, Option.bind_some]
        split <;> simp
    · simp only [declaredBy, typeAt?_modify]
      split
      · rename_i hj
        subst hj
        simp [ht, DomainType.attributes_addAttribute hman]
      · simp

/-- What it takes to declare an attribute, and what it changes. -/
theorem addAttribute_eq_ok {a : Attribute} (h : d.addAttribute id a = .ok d') :
    a.name ∉ (d.declaredBy id).map (·.name) ∧ d'.bareTypes = d.bareTypes ∧
      (∀ j, d'.supertypeOf? j = d.supertypeOf? j) ∧
      ∀ j, d'.declaredBy j = if id = j then d.declaredBy j ++ [a] else d.declaredBy j := by
  have hindex : lacksIndex a = false := by
    cases hlacks : lacksIndex a with
    | false => rfl
    | true =>
      rw [addAttribute, if_pos hlacks] at h
      cases h
  have hid : d.check id DomainType.isManaged = true := by
    cases hcheck : d.check id DomainType.isManaged with
    | true => rfl
    | false =>
      rw [addAttribute, hindex, hcheck] at h
      cases h
  rcases addAttribute_spec hindex (check_eq_true.1 hid) with ⟨-, herror⟩ | ⟨d'', hok, hspec⟩
  · rw [herror] at h
    cases h
  · rw [hok] at h
    cases h
    exact hspec

end Draft

end QueryPath.Logical
