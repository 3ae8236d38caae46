import QueryPath.Proofs.Logical.Run

/-!
# Types are known by their keys

Each type of a draft has a key: a basic type its kind, an association to any entity its two kinds,
all others their name. No two types of a draft have the same key, so a key leads to one position.
Calls keep this true, whether they succeed or fail, together with the rest of what a draft is made
of (`Draft.Orderly`): kinds of associations are known, only entities and mapped supertypes stand
above or below others, and no type declares a name twice. A position that was given out keeps
standing for what was asked for (`Draft.typeAt?_of_gives?`, `Draft.grows_run`).
-/

namespace QueryPath.Logical

/-! ## Keys -/

/-- What a type is looked up by. -/
inductive TypeKey where
  | kind (kind : Kind)
  | kinds (discriminator key : Kind)
  | name (name : String)
deriving DecidableEq, Repr

namespace DomainType

def key : DomainType → TypeKey
  | basic k => .kind k
  | any x y => .kinds x y
  | embeddable n _ | entity n _ _ _ | mappedSupertype n _ _ | tuple n _ => .name n

variable {t : DomainType}

@[simp] theorem key_bare (t : DomainType) : t.bare.key = t.key := by cases t <;> rfl

theorem key_eq_kind {k : Kind} : t.key = .kind k ↔ t = .basic k := by
  cases t <;> simp [key]

theorem key_eq_kinds {x y : Kind} : t.key = .kinds x y ↔ t = .any x y := by
  cases t <;> simp [key]

theorem key_eq_name {n : String} : t.key = .name n ↔ t.declaredName? = some n := by
  cases t <;> simp [key, declaredName?, name]

end DomainType

namespace Draft

/-- The keys of the types, in order. -/
def keys (d : Draft) : List TypeKey := d.types.map DomainType.key

variable {d d' : Draft} {id : TypeId}

theorem keys_eq_of_bareTypes (h : d'.bareTypes = d.bareTypes) : d'.keys = d.keys := by
  have hkeys : ∀ d : Draft, d.keys = d.bareTypes.map DomainType.key := fun d => by
    simp [keys, bareTypes, Function.comp_def]
  rw [hkeys, hkeys, h]

theorem keys_push (d : Draft) (t : DomainType) : (d.push t).2.keys = d.keys ++ [t.key] := by
  simp [keys, push]

theorem getElem?_keys {key : TypeKey} :
    d.keys[id]? = some key ↔ ∃ t, d.typeAt? id = some t ∧ t.key = key := by
  rw [keys, List.getElem?_map, Option.map_eq_some_iff]
  rfl

/-! Looking a type up is looking for its key. -/

theorem find?_eq_keys (d : Draft) (n : String) :
    d.find? n = d.keys.findIdx? (· == .name n) := by
  rw [find?, keys, List.findIdx?_map]
  congr 1
  funext t
  rw [Bool.eq_iff_iff, beq_iff_eq, Function.comp_apply, beq_iff_eq, DomainType.key_eq_name]

theorem findBasic?_eq_keys (d : Draft) (k : Kind) :
    d.findBasic? k = d.keys.findIdx? (· == .kind k) := by
  rw [findBasic?, keys, List.findIdx?_map]
  congr 1
  funext t
  rw [Bool.eq_iff_iff, beq_iff_eq, Function.comp_apply, beq_iff_eq, DomainType.key_eq_kind]

theorem findAny?_eq_keys (d : Draft) (x y : Kind) :
    d.findAny? x y = d.keys.findIdx? (· == .kinds x y) := by
  rw [findAny?, keys, List.findIdx?_map]
  congr 1
  funext t
  rw [Bool.eq_iff_iff, beq_iff_eq, Function.comp_apply, beq_iff_eq, DomainType.key_eq_kinds]

theorem not_mem_keys_iff {key : TypeKey} :
    key ∉ d.keys ↔ d.keys.findIdx? (· == key) = none := by
  rw [List.findIdx?_eq_none_iff]
  constructor
  · intro hkey x hx
    exact beq_eq_false_iff_ne.2 fun heq => hkey (heq ▸ hx)
  · intro h hkey
    exact beq_eq_false_iff_ne.1 (h key hkey) rfl

/-- Where keys differ, the first type with a key is the only one. -/
theorem findIdx?_keys (nodup : d.keys.Nodup) {key : TypeKey} :
    d.keys.findIdx? (· == key) = some id ↔ ∃ t, d.typeAt? id = some t ∧ t.key = key := by
  rw [← getElem?_keys, List.findIdx?_eq_some_iff_getElem]
  constructor
  · rintro ⟨hlt, hkey, -⟩
    rw [List.getElem?_eq_getElem hlt, beq_iff_eq.1 hkey]
  · intro hkey
    obtain ⟨hlt, hkey⟩ := List.getElem?_eq_some_iff.1 hkey
    refine ⟨hlt, beq_iff_eq.2 hkey, fun j hj hjkey => ?_⟩
    rw [beq_iff_eq, ← hkey, nodup.getElem_inj_iff] at hjkey
    exact Nat.ne_of_lt hj hjkey

/-! ## What calls keep -/

/-- What is true of a draft at any time. -/
structure Orderly (d : Draft) : Prop where
  nodup_keys : d.keys.Nodup
  knowsKinds : d.KnowsKinds
  /-- Entities and mapped supertypes stand below entities and mapped supertypes. -/
  extensible : ∀ id s, d.supertypeOf? id = some s →
    d.check id DomainType.isExtensible = true ∧ d.check s DomainType.isExtensible = true
  nodup_names : ∀ id, ((d.declaredBy id).map (·.name)).Nodup

/-- A type stays what it is, apart from its supertype and its attributes. -/
theorem Grows.typeAt? (h : Grows d d') {t : DomainType} (ht : d.typeAt? id = some t) :
    ∃ t', d'.typeAt? id = some t' ∧ t'.bare = t.bare := by
  obtain ⟨new, hnew⟩ := h
  have hbare : d.bareTypes[id]? = some t.bare := by
    rw [bareTypes, List.getElem?_map]
    exact congrArg (Option.map DomainType.bare) ht
  have hlt := (List.getElem?_eq_some_iff.1 hbare).1
  rw [← List.getElem?_append_left hlt, hnew, bareTypes, List.getElem?_map,
    Option.map_eq_some_iff] at hbare
  exact hbare

theorem Grows.check_isExtensible (h : Grows d d')
    (hid : d.check id DomainType.isExtensible = true) :
    d'.check id DomainType.isExtensible = true := by
  obtain ⟨t, ht, hext⟩ := check_eq_true.1 hid
  obtain ⟨t', ht', hbare⟩ := h.typeAt? ht
  refine check_eq_true.2 ⟨t', ht', ?_⟩
  rw [← DomainType.isExtensible_bare, hbare, DomainType.isExtensible_bare, hext]

namespace Orderly

theorem empty : Orderly {} := by
  refine ⟨List.nodup_nil, ?_, ?_, fun id => List.nodup_nil⟩
  · intro x y hxy
    cases hxy
  · intro id s hs
    cases hs

/-- A type may be added under a new key. -/
theorem push (h : d.Orderly) {t : DomainType} (hbare : t.bare = t) (hkey : t.key ∉ d.keys)
    (knows : (d.push t).2.KnowsKinds) : (d.push t).2.Orderly := by
  have hexp := Expands.push d hbare
  refine ⟨?_, knows, fun id s hs => ?_, fun id => ?_⟩
  · rw [keys_push, List.nodup_append]
    refine ⟨h.nodup_keys, List.nodup_singleton _, fun k hk k' hk' => ?_⟩
    rw [List.mem_singleton.1 hk']
    exact fun heq => hkey (heq ▸ hk)
  · rw [hexp.supertypeOf?] at hs
    exact (h.extensible id s hs).imp hexp.grows.check_isExtensible hexp.grows.check_isExtensible
  · rw [hexp.declaredBy]
    exact h.nodup_names id

theorem basic (h : d.Orderly) (k : Kind) : (d.basic k).2.Orderly := by
  have knows := h.knowsKinds.basic k
  unfold Draft.basic at knows ⊢
  cases hk : d.findBasic? k with
  | some id => exact h
  | none =>
    rw [hk] at knows
    refine h.push rfl ?_ knows
    rw [DomainType.key, not_mem_keys_iff, ← findBasic?_eq_keys, hk]

theorem any (h : d.Orderly) (x y : Kind) : (d.any x y).2.Orderly := by
  have knows := h.knowsKinds.any x y
  unfold Draft.any at knows ⊢
  cases hxy : d.findAny? x y with
  | some id => exact h
  | none =>
    rw [hxy] at knows
    refine ((h.basic x).basic y).push rfl ?_ knows
    rw [DomainType.key, not_mem_keys_iff, ← findAny?_eq_keys, findAny?_basic, findAny?_basic, hxy]

theorem declare (h : d.Orderly) {t : DomainType} (hbare : t.bare = t)
    (hkey : t.key = .name t.name) (hd : (d.declare t).map (·.2) = .ok d') : d'.Orderly := by
  unfold Draft.declare at hd
  cases hn : d.find? t.name with
  | some id =>
    rw [hn] at hd
    cases hd
  | none =>
    rw [hn] at hd
    cases hd
    refine h.push hbare ?_ (h.knowsKinds.push fun x y hxy => ?_)
    · rw [hkey, not_mem_keys_iff, ← find?_eq_keys, hn]
    · rw [← DomainType.key_bare, hxy] at hkey
      cases hkey

theorem setSupertype (h : d.Orderly) {s : TypeId} (hd : d.setSupertype id s = .ok d') :
    d'.Orderly := by
  obtain ⟨hbare, hattrs, hsuper⟩ := setSupertype_spec hd
  have grows := Grows.of_bareTypes_eq hbare
  have hcheck : d.check s DomainType.isExtensible = true ∧
      d.check id DomainType.isExtensible = true := by
    rw [Draft.setSupertype] at hd
    split at hd
    · rename_i hc
      exact Bool.and_eq_true_iff.1 hc
    · cases hd
  refine ⟨keys_eq_of_bareTypes hbare ▸ h.nodup_keys, h.knowsKinds.of_bareTypes_eq hbare,
    fun j s' hs' => ?_, fun j => hattrs j ▸ h.nodup_names j⟩
  rw [hsuper] at hs'
  split at hs'
  · rename_i hj
    cases hs'
    exact ⟨grows.check_isExtensible (hj ▸ hcheck.2), grows.check_isExtensible hcheck.1⟩
  · exact (h.extensible j s' hs').imp grows.check_isExtensible grows.check_isExtensible

theorem addAttribute (h : d.Orderly) {a : Attribute} (hd : d.addAttribute id a = .ok d') :
    d'.Orderly := by
  obtain ⟨hfresh, hbare, hsuper, hattrs⟩ := addAttribute_eq_ok hd
  have grows := Grows.of_bareTypes_eq hbare
  refine ⟨keys_eq_of_bareTypes hbare ▸ h.nodup_keys, h.knowsKinds.of_bareTypes_eq hbare,
    fun j s hs => ?_, fun j => ?_⟩
  · rw [hsuper] at hs
    exact (h.extensible j s hs).imp grows.check_isExtensible grows.check_isExtensible
  · rw [hattrs]
    split
    · rename_i hj
      subst hj
      rw [List.map_append, List.nodup_append]
      refine ⟨h.nodup_names id, List.nodup_singleton _, fun n hn n' hn' => ?_⟩
      obtain rfl : n' = a.name := by simpa using hn'
      exact fun heq => hfresh (heq ▸ hn)
    · exact h.nodup_names j

/-- Each call keeps a draft orderly. -/
theorem next (h : d.Orderly) (c : Call) : (d.next c).Orderly := by
  unfold Draft.next
  cases hc : c.apply d with
  | error e => exact h
  | ok d' =>
    cases c with
    | basic k =>
      cases hc
      exact h.basic k
    | any x y =>
      cases hc
      exact h.any x y
    | entity n isAbstract => exact h.declare rfl rfl hc
    | embeddable n => exact h.declare rfl rfl hc
    | mappedSupertype n => exact h.declare rfl rfl hc
    | tuple n components => exact h.declare rfl rfl hc
    | setSupertype id s => exact h.setSupertype hc
    | addAttribute owner a => exact h.addAttribute hc

theorem run (h : d.Orderly) (calls : List Call) : (d.run calls).Orderly := by
  induction calls generalizing d with
  | nil => exact h
  | cons c calls ih => exact ih (h.next c)

end Orderly

/-! ## Positions that are given out -/

/-- The position that a call gives out, with the type that is asked for. -/
def Call.gives? (d : Draft) : Call → Option (TypeId × DomainType)
  | basic k => some ((d.basic k).1, .basic k)
  | any x y => some ((d.any x y).1, .any x y)
  | entity n isAbstract => declared? (.entity n [] none isAbstract)
  | embeddable n => declared? (.embeddable n [])
  | mappedSupertype n => declared? (.mappedSupertype n [] none)
  | tuple n components => declared? (.tuple n components)
  | setSupertype _ _ | addAttribute _ _ => none
where
  declared? (t : DomainType) : Option (TypeId × DomainType) :=
    (d.declare t).toOption.map fun r => (r.1, t)

theorem declare_eq_ok {t : DomainType} {r : TypeId × Draft} (h : d.declare t = .ok r) :
    d.find? t.name = none ∧ r = d.push t := by
  unfold declare at h
  split at h
  · cases h
  · rename_i hn
    cases h
    exact ⟨hn, rfl⟩

/-- A draft grows with each call. -/
theorem grows_next (d : Draft) (c : Call) : Grows d (d.next c) := by
  have declare : ∀ {d' : Draft} {t : DomainType}, t.bare = t →
      (d.declare t).map (·.2) = .ok d' → Grows d d' := by
    intro d' t hbare hd
    obtain ⟨r, hr, rfl⟩ := map_eq_ok.1 hd
    obtain ⟨-, rfl⟩ := declare_eq_ok hr
    exact (Expands.push d hbare).grows
  unfold next
  cases hc : c.apply d with
  | error e => exact List.prefix_rfl
  | ok d' =>
    cases c with
    | basic k =>
      cases hc
      exact (basic_spec d k).1.grows
    | any x y =>
      cases hc
      exact (any_spec d x y).1.grows
    | entity n isAbstract => exact declare rfl hc
    | embeddable n => exact declare rfl hc
    | mappedSupertype n => exact declare rfl hc
    | tuple n components => exact declare rfl hc
    | setSupertype id s => exact .of_bareTypes_eq (setSupertype_spec hc).1
    | addAttribute owner a => exact .of_bareTypes_eq (addAttribute_eq_ok hc).2.1

theorem grows_run (d : Draft) (calls : List Call) : Grows d (d.run calls) := by
  induction calls generalizing d with
  | nil => exact List.prefix_rfl
  | cons c calls ih => exact (grows_next d c).trans (ih (d.next c))

/-- At the position that a call gives out stands the type that was asked for. -/
theorem typeAt?_of_gives? {c : Call} {t : DomainType} (h : c.gives? d = some (id, t)) :
    ∃ t', (d.next c).typeAt? id = some t' ∧ t'.bare = t := by
  have declared : ∀ {t₀ : DomainType}, t₀.bare = t₀ → c.apply d = (d.declare t₀).map (·.2) →
      Call.gives?.declared? d t₀ = some (id, t) →
      ∃ t', (d.next c).typeAt? id = some t' ∧ t'.bare = t := by
    intro t₀ hbare happly hgives
    rw [next, happly]
    rw [Call.gives?.declared?] at hgives
    cases hr : d.declare t₀ with
    | error e =>
      rw [hr] at hgives
      cases hgives
    | ok r =>
      rw [hr] at hgives
      obtain ⟨-, rfl⟩ := declare_eq_ok hr
      cases hgives
      exact ⟨t, List.getElem?_concat_length, hbare⟩
  cases c with
  | basic k =>
    cases h
    exact ⟨_, typeAt?_of_findBasic? (basic_spec d k).2, rfl⟩
  | any x y =>
    cases h
    exact ⟨_, typeAt?_of_findAny? (any_spec d x y).2, rfl⟩
  | entity n isAbstract => exact declared rfl rfl h
  | embeddable n => exact declared rfl rfl h
  | mappedSupertype n => exact declared rfl rfl h
  | tuple n components => exact declared rfl rfl h
  | setSupertype id s => cases h
  | addAttribute owner a => cases h

end Draft

end QueryPath.Logical
