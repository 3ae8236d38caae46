import QueryPath.Proofs.Logical.Chain

/-!
# Drafts made by calls

A draft is made by calls, one after the other (`Draft.run`); a call that fails leaves the draft as
it is. Calls name types by the positions that the draft has given out by then (`Draft.Issued`).

Each such call keeps a draft coherent: supertypes and the types that attributes refer to are types
of the draft, and the draft knows both kinds of each association to any entity
(`Draft.Made.coherent`). Calls do not keep supertypes free of circles, nor the names of attributes
distinct along a chain: a supertype may be set before and after anything else, to the type itself
as well. That is for `Draft.build` to find out.
-/

namespace QueryPath.Logical

namespace Attribute

/-- The type of the index of a collection. -/
def index? (a : Attribute) : Option TypeId :=
  match a.nature with
  | .singular => none
  | .plural _ index => index

/-- The type of the values and that of the index. -/
def refersTo (a : Attribute) : List TypeId := a.type :: a.index?.toList

theorem type_mem_refersTo (a : Attribute) : a.type ∈ a.refersTo := List.mem_cons_self

theorem index_mem_refersTo {a : Attribute} {c : Classification} {i : TypeId}
    (h : a.nature = .plural c (some i)) : i ∈ a.refersTo := by
  simp [refersTo, index?, h]

end Attribute

namespace Draft

/-! ## Calls -/

/-- What can be asked of a draft. -/
inductive Call where
  | basic (kind : Kind)
  | any (discriminator key : Kind)
  | entity (name : String) (isAbstract : Bool)
  | embeddable (name : String)
  | mappedSupertype (name : String)
  | tuple (name : String) (components : List (String × Kind))
  | setSupertype (id supertype : TypeId)
  | addAttribute (owner : TypeId) (a : Attribute)
deriving DecidableEq, Repr

namespace Call

/-- The draft behind a call that succeeds. -/
def apply (d : Draft) : Call → Except Error Draft
  | basic k => .ok (d.basic k).2
  | any x y => .ok (d.any x y).2
  | entity n isAbstract => (d.declare (.entity n [] none isAbstract)).map (·.2)
  | embeddable n => (d.declare (.embeddable n [])).map (·.2)
  | mappedSupertype n => (d.declare (.mappedSupertype n [] none)).map (·.2)
  | tuple n components => (d.declare (.tuple n components)).map (·.2)
  | setSupertype id s => d.setSupertype id s
  | addAttribute owner a => d.addAttribute owner a

/-- The types that a call names by their positions. -/
def refersTo : Call → List TypeId
  | setSupertype id s => [id, s]
  | addAttribute owner a => owner :: a.refersTo
  | _ => []

end Call

/-- The draft behind a call. -/
def next (d : Draft) (c : Call) : Draft :=
  match c.apply d with
  | .ok d' => d'
  | .error _ => d

/-- The draft behind some calls. -/
def run (d : Draft) (calls : List Call) : Draft := calls.foldl next d

/-- Each call names types that are known by then. -/
def Issued : Draft → List Call → Prop
  | _, [] => True
  | d, c :: calls => (∀ id ∈ c.refersTo, id < d.types.length) ∧ Issued (d.next c) calls

instance decidableIssued : (d : Draft) → (calls : List Call) → Decidable (Issued d calls)
  | _, [] => .isTrue trivial
  | d, c :: calls =>
    have := decidableIssued (d.next c) calls
    inferInstanceAs (Decidable (_ ∧ _))

/-! ## What calls keep -/

/-- Whatever a draft refers to is there. -/
structure Coherent (d : Draft) : Prop where
  validSupertypes : d.ValidSupertypes
  knowsKinds : d.KnowsKinds
  typed : ∀ id, ∀ a ∈ d.declaredBy id, ∀ t ∈ a.refersTo, t < d.types.length

namespace Coherent

variable {d d' : Draft}

theorem empty : Coherent {} := by
  constructor
  · intro id s hs
    cases hs
  · intro x y hxy
    cases hxy
  · intro id a ha
    cases ha

/-- New types refer to nothing. -/
theorem expand (h : d.Coherent) (hexp : Expands d d') (knows : d'.KnowsKinds) : d'.Coherent where
  validSupertypes id s hs := by
    rw [hexp.supertypeOf?] at hs
    exact Nat.lt_of_lt_of_le (h.validSupertypes id s hs) hexp.grows.length_le
  knowsKinds := knows
  typed id a ha t ht := by
    rw [hexp.declaredBy] at ha
    exact Nat.lt_of_lt_of_le (h.typed id a ha t ht) hexp.grows.length_le

theorem declare (h : d.Coherent) {t : DomainType} (hbare : t.bare = t)
    (hint : t.isInterned = false) (hd : (d.declare t).map (·.2) = .ok d') : d'.Coherent := by
  unfold Draft.declare at hd
  split at hd
  · cases hd
  · cases hd
    refine h.expand (.push d hbare) (h.knowsKinds.push fun x y hxy => ?_)
    rw [← hbare, hxy] at hint
    cases hint

theorem setSupertype (h : d.Coherent) {id s : TypeId} (hs : s < d.types.length)
    (hd : d.setSupertype id s = .ok d') : d'.Coherent := by
  obtain ⟨hbare, hattrs, hsuper⟩ := setSupertype_spec hd
  have hle := (Grows.of_bareTypes_eq hbare).length_le
  refine ⟨fun j s' hs' => ?_, h.knowsKinds.of_bareTypes_eq hbare, fun j a ha t ht => ?_⟩
  · rw [hsuper] at hs'
    split at hs'
    · cases hs'
      exact Nat.lt_of_lt_of_le hs hle
    · exact Nat.lt_of_lt_of_le (h.validSupertypes j s' hs') hle
  · rw [hattrs] at ha
    exact Nat.lt_of_lt_of_le (h.typed j a ha t ht) hle

theorem addAttribute (h : d.Coherent) {owner : TypeId} {a : Attribute}
    (ha : ∀ t ∈ a.refersTo, t < d.types.length) (hd : d.addAttribute owner a = .ok d') :
    d'.Coherent := by
  obtain ⟨-, hbare, hsuper, hattrs⟩ := addAttribute_eq_ok hd
  have hle := (Grows.of_bareTypes_eq hbare).length_le
  refine ⟨fun j s hs => ?_, h.knowsKinds.of_bareTypes_eq hbare, fun j b hb t ht => ?_⟩
  · rw [hsuper] at hs
    exact Nat.lt_of_lt_of_le (h.validSupertypes j s hs) hle
  · refine Nat.lt_of_lt_of_le ?_ hle
    rw [hattrs] at hb
    split at hb
    · rcases List.mem_append.1 hb with hb | hb
      · exact h.typed j b hb t ht
      · exact ha t (List.mem_singleton.1 hb ▸ ht)
    · exact h.typed j b hb t ht

/-- Each call keeps a draft coherent. -/
theorem apply (h : d.Coherent) {c : Call} (issued : ∀ t ∈ c.refersTo, t < d.types.length)
    (happly : c.apply d = .ok d') : d'.Coherent := by
  cases c with
  | basic k =>
    cases happly
    exact h.expand (basic_spec d k).1.expands (h.knowsKinds.basic k)
  | any x y =>
    cases happly
    exact h.expand (any_spec d x y).1.expands (h.knowsKinds.any x y)
  | entity n isAbstract => exact h.declare rfl rfl happly
  | embeddable n => exact h.declare rfl rfl happly
  | mappedSupertype n => exact h.declare rfl rfl happly
  | tuple n components => exact h.declare rfl rfl happly
  | setSupertype id s => exact h.setSupertype (issued s (by simp [Call.refersTo])) happly
  | addAttribute owner a =>
    exact h.addAttribute (fun t ht => issued t (List.mem_cons_of_mem _ ht)) happly

theorem next (h : d.Coherent) {c : Call} (issued : ∀ t ∈ c.refersTo, t < d.types.length) :
    (d.next c).Coherent := by
  unfold Draft.next
  split
  · rename_i d' happly
    exact h.apply issued happly
  · exact h

theorem run (h : d.Coherent) {calls : List Call} (issued : Issued d calls) :
    (d.run calls).Coherent := by
  induction calls generalizing d with
  | nil => exact h
  | cons c calls ih => exact ih (h.next issued.1) issued.2

end Coherent

/-- The draft is made by calls, from nothing. -/
def Made (d : Draft) : Prop := ∃ calls, Issued {} calls ∧ run {} calls = d

theorem Made.coherent {d : Draft} (made : d.Made) : d.Coherent := by
  obtain ⟨calls, issued, rfl⟩ := made
  exact Coherent.empty.run issued

/-! ## Calls for auctions and their lots -/

/-- Auctions record who made them, their lots are embedded and stand in a list. -/
def auctionCalls : List Call :=
  [.basic .integer, .basic .string, .any .string .long, .entity "Auction" false,
    .mappedSupertype "Audited", .embeddable "Lot", .setSupertype 4 5,
    .addAttribute 5 { name := "createdBy", type := 1, storedAs := some .integer },
    .addAttribute 4 { name := "lots", type := 6, nature := .plural .list (some 0) },
    .addAttribute 6 { name := "item", type := 3 }]

end Draft

end QueryPath.Logical
