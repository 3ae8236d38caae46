import QueryPath.Proofs.Logical.Interning
import QueryPath.Proofs.Logical.Keys
import QueryPath.Proofs.Path.Over

/-!
# Ids of collections

Ids of the rows of an id-bag are of the kind `long`. No call that declares an id-bag makes this
kind known: the registry takes the basic type if the model has one, and leaves the source of the
ids out if not. A draft knows the kinds that its calls asked for, and no others
(`Draft.kind_mem_keys_run`), so the ids of an id-bag have a source exactly if some call, before or
behind the declaration, asked for `long` (`identifiers_of_build`).
-/

namespace QueryPath.Logical

/-! ## Kinds that calls make known -/

namespace Draft

/-- The kinds that a call asks for. -/
def Call.kinds : Call → List Kind
  | basic k => [k]
  | any x y => [x, y]
  | _ => []

/-- Some call asks for basic values of the kind, or for associations with a column of it. -/
def AsksFor (calls : List Call) (k : Kind) : Prop := ∃ c ∈ calls, k ∈ c.kinds

instance (calls : List Call) (k : Kind) : Decidable (AsksFor calls k) :=
  inferInstanceAs (Decidable (∃ c ∈ calls, k ∈ c.kinds))

theorem asksFor_cons {c : Call} {calls : List Call} {k : Kind} :
    AsksFor (c :: calls) k ↔ k ∈ c.kinds ∨ AsksFor calls k :=
  List.exists_mem_cons_iff ..

section Keys

variable {d : Draft} {k : Kind}

theorem kind_mem_keys : .kind k ∈ d.keys ↔ (d.findBasic? k).isSome = true := by
  rw [← not_iff_not, not_mem_keys_iff, ← findBasic?_eq_keys, Bool.not_eq_true,
    Option.isSome_eq_false_iff, Option.isNone_iff_eq_none]

theorem mem_keys_basic {key : TypeKey} :
    key ∈ (d.basic k).2.keys ↔ key ∈ d.keys ∨ key = .kind k := by
  unfold Draft.basic
  cases hk : d.findBasic? k with
  | none => rw [keys_push, List.mem_append, List.mem_singleton, DomainType.key]
  | some _ =>
    have hmem : .kind k ∈ d.keys := kind_mem_keys.2 (by rw [hk]; rfl)
    exact ⟨.inl, fun h => h.elim id fun h => h ▸ hmem⟩

/-- An association to any entity makes both of its kinds known, whether it is there or not. -/
theorem kind_mem_keys_any (knows : d.KnowsKinds) {x y : Kind} :
    .kind k ∈ (d.any x y).2.keys ↔ .kind k ∈ d.keys ∨ k ∈ [x, y] := by
  rw [List.mem_pair]
  unfold Draft.any
  cases hxy : d.findAny? x y with
  | none =>
    rw [keys_push, List.mem_append, mem_keys_basic, mem_keys_basic]
    simp [DomainType.key, or_assoc]
  | some id =>
    have hbare : .any x y ∈ d.bareTypes :=
      List.mem_map.2 ⟨_, List.mem_of_getElem? (typeAt?_of_findAny? hxy), rfl⟩
    obtain ⟨hx, hy⟩ := knows x y hbare
    refine ⟨.inl, ?_⟩
    rintro (h | rfl | rfl)
    · exact h
    · exact kind_mem_keys.2 hx
    · exact kind_mem_keys.2 hy

theorem kind_mem_keys_declare {t : DomainType} {d' : Draft} (hkey : t.key = .name t.name)
    (h : (d.declare t).map (·.2) = .ok d') : .kind k ∈ d'.keys ↔ .kind k ∈ d.keys := by
  obtain ⟨r, hr, rfl⟩ := map_eq_ok.1 h
  obtain ⟨-, rfl⟩ := declare_eq_ok hr
  rw [keys_push, List.mem_append, List.mem_singleton, hkey]
  simp

/-- A call makes the kinds known that it asks for. -/
theorem kind_mem_keys_next (knows : d.KnowsKinds) (c : Call) :
    .kind k ∈ (d.next c).keys ↔ .kind k ∈ d.keys ∨ k ∈ c.kinds := by
  unfold next
  cases hc : c.apply d with
  | error e => cases c <;> first | cases hc | simp [Call.kinds]
  | ok d' =>
    cases c with
    | basic k' =>
      cases hc
      rw [mem_keys_basic, Call.kinds, List.mem_singleton, TypeKey.kind.injEq]
    | any x y =>
      cases hc
      exact kind_mem_keys_any knows
    | entity n isAbstract => simpa [Call.kinds] using kind_mem_keys_declare rfl hc
    | embeddable n => simpa [Call.kinds] using kind_mem_keys_declare rfl hc
    | mappedSupertype n => simpa [Call.kinds] using kind_mem_keys_declare rfl hc
    | tuple n components => simpa [Call.kinds] using kind_mem_keys_declare rfl hc
    | setSupertype id s => simp [Call.kinds, keys_eq_of_bareTypes (setSupertype_spec hc).1]
    | addAttribute owner a => simp [Call.kinds, keys_eq_of_bareTypes (addAttribute_eq_ok hc).2.1]

/-- A draft knows the kinds that it knew, and those that calls asked for since. -/
theorem kind_mem_keys_run (orderly : d.Orderly) (calls : List Call) :
    .kind k ∈ (d.run calls).keys ↔ .kind k ∈ d.keys ∨ AsksFor calls k := by
  induction calls generalizing d with
  | nil => simp [run, AsksFor]
  | cons c calls ih =>
    refine (ih (orderly.next c)).trans ?_
    rw [kind_mem_keys_next orderly.knowsKinds, asksFor_cons, or_assoc]

theorem findBasic?_run (calls : List Call) :
    ((run {} calls).findBasic? k).isSome = true ↔ AsksFor calls k := by
  rw [← kind_mem_keys, kind_mem_keys_run .empty]
  exact or_iff_right List.not_mem_nil

end Keys

end Draft

/-! ## Sources of ids -/

theorem Model.identifierSource_isSome {m : Model} {c : Classification} {x : Option Source}
    (h : m.identifierSource c = .ok x) :
    x.isSome = true ↔ c = .idBag ∧ (m.findBasic? .long).isSome = true := by
  have hbag : c.hasIdentifier = true ↔ c = .idBag := by cases c <;> decide
  unfold identifierSource at h
  split at h
  · rename_i id hc hid
    obtain ⟨s, -, h⟩ := map_eq_ok.1 h
    cases h
    simp [hbag.1 hc, hid]
  · rename_i hno
    cases h
    refine iff_of_false Bool.false_ne_true fun ⟨hc, hlong⟩ => ?_
    obtain ⟨id, hid⟩ := Option.isSome_iff_exists.1 hlong
    exact hno id (hbag.2 hc) hid

/-- A collection has a source of ids if it is an id-bag, as far as the kind of ids is known. -/
structure PluralSource.Identified (known : Prop) (c : Classification) (p : PluralSource) :
    Prop where
  classification : p.classification = c
  identifier : p.identifier.isSome = true ↔ c = .idBag ∧ known
  isLong : ∀ x, p.identifier = some x →
    x.name = PartNature.identifier.name ∧ x.kind = .basic .long .long

theorem Model.identified_of_pluralSource {m : Model} {a : Attribute} {s : Source}
    {c : Classification} {index : Option TypeId} {p : PluralSource}
    (h : m.pluralSource a s c index = .ok p) :
    p.Identified ((m.findBasic? .long).isSome = true) c := by
  obtain ⟨-, hc, -, -, hid⟩ := pluralSource_eq_ok.1 h
  refine ⟨hc, identifierSource_isSome hid, fun x hx => ?_⟩
  rw [hx] at hid
  obtain ⟨-, id, hlong, hsource⟩ := identifierSource_eq_ok hid
  obtain ⟨hname, -, hkind, -⟩ := source_info hsource
  rw [HasKind, Draft.typeAt?_of_findBasic? hlong] at hkind
  exact ⟨hname, (Option.some.inj hkind).symm⟩

section Registry

variable {m : Model} (wf : m.WellFormed) {r : Registry} (hr : m.registry = .ok r)
  {parent : Source} {n : String}

include wf hr

theorem identified_of_plural? {p : PluralSource} (h : r.plural? parent n = some p) :
    p.Identified ((m.findBasic? .long).isSome = true) p.classification := by
  have hrel := plural?_rel wf hr parent n
  rw [h] at hrel
  generalize (m.findAttribute? parent.type n).filter _ = found at hrel
  cases hrel with
  | some hmade =>
    obtain ⟨c, index, s, -, hmade⟩ := hmade
    have hid := Model.identified_of_pluralSource hmade
    exact hid.classification.symm ▸ hid

end Registry

/-- A collection has a source of ids, of the kind `long`, exactly if it is an id-bag and some call
asked for that kind. Exactly then a path to the collection goes on to the ids of its rows. -/
theorem identifiers_of_build {calls : List Draft.Call} (issued : Draft.Issued {} calls) {m : Model}
    (hm : (Draft.run {} calls).build = .ok m) {r : Registry} (hr : m.registry = .ok r) :
    (∀ (parent : Source) n x c index, m.findAttribute? parent.type n = some x →
      x.2.nature = .plural c index →
      ∃ p, r.plural? parent n = some p ∧ p.Identified (Draft.AsksFor calls .long) c) ∧
    ∀ q : Path, q.Over r → ((∃ q', q.collectionId = .ok q') ↔
      ∃ p, q.plural = .ok p ∧ p.classification = .idBag ∧ Draft.AsksFor calls .long) := by
  have coherent := Draft.Made.coherent ⟨calls, issued, rfl⟩
  have wf := Model.WellFormed.of_build coherent hm
  have hknown : (m.findBasic? .long).isSome = true ↔ Draft.AsksFor calls .long := by
    rw [((Draft.build_spec coherent.validSupertypes).1 m hm).1, Draft.findBasic?_run]
  constructor
  · intro parent n x c index hx hn
    obtain ⟨p, s, hp, hmade⟩ := exists_pluralSource wf hr hx hn
    have hid := Model.identified_of_pluralSource hmade
    rw [hknown] at hid
    exact ⟨p, hp, hid⟩
  · intro q hq
    constructor
    · rintro ⟨q', hq'⟩
      obtain ⟨p, x, hp, hx, -⟩ := Path.collectionId_eq_ok.1 hq'
      obtain ⟨parent, n, hpn⟩ := hq.exists_plural? hp
      have hid := (identified_of_plural? wf hr hpn).identifier
      rw [hx, hknown] at hid
      exact ⟨p, hp, hid.1 rfl⟩
    · rintro ⟨p, hp, hbag, hlong⟩
      obtain ⟨parent, n, hpn⟩ := hq.exists_plural? hp
      have hid := (identified_of_plural? wf hr hpn).identifier
      obtain ⟨x, hx⟩ := Option.isSome_iff_exists.1 (hid.2 ⟨hbag, hknown.2 hlong⟩)
      exact ⟨_, Path.collectionId_eq_ok.2 ⟨p, x, hp, hx, rfl⟩⟩

/-- Auctions with a bag of watchers, whose rows have ids. -/
def watchedAuctions : List Draft.Call :=
  [.basic .string, .entity "Auction" false,
    .addAttribute 1 { name := "watchers", type := 0, nature := .plural .idBag none }]

/-- Ids are known where auctions are behind an association to any entity as well. -/
theorem identifiers_of_build_any : ∃ (m : Model) (r : Registry) (s x : Source) (p : PluralSource)
    (q : Path), (Draft.run {} (watchedAuctions ++ [.any .string .long])).build = .ok m ∧
      m.registry = .ok r ∧ r.managed? "Auction" = some s ∧ r.plural? s "watchers" = some p ∧
      p.identifier = some x ∧ x.kind = .basic .long .long ∧
      (Path.root s none).get r "watchers" = .ok q ∧ ∃ q', q.collectionId = .ok q' := by
  obtain ⟨m, r, s, p, q, a, hm, hr, hs, hp, hfind, hq, hplural, hroot⟩ : ∃ (m : Model)
      (r : Registry) (s : Source) (p : PluralSource) (q : Path) (a : TypeId × Attribute),
      (Draft.run {} (watchedAuctions ++ [.any .string .long])).build = .ok m ∧
      m.registry = .ok r ∧ r.managed? "Auction" = some s ∧ r.plural? s "watchers" = some p ∧
      (m.findAttribute? s.type "watchers" = some a ∧ a.2.nature = .plural .idBag none) ∧
      (Path.root s none).get r "watchers" = .ok q ∧
      (q.plural = .ok p ∧ p.classification = .idBag) ∧ r.root "Auction" = .ok s :=
    ⟨_, _, _, _, _, _, rfl, rfl, rfl, rfl, ⟨rfl, rfl⟩, rfl, ⟨rfl, rfl⟩, rfl⟩
  obtain ⟨hsources, hpaths⟩ := identifiers_of_build (by decide) hm hr
  have hlong : Draft.AsksFor (watchedAuctions ++ [.any .string .long]) .long := by decide
  obtain ⟨p', hp', hid⟩ := hsources s "watchers" a _ _ hfind.1 hfind.2
  obtain rfl : p = p' := Option.some.inj (hp.symm.trans hp')
  obtain ⟨x, hx⟩ := Option.isSome_iff_exists.1 (hid.identifier.2 ⟨rfl, hlong⟩)
  have hover : q.Over r := (Path.Over.root hroot).step hq
  exact ⟨m, r, s, x, p, q, hm, hr, hs, hp, hx, (hid.isLong x hx).2, hq,
    (hpaths q hover).2 ⟨p, hplural.1, hplural.2, hlong⟩⟩

/-- Without such a call the id-bag has no ids, and no path goes on to them. -/
theorem collectionId_watchers : ∃ (m : Model) (r : Registry) (s : Source) (p : PluralSource)
    (q : Path), Draft.Issued {} watchedAuctions ∧
      (Draft.run {} watchedAuctions).build = .ok m ∧ m.registry = .ok r ∧
      r.managed? "Auction" = some s ∧ r.plural? s "watchers" = some p ∧
      p.classification = .idBag ∧ p.identifier = none ∧
      (Path.root s (some "a")).get r "watchers" = .ok q ∧ q.plural = .ok p ∧
      q.collectionId = .error (.noCollectionId "Auction(a).watchers") :=
  ⟨_, _, _, _, _, by decide, rfl, rfl, rfl, rfl, rfl, rfl, rfl, rfl, by decide⟩

end QueryPath.Logical
