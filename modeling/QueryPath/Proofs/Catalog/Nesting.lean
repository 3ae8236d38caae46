import QueryPath.Proofs.Catalog.Use
import QueryPath.Proofs.Definition.Check
import Mathlib.Logic.Relation

/-!
# Embeddables inside embeddables

The check of nesting and the uses of embeddables end because each level takes a name off a list.
`checkNestingWithin` and `addUsageWithin` are the recursions without such a list: the first looks
at the embeddables around it, the second at nothing but the definition, and both hand over to a
function `cutoff` after some levels. A recursion whose result is the same for every `cutoff` has
ended before.

A fault of the check names an embeddable that is inside itself (`ensures_checkNesting`), and without
a fault none is (`erase_of_embeds`). Where there is no fault, each level of uses takes a name off
what may still be used, so there are no more levels than embeddables (`addUsageWithin_eq`).
-/

namespace QueryPath.Definition

open Physical (Metamodel)
open Relation (TransGen)

/-! ## What embeds what -/

/-- An embeddable holds another one, itself or as the elements of a collection. -/
def Embeds (raw : Definition RawAttribute) (outer inner : String) : Prop :=
  ∃ e ∈ raw.embeddables, e.name = outer ∧ ∃ a ∈ e.attributes,
    a.embedded = some inner ∨ ∃ p, a.plural = some p ∧ p.element.embedded = some inner

/-- What an embeddable holds once attributes have their shapes. -/
def Contains (d : Definition Attribute) (outer inner : String) : Prop := inner ∈ d.embeddedIn outer

/-- Elements hold the embeddable that they were written with. -/
theorem RawElement.shape_embedded {e : RawElement} {role : String} {s : Element}
    (h : e.shape role = .ok s) {inner : String} :
    (∃ start, s = .embedded inner start) ↔ e.embedded = some inner := by
  unfold RawElement.shape at h
  split at h <;> rename_i hkind hembedded hentity
  · obtain ⟨c, -, rfl⟩ := map_eq_ok.1 h
    simp [hembedded]
  · cases h
    simp [hembedded]
  · obtain ⟨c, -, rfl⟩ := map_eq_ok.1 h
    simp [hembedded]
  · cases h

/-- An attribute holds the embeddable that it was written with. -/
theorem RawAttribute.shape_embedded {a : RawAttribute} {owner : String} {s : Shape}
    (h : a.shape owner = .ok s) {inner : String} : s.embedded? = some inner ↔
      a.embedded = some inner ∨ ∃ p, a.plural = some p ∧ p.element.embedded = some inner := by
  unfold RawAttribute.shape at h
  split at h <;> rename_i hkind hembedded htoOne hplural hany
  · obtain ⟨c, -, rfl⟩ := map_eq_ok.1 h
    simp [hembedded, hplural, Shape.embedded?]
  · cases h
    simp [hembedded, hplural, Shape.embedded?]
  · obtain ⟨c, -, rfl⟩ := map_eq_ok.1 h
    simp [hembedded, hplural, Shape.embedded?]
  · obtain ⟨q, hq, rfl⟩ := map_eq_ok.1 h
    obtain ⟨element, helement, hq⟩ := bind_eq_ok.1 hq
    cases hq
    rw [hembedded, hplural]
    simp only [reduceCtorEq, Option.some.injEq, exists_eq_left', false_or,
      ← RawElement.shape_embedded helement]
    cases element <;> simp [Shape.embedded?]
  · cases h
    simp [hembedded, hplural, Shape.embedded?]
  · cases h

theorem embeddable?_of_checkShape {α : Type} {d : Definition α} {owner name : String} {s : Shape}
    (h : d.checkShape owner name s = .ok ()) {inner : String} (hs : s.embedded? = some inner) :
    (d.embeddable? inner).isSome = true := by
  cases s with
  | embedded target start =>
    cases hs
    exact checkEmbeddable_eq_ok.1 h
  | plural p =>
    have helement := (checkPlural_eq_ok.1 h).1
    rw [Shape.embedded?] at hs
    split at hs
    · rename_i target start htarget
      cases hs
      rw [htarget] at helement
      exact checkEmbeddable_eq_ok.1 helement
    · cases hs
  | basic | toOne | any => cases hs

section Checked

variable {raw : Definition RawAttribute} {d : Definition Attribute}
  (nodup : raw.typeNames.Nodup)
  (checked : raw.embeddables.mapM raw.checkEmbeddableType = .ok d.embeddables)

include checked

theorem embeddableNames_eq : d.embeddables.map (·.name) = raw.embeddables.map (·.name) :=
  (map_eq_and_forall (P := fun _ => True) checked fun _ _ he =>
    ⟨congrArg Embeddable.name (checkEmbeddableType_eq_ok he).1, trivial⟩).1

/-- The attributes of an embeddable come from those that were written. -/
theorem exists_checkAttribute {n : String} {e' : Embeddable Attribute}
    (h : d.embeddable? n = some e') {b : Attribute} (hb : b ∈ e'.attributes) :
    ∃ e ∈ raw.embeddables, e.name = n ∧ ∃ a ∈ e.attributes, raw.checkAttribute n a = .ok b := by
  obtain ⟨he', rfl⟩ := embeddable?_mem h
  obtain ⟨e, he, hcheck⟩ := exists_mem_of_forall₂' (mapM_eq_ok.1 checked) he'
  obtain ⟨bs, hbs, hcheck⟩ := bind_eq_ok.1 hcheck
  cases hcheck
  obtain ⟨a, ha, hab⟩ := exists_mem_of_forall₂' (mapM_eq_ok.1 hbs) hb
  exact ⟨e, he, rfl, a, ha, hab⟩

/-- What a checked attribute holds is an embeddable. -/
theorem mem_embeddableNames {owner : String} {a : RawAttribute} {b : Attribute}
    (h : raw.checkAttribute owner a = .ok b) {inner : String}
    (hinner : b.shape.embedded? = some inner) : inner ∈ d.embeddables.map (·.name) := by
  obtain ⟨e, he⟩ := Option.isSome_iff_exists.1
    (embeddable?_of_checkShape (checkAttribute_eq_ok h).2 hinner)
  obtain ⟨hmem, rfl⟩ := embeddable?_mem he
  rw [embeddableNames_eq checked]
  exact List.mem_map_of_mem hmem

theorem mem_embeddableNames_of_contains {outer inner : String} (h : d.Contains outer inner) :
    inner ∈ d.embeddables.map (·.name) := by
  obtain ⟨e, he, b, hb, hinner⟩ := mem_embeddedIn.1 h
  obtain ⟨-, -, -, a, -, hab⟩ := exists_checkAttribute checked he hb
  exact mem_embeddableNames checked hab hinner

include nodup

theorem nodup_embeddableNames : (d.embeddables.map (·.name)).Nodup := by
  rw [embeddableNames_eq checked]
  exact nodup_embeddables nodup

/-- The embeddables in an embeddable are those that its attributes were written with. -/
theorem embeds_iff {outer inner : String} : raw.Embeds outer inner ↔ d.Contains outer inner := by
  have hd := nodup_embeddableNames nodup checked
  rw [Contains, mem_embeddedIn]
  constructor
  · rintro ⟨e, he, rfl, a, ha, hinner⟩
    obtain ⟨e', he', hcheck⟩ := exists_mem_of_forall₂ (mapM_eq_ok.1 checked) he
    obtain ⟨bs, hbs, hcheck⟩ := bind_eq_ok.1 hcheck
    cases hcheck
    obtain ⟨b, hb, hab⟩ := exists_mem_of_forall₂ (mapM_eq_ok.1 hbs) ha
    refine ⟨⟨e.name, bs⟩, find?_of_mem hd he', b, hb, ?_⟩
    exact (RawAttribute.shape_embedded (shape_of_checkAttribute hab)).2 hinner
  · rintro ⟨e', hfind, b, hb, hinner⟩
    obtain ⟨e, he, hname, a, ha, hab⟩ := exists_checkAttribute checked hfind hb
    exact ⟨e, he, hname, a, ha,
      (RawAttribute.shape_embedded (shape_of_checkAttribute hab)).1 hinner⟩

end Checked

/-! ## The check of nesting -/

section Nesting

variable (d : Definition Attribute)

/-- The check of nesting with the embeddables that are around `name`, the innermost first. After
some levels `cutoff` goes on. -/
def checkNestingWithin (cutoff : List String → String → Except Fault Unit) :
    Nat → List String → String → Except Fault Unit
  | 0, around, name => cutoff around name
  | levels + 1, around, name =>
      if name ∈ around then .error (.containsItself name)
      else (d.embeddedIn name).forM (checkNestingWithin cutoff levels (name :: around))

variable {d}

/-- As many levels are enough as there are embeddables that are not around the first one. -/
theorem checkNestingWithin_eq (nodup : (d.embeddables.map (·.name)).Nodup)
    (closed : ∀ outer inner, d.Contains outer inner → inner ∈ d.embeddables.map (·.name))
    (cutoff : List String → String → Except Fault Unit) {levels : Nat} {around : List String}
    {name : String} (hname : name ∈ d.embeddables.map (·.name))
    (hlt : ((d.embeddables.map (·.name)).filter (· ∉ around)).length < levels) :
    d.checkNestingWithin cutoff levels around name =
      d.checkNesting ((d.embeddables.map (·.name)).filter (· ∉ around)) name := by
  induction levels generalizing around name with
  | zero => exact absurd hlt (Nat.not_lt_zero _)
  | succ levels ih =>
    rw [checkNestingWithin, checkNesting]
    by_cases haround : name ∈ around
    · simp [haround]
    · have hmem : name ∈ (d.embeddables.map (·.name)).filter (· ∉ around) := by
        simp [List.mem_filter, haround, List.mem_map.1 hname]
      have herase : ((d.embeddables.map (·.name)).filter (· ∉ around)).erase name =
          (d.embeddables.map (·.name)).filter (· ∉ name :: around) := by
        rw [(nodup.filter _).erase_eq_filter, List.filter_filter]
        refine List.filter_congr fun x _ => ?_
        by_cases hx : x = name <;> simp [hx]
      rw [if_neg haround, dif_pos hmem, herase]
      refine forM_congr fun inner hinner => ih (closed name inner hinner) ?_
      rw [← herase, List.length_erase_of_mem hmem]
      have := List.length_pos_of_mem hmem
      omega

/-- A fault of the check names an embeddable that is inside itself, where `name` is inside all that
are no longer allowed. -/
theorem exists_circle_of_checkNesting
    (closed : ∀ outer inner, d.Contains outer inner → inner ∈ d.embeddables.map (·.name))
    {allowed : List String} {name : String} {fault : Fault}
    (h : d.checkNesting allowed name = .error fault) (hname : name ∈ d.embeddables.map (·.name))
    (haround : ∀ x ∈ d.embeddables.map (·.name), x ∉ allowed → TransGen d.Contains x name) :
    ∃ n, fault = .containsItself n ∧ TransGen d.Contains n n := by
  fun_induction d.checkNesting allowed name with
  | case1 allowed name hmem ih =>
    obtain ⟨inner, hinner, hfault⟩ := exists_of_forM_eq_error h
    refine ih inner hfault (closed name inner hinner) fun x hx hnot => ?_
    by_cases hxname : x = name
    · subst hxname
      exact .single hinner
    · refine (haround x hx fun hallowed => hnot ?_).tail hinner
      exact (List.mem_erase_of_ne hxname).2 hallowed
  | case2 allowed name hmem =>
    cases h
    exact ⟨name, rfl, haround name hname hmem⟩

/-- Without a fault, what is inside an embeddable is allowed next to it. -/
theorem mem_erase_of_transGen {name inner : String} (h : TransGen d.Contains name inner)
    {allowed : List String} (hok : d.checkNesting allowed name = .ok ()) :
    inner ∈ allowed.erase name := by
  induction h using TransGen.head_induction_on generalizing allowed with
  | single hinner => exact (checkNesting_eq_ok.1 ((checkNesting_eq_ok.1 hok).2 _ hinner)).1
  | head hnext _ ih => exact List.mem_of_mem_erase (ih ((checkNesting_eq_ok.1 hok).2 _ hnext))

end Nesting

/-! ## Uses of embeddables -/

/-- Adds a use of an embeddable. After some levels `cutoff` goes on. -/
def addUsageWithin (d : Definition Attribute) (cutoff : AddUsage) : Nat → AddUsage
  | 0, m, place, name => cutoff m place name
  | levels + 1, m, place, name =>
      match d.embeddable? name with
      | none => .error (.invalid (.undeclaredEmbeddable name))
      | some e => do
          let (id, m) := m.addUsage place.role name place.table
          let m ← e.attributes.foldlM (fun m a => do
            let (mapping, m) ← mappingAt (d.addUsageWithin cutoff levels) m place a
            (m.addUsageMapping id mapping).mapError .physical) m
          return (id, m)

/-- The mapping of an attribute uses no embeddable but the one that the attribute holds. -/
theorem mappingAt_congr {add add' : AddUsage} {a : Attribute}
    (h : ∀ target, a.shape.embedded? = some target →
      ∀ m place, add m place target = add' m place target) (m : Metamodel) (place : Place) :
    mappingAt add m place a = mappingAt add' m place a := by
  obtain ⟨name, shape, g⟩ := a
  cases shape with
  | basic | toOne | any => rfl
  | embedded target start => simp only [mappingAt, h target rfl]
  | plural p =>
    simp only [mappingAt, pluralMapping]
    cases helement : p.element with
    | basic | entity => rfl
    | embedded target start =>
      simp only [elementValue, h target (by simp [Shape.embedded?, helement])]

/-- As many levels are enough as there are embeddables that are not around the first use. -/
theorem addUsageWithin_eq {d : Definition Attribute}
    (nodup : (d.embeddables.map (·.name)).Nodup) {available : List (Embeddable Attribute)}
    (hsub : available.Sublist d.embeddables) {name : String}
    (h : d.checkNesting (available.map (·.name)) name = .ok ()) (cutoff : AddUsage) {levels : Nat}
    (hle : available.length ≤ levels) (m : Metamodel) (place : Place) :
    d.addUsageWithin cutoff levels m place name = addUsage available m place name := by
  induction levels generalizing available name m place with
  | zero =>
    obtain ⟨e, he, -⟩ := exists_of_checkNesting nodup hsub h
    exact absurd hle (Nat.not_le.2 (List.length_pos_of_mem he))
  | succ levels ih =>
    obtain ⟨e, he, rfl, hfind, hd, hinner⟩ := exists_of_checkNesting nodup hsub h
    have hlen : (available.eraseP (·.name == e.name)).length ≤ levels := by
      rw [List.length_eraseP_of_mem he (by simp)]
      exact Nat.sub_le_of_le_add hle
    simp only [addUsage_eq hfind, addUsageWithin, hd]
    refine congrArg (· >>= _) (foldlM_congr (fun a ha m' => congrArg (· >>= _) ?_) _)
    exact mappingAt_congr (fun target htarget m place =>
      ih (List.eraseP_sublist.trans hsub) (hinner a ha target htarget) hlen m place) m' place

/-! ## Acceptance -/

/-- What the check of nesting decides for a definition `raw` whose attributes have the shapes in
`d`. -/
structure NestingDecided (raw : Definition RawAttribute) (d : Definition Attribute) : Prop where
  /-- The check ends, at most one level deeper than there are embeddables. -/
  ends : ∀ cutoff levels, raw.embeddables.length < levels →
    forM (raw.embeddables.map (·.name)) (d.checkNestingWithin cutoff levels []) = d.checkAllNesting
  refuses_iff : (∃ fault, d.checkAllNesting = .error fault) ↔ ∃ n, TransGen raw.Embeds n n
  /-- The fault names an embeddable that is on a circle. -/
  names : ∀ fault, d.checkAllNesting = .error fault →
    ∃ n, fault = .containsItself n ∧ TransGen raw.Embeds n n
  /-- Without a fault, uses of embeddables end, in no more levels than there are embeddables. -/
  usesEnd : d.checkAllNesting = .ok () → ∀ cutoff levels, raw.embeddables.length ≤ levels →
    ∀ m place,
      (∀ e ∈ raw.embeddables,
        d.addUsageWithin cutoff levels m place e.name = addUsage d.embeddables m place e.name) ∧
      ∀ owner a b, raw.checkAttribute owner a = .ok b →
        mappingAt (d.addUsageWithin cutoff levels) m place b =
          mappingAt (addUsage d.embeddables) m place b

/-- The check of nesting refuses circles of embeddables and nothing else, and what it accepts can
be laid out level by level. -/
theorem nestingDecided {raw : Definition RawAttribute} {d : Definition Attribute}
    (nodup : raw.typeNames.Nodup)
    (checked : raw.embeddables.mapM raw.checkEmbeddableType = .ok d.embeddables) :
    NestingDecided raw d := by
  have hnodup := nodup_embeddableNames nodup checked
  have hnames := embeddableNames_eq checked
  have hlen : d.embeddables.length = raw.embeddables.length := by
    simpa using congrArg List.length hnames
  have closed : ∀ outer inner, d.Contains outer inner → inner ∈ d.embeddables.map (·.name) :=
    fun _ _ => mem_embeddableNames_of_contains checked
  have hembeds : raw.Embeds = d.Contains := by
    funext outer inner
    exact propext (embeds_iff nodup checked)
  have hfault : ∀ fault, d.checkAllNesting = .error fault →
      ∃ n, fault = .containsItself n ∧ TransGen raw.Embeds n n := by
    intro fault h
    obtain ⟨name, hname, h⟩ := exists_of_forM_eq_error h
    rw [hembeds]
    exact exists_circle_of_checkNesting closed h hname fun x hx hnot => absurd hx hnot
  refine ⟨fun cutoff levels hlevels => ?_, ⟨?_, ?_⟩, hfault, ?_⟩
  · have hfilter : (d.embeddables.map (·.name)).filter (· ∉ ([] : List String)) =
        d.embeddables.map (·.name) := by simp
    rw [← hnames, checkAllNesting]
    refine forM_congr fun name hname => ?_
    rw [checkNestingWithin_eq hnodup closed cutoff hname, hfilter]
    rwa [hfilter, List.length_map, hlen]
  · rintro ⟨fault, h⟩
    obtain ⟨n, -, hn⟩ := hfault fault h
    exact ⟨n, hn⟩
  · rintro ⟨n, hn⟩
    rw [hembeds] at hn
    cases hok : d.checkAllNesting with
    | error fault => exact ⟨fault, rfl⟩
    | ok u =>
      obtain ⟨x, -, hlast⟩ := (TransGen.tail'_iff).1 hn
      have hmem := mem_erase_of_transGen hn (forM_eq_ok.1 hok n (closed x n hlast))
      exact absurd hmem hnodup.not_mem_erase
  · intro hok cutoff levels hlevels m place
    have heq : ∀ name ∈ d.embeddables.map (·.name), ∀ m place,
        d.addUsageWithin cutoff levels m place name = addUsage d.embeddables m place name :=
      fun name hname => addUsageWithin_eq hnodup (.refl _) (forM_eq_ok.1 hok name hname) cutoff
        (hlen ▸ hlevels)
    refine ⟨fun e he => heq e.name (hnames ▸ List.mem_map_of_mem he) m place, ?_⟩
    intro owner a b hb
    exact mappingAt_congr (fun target ht => heq target (mem_embeddableNames checked hb ht)) m place

/-- Fees have tiers, each of which has a base and a limit. -/
def tieredFees (base : String) : Definition RawAttribute where
  embeddables := [
    ⟨"Money", [{ name := "amount", kind := some .decimal, column := some "amount" }]⟩,
    ⟨"Fee", [
      { name := "charge", embedded := some "Money" },
      { name := "tiers"
        plural := some {
          classification := .bag
          table := some "tiers"
          keyColumn := "auction_id"
          element := { embedded := some "Tier" } } }]⟩,
    ⟨"Tier", [
      { name := "base", embedded := some base },
      { name := "limit", embedded := some "Money" }]⟩]
  entities := [{ name := "Auction", table := some "auctions" }]

theorem nestingDecided_tieredFees :
    (∃ d, NestingDecided (tieredFees "Fee") d ∧
      d.checkAllNesting = .error (.containsItself "Fee")) ∧
    ∃ d, NestingDecided (tieredFees "Money") d ∧ d.checkAllNesting = .ok () := by
  have decided : ∀ base outcome, (tieredFees base).typeNames.Nodup →
      (((tieredFees base).embeddables.mapM (tieredFees base).checkEmbeddableType).toOption.any
        fun es => (⟨none, es, [], []⟩ : Definition Attribute).checkAllNesting = outcome) = true →
      ∃ d, NestingDecided (tieredFees base) d ∧ d.checkAllNesting = outcome := by
    intro base outcome nodup h
    obtain ⟨es, hes, h⟩ := exists_ok_of_any h
    exact ⟨⟨none, es, [], []⟩, nestingDecided nodup hes, by simpa using h⟩
  exact ⟨decided _ _ (by decide) (by decide +kernel), decided _ _ (by decide) (by decide +kernel)⟩

end QueryPath.Definition
