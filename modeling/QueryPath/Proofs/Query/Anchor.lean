import QueryPath.Proofs.Catalog.Hierarchy
import QueryPath.Proofs.Path.Over
import QueryPath.Proofs.Query.Depth

/-!
# Narrowing to an entity is a new start

A path that was narrowed to an entity goes on as a root over that entity does, whatever it was
before: a column of a common table expression, a value, a path that leads nowhere. The two paths
take the same steps (`Path.Reanchored`), since a step asks for nothing but the source of the path
before it; and where no path has a table group they have the same part, since resolution goes back
to the narrowing step and no further.
-/

namespace QueryPath

open Logical (Registry Source)

namespace Path

/-! ## Going on from a path -/

/-- What a query says to go on from a path. -/
inductive Step where
  | get (name : String)
  | treatAs (typeName : String)
  | part (nature : PartNature)
deriving DecidableEq, Repr

def Step.apply (r : Registry) (p : Path) : Step → Except PathError Path
  | get name => p.get r name
  | treatAs typeName => p.treatAs r typeName
  | part .element => p.element
  | part .index => p.index
  | part .identifier => p.collectionId

/-- The path behind some steps. -/
def follow (r : Registry) (p : Path) (steps : List Step) : Except PathError Path :=
  steps.foldlM (Step.apply r) p

section Span

variable {r : Registry} {p q : Path}

theorem Step.apply_part_eq_ok {nature : PartNature} : Step.apply r p (.part nature) = .ok q ↔
    ∃ plural x, p.plural = .ok plural ∧ plural.part? nature = some x ∧ q = .part p nature x := by
  cases nature with
  | element =>
    refine element_eq_ok.trans (exists_congr fun plural => ?_)
    simp [Logical.PluralSource.part?]
  | index => exact index_eq_ok
  | identifier => exact collectionId_eq_ok

theorem Step.base?_of_apply {step : Step} (h : step.apply r p = .ok q) : q.base? = some p := by
  cases step with
  | get name =>
    rcases step_eq_ok h with ⟨_, _, _, _, _, rfl⟩ | ⟨_, _, _, _, _, rfl⟩ <;> rfl
  | treatAs typeName =>
    obtain ⟨_, _, rfl⟩ := treatAs_eq_ok h
    rfl
  | part nature =>
    obtain ⟨_, _, _, _, rfl⟩ := apply_part_eq_ok.1 h
    rfl

theorem follow_concat_eq_ok {steps : List Step} {step : Step} :
    p.follow r (steps ++ [step]) = .ok q ↔
      ∃ x, p.follow r steps = .ok x ∧ step.apply r x = .ok q := by
  rw [follow, List.foldlM_append, bind_eq_ok]
  simp only [List.foldlM_cons, List.foldlM_nil, bind_pure]
  rfl

/-- Each step adds one node to the span, unless it is a new start. -/
theorem span_le_of_follow {steps : List Step} (h : p.follow r steps = .ok q) :
    q.span ≤ p.span + steps.length := by
  induction steps generalizing p with
  | nil =>
    cases h
    exact Nat.le_refl _
  | cons step steps ih =>
    rw [follow, List.foldlM_cons] at h
    obtain ⟨x, hx, h⟩ := bind_eq_ok.1 h
    have hspan := span_le_of_base? (Step.base?_of_apply hx)
    have hrest := ih h
    rw [List.length_cons]
    omega

end Span

/-! ## The same steps from an entity -/

/-- The first path goes on from a path that was narrowed to `t` as the second does from a root over
`t`. -/
inductive Reanchored (t : Source) : Path → Path → Prop
  | anchor {b v} : Reanchored t (.treat b t) (.root t v)
  | member {p q s plural v} : Reanchored t p q →
      Reanchored t (.member p s plural v) (.member q s plural v)
  | treat {p q s} : Reanchored t p q → Reanchored t (.treat p s) (.treat q s)
  | part {p q nature s} : Reanchored t p q → Reanchored t (.part p nature s) (.part q nature s)

namespace Reanchored

variable {t : Source} {p q : Path} (h : Reanchored t p q) (r : Registry)

include h

theorem exists_source : ∃ s, p.source? = some s ∧ q.source? = some s := by
  cases h <;> exact ⟨_, rfl, rfl⟩

theorem step (name : String) (v : Option String) :
    Alike (Reanchored t) (p.step r name v) (q.step r name v) := by
  obtain ⟨s, hp, hq⟩ := h.exists_source
  rw [step_eq hp, step_eq hq]
  split
  · cases r.member? s name with
    | none => exact .error
    | some x => exact .ok h.member
  · exact .error

theorem treatAs (typeName : String) :
    Alike (Reanchored t) (p.treatAs r typeName) (q.treatAs r typeName) := by
  unfold Path.treatAs
  cases r.managed? typeName with
  | none => exact .error
  | some s => exact .ok h.treat

theorem plural_iff (plural : Logical.PluralSource) :
    p.plural = .ok plural ↔ q.plural = .ok plural := by
  cases h with
  | @member p q s found v => cases found <;> simp [Path.plural]
  | anchor | treat | part => simp [Path.plural]

theorem part_of_plural (nature : PartNature) :
    Alike (Reanchored t) (Step.apply r p (.part nature)) (Step.apply r q (.part nature)) := by
  refine alike_of_ok (fun p' hp' => ?_) fun q' hq' => ?_
  · obtain ⟨plural, x, hplural, hx, rfl⟩ := Step.apply_part_eq_ok.1 hp'
    have hq := (h.plural_iff plural).1 hplural
    exact ⟨_, Step.apply_part_eq_ok.2 ⟨plural, x, hq, hx, rfl⟩, h.part⟩
  · obtain ⟨plural, x, hplural, hx, rfl⟩ := Step.apply_part_eq_ok.1 hq'
    have hp := (h.plural_iff plural).2 hplural
    exact ⟨_, Step.apply_part_eq_ok.2 ⟨plural, x, hp, hx, rfl⟩⟩

/-- Each step is taken from both paths or from neither. -/
theorem apply (step : Step) : Alike (Reanchored t) (step.apply r p) (step.apply r q) := by
  cases step with
  | get name => exact h.step r name none
  | treatAs typeName => exact h.treatAs r typeName
  | part nature => exact h.part_of_plural r nature

theorem follow (steps : List Step) :
    Alike (Reanchored t) (p.follow r steps) (q.follow r steps) :=
  alike_foldlM (fun _ _ step h => h.apply r step) h steps

/-- Without table groups both paths have the same part. -/
theorem plain?_eq {entity : String} (ht : t.entity? = some entity) (m : Physical.Metamodel) :
    Resolver.plain? m p = Resolver.plain? m q := by
  induction h with
  | anchor => rw [Resolver.plain?_treat_entity m ht, Resolver.plain?_root, ht, Option.bind_some]
  | member _ ih => rw [Resolver.plain?_member, Resolver.plain?_member, ih]
  | @treat p q s _ ih =>
    cases hs : s.entity? with
    | some entity => rw [Resolver.plain?_treat_entity m hs, Resolver.plain?_treat_entity m hs]
    | none => rw [Resolver.plain?_treat m hs, Resolver.plain?_treat m hs, ih]
  | @part p q nature s hbase ih =>
    cases hbase with
    | member =>
      let r : Resolver := { metamodel := m, groupPart? := Resolver.noGroups }
      rw [Resolver.plain?_part m r rfl, Resolver.plain?_part m r rfl, ih]
    | anchor | treat | part => rfl

end Reanchored

end Path

/-! ## Entities of a catalog -/

namespace Catalog

open Definition (RawAttribute)

/-- The source of an entity is found by the name of the entity. -/
theorem MadeFrom.exists_managed?_entity {c : Catalog} {d : Definition Definition.Attribute}
    {uses : Definition.Uses} (made : c.MadeFrom d uses) {id : Logical.TypeId} {entity : String}
    (h : c.logical.entityName? id = some entity) :
    ∃ t, c.registry.managed? entity = some t ∧ t.entity? = some entity := by
  obtain ⟨as, s, b, ht⟩ := Logical.Draft.entityName?_eq_some.1 h
  obtain ⟨t, hmanaged⟩ := Logical.exists_managed? made.regular made.registry ht rfl
  obtain ⟨id', bindable, hid, hsource⟩ :=
    Logical.managed?_eq_some made.regular made.registry hmanaged
  rw [Logical.DomainType.name, made.regular.named id _ entity ht rfl, Option.some.injEq] at hid
  obtain ⟨-, -, hkind, -⟩ := Logical.Model.source_info hsource
  rw [← hid, Logical.Model.HasKind, ht] at hkind
  exact ⟨t, hmanaged, Logical.SourceKind.entity?_eq_some.2 (Option.some.inj hkind).symm⟩

/-- A path that is narrowed to an entity goes on like a root over that entity, whatever the path is:
the same steps can be taken from both, and both then have the same part, as long as there are fewer
steps than resolution may go. -/
theorem treatAs_reanchors {raw : Definition RawAttribute} {c : Catalog}
    (h : ofDefinition raw = .ok c) {id : Logical.TypeId} {entity : String}
    (hentity : c.logical.entityName? id = some entity) (p : Path) (v : Option String) :
    ∃ treated root, p.treatAs c.registry entity = .ok treated ∧
      Path.ofEntity c.registry entity v = .ok root ∧
      ∀ steps, Alike
        (fun q q' => ∀ r : Resolver, r.metamodel = c.metamodel → r.groupPart? = Resolver.noGroups →
          steps.length < r.maxDepth → r.resolve? q = r.resolve? q')
        (treated.follow c.registry steps) (root.follow c.registry steps) := by
  obtain ⟨d, uses, -, -, made⟩ := exists_madeFrom h
  obtain ⟨t, hmanaged, ht⟩ := made.exists_managed?_entity hentity
  have htreat : p.treatAs c.registry entity = .ok (.treat p t) := by
    simp only [Path.treatAs, hmanaged]
  have hroot : Path.ofEntity c.registry entity v = .ok (.root t v) := by
    simp [Path.ofEntity, Registry.root, hmanaged, ht]
  refine ⟨_, _, htreat, hroot, fun steps => ?_⟩
  refine (Path.Reanchored.anchor.follow c.registry steps).mono fun q q' hq hq' hsame => ?_
  intro r hm hgroups hdepth
  have hspan := Path.span_le_of_follow hq
  have hspan' := Path.span_le_of_follow hq'
  rw [Path.span_treat_entity ht] at hspan
  rw [Path.span] at hspan'
  rw [Resolver.resolve?_eq_plain?_of_span hgroups (by omega),
    Resolver.resolve?_eq_plain?_of_span hgroups (by omega), hsame.plain?_eq ht]

/-- The column `t.amount` of a common table expression. -/
def amountOfTotal : Path :=
  .cteColumn (.cteRoot ⟨"totals", [⟨"amount", .decimal⟩]⟩ (some "t")) ⟨"amount", .decimal⟩ none

/-- From an auction to the amount of a bid on it. -/
def amountOfBidSteps : List Path.Step :=
  [.get "bids", .part .element, .get "price", .get "amount"]

set_option maxRecDepth 100000 in
/-- The amount of a total, narrowed to an auction, has the bids of one. -/
theorem treatAs_reanchors_amountOfTotal : ∃ c treated root q q' part,
    ofDefinition auctionHouse = .ok c ∧
    amountOfTotal.treatAs c.registry "Auction" = .ok treated ∧
    Path.ofEntity c.registry "Auction" (some "a") = .ok root ∧
    treated.follow c.registry amountOfBidSteps = .ok q ∧
    root.follow c.registry amountOfBidSteps = .ok q' ∧
    Resolver.resolve? ⟨c.metamodel, Resolver.noGroups, 5, false⟩ q = some part ∧
    Resolver.resolve? ⟨c.metamodel, Resolver.noGroups, 5, false⟩ q' = some part := by
  let P := fun c : Catalog =>
    decide (c.logical.entityName? 2 = some "Auction") &&
      (amountOfTotal.treatAs c.registry "Auction").toOption.any fun treated =>
        (treated.follow c.registry amountOfBidSteps).toOption.any fun q =>
          (Resolver.resolve? ⟨c.metamodel, Resolver.noGroups, 5, false⟩ q).isSome
  obtain ⟨c, hc, hP⟩ : ∃ c, ofDefinition auctionHouse = .ok c ∧ P c = true :=
    exists_ok_of_any (by decide +kernel)
  rw [Bool.and_eq_true, decide_eq_true_eq] at hP
  obtain ⟨hentity, hP⟩ := hP
  obtain ⟨treated, htreated, hP⟩ := exists_ok_of_any hP
  obtain ⟨q, hq, hP⟩ := exists_ok_of_any hP
  obtain ⟨part, hpart⟩ := Option.isSome_iff_exists.1 hP
  obtain ⟨treated', root, htreated', hroot, halike⟩ :=
    treatAs_reanchors hc hentity amountOfTotal (some "a")
  obtain rfl : treated = treated' := Except.ok.inj (htreated.symm.trans htreated')
  have hsteps := halike amountOfBidSteps
  rw [hq] at hsteps
  generalize hq' : root.follow c.registry amountOfBidSteps = outcome at hsteps
  cases hsteps with
  | @ok _ q' hsame =>
    have heq := hsame ⟨c.metamodel, Resolver.noGroups, 5, false⟩ rfl rfl
      (Nat.lt_succ_self amountOfBidSteps.length)
    exact ⟨c, treated, root, q, q', part, hc, htreated, hroot, hq, hq', hpart, heq ▸ hpart⟩

end Catalog

end QueryPath
