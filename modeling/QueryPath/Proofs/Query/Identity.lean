import QueryPath.Proofs.Catalog.Acceptance
import QueryPath.Proofs.Catalog.Names
import QueryPath.Proofs.Query.Scope

/-!
# Paths are known by their navigations

Two known paths of a query that stand for the same navigation are equal (`eq_of_navigable`). A path
with a variable is what the variable is bound to. The others go on from a path before them, and
that path and the name of the last step tell the step: an attribute is never called like a part of
a collection, nor a column like an attribute, since each goes on from paths of its own sort.

Where variables and common table expressions have identifiers for names (`Scope.Readable`), it is
enough that the texts are the same (`eq_of_text`). So the text tells the paths of a query apart, in
whatever way they are obtained from its variables (`Scope.Obtained`).
-/

namespace QueryPath

open QueryPath.Expr (IsIdentifier)

/-! ## Names in a query -/

/-- The common table expression and its columns have names that path expressions can spell. -/
def Cte.Spellable (t : Cte) : Prop := IsIdentifier t.name ∧ ∀ c ∈ t.columns, IsIdentifier c.name

instance (t : Cte) : Decidable t.Spellable := inferInstanceAs (Decidable (_ ∧ _))

/-- The variable and the common table expression of the declaration have such names. -/
def Declaration.Spellable : Declaration → Prop
  | root _ n | join _ n => IsIdentifier n
  | cte t n => t.Spellable ∧ IsIdentifier n

instance (d : Declaration) : Decidable d.Spellable :=
  match d with
  | .root _ n | .join _ n => inferInstanceAs (Decidable (IsIdentifier n))
  | .cte _ _ => inferInstanceAs (Decidable (_ ∧ _))

namespace Scope

/-- All variables, and the common table expressions that they stand for, have such names. -/
def Readable (s : Scope) : Prop :=
  ∀ n p, s.pathOf? n = some p → IsIdentifier n ∧ ∀ t v, p = .cteRoot t v → t.Spellable

theorem Readable.apply {s s' : Scope} (readable : s.Readable) {d : Declaration}
    (hd : d.Spellable) {p : Path} (h : d.apply s = .ok (p, s')) : s'.Readable := by
  obtain ⟨hfree, rfl, hp⟩ := apply_eq_ok h
  intro n q hq
  rw [pathOf?_declare hfree] at hq
  split at hq
  · rename_i hn
    cases hq
    rw [hn]
    cases hp with
    | root hp =>
      obtain ⟨x, -, rfl⟩ := Path.ofEntity_eq_ok hp
      exact ⟨hd, fun t v h => by cases h⟩
    | cte =>
      refine ⟨hd.2, fun t v h => ?_⟩
      cases h
      exact hd.1
    | join _ _ hp =>
      refine ⟨hd, fun t v h => ?_⟩
      rcases Path.step_eq_ok hp with ⟨_, _, _, _, _, rfl⟩ | ⟨_, _, _, _, _, rfl⟩ <;> cases h
  · exact readable n q hq

theorem readable_run {r : Logical.Registry} {ds : List Declaration}
    (h : ∀ d ∈ ds, d.Spellable) : (run { registry := r } ds).Readable := by
  refine run_induction (P := Readable) ?_ fun s d hd p s' readable happly =>
    readable.apply (h d hd) happly
  intro n p h
  cases h

end Scope

/-! ## The last step -/

/-- The step from a path with which a navigation ends. -/
def Path.lastStep? (r : Logical.Registry) (b : Path) : NavigablePath → Option Path
  | .root _ _ => none
  | .treat _ name => (b.treatAs r name).toOption
  | .step _ name v =>
      match b with
      | .member _ _ (some plural) _ =>
          match PartNature.ofName? name with
          | some nature => (plural.part? nature).map (.part b nature)
          | none => (b.step r name v).toOption
      | _ => (b.step r name v).toOption

theorem Path.lastStep?_step {r : Logical.Registry} {b : Path} {name : String}
    (h : PartNature.ofName? name = none) (a : NavigablePath) (v : Option String) :
    b.lastStep? r (.step a name v) = (b.step r name v).toOption := by
  simp only [lastStep?, h]
  split <;> rfl

namespace Catalog.MadeFrom

variable {c : Catalog} {d : Definition Definition.Attribute} {uses : Definition.Uses}
  (made : c.MadeFrom d uses) (spellable : d.outline.Spellable)

include made spellable

/-- The name of a member is that of no part of a collection. -/
theorem isMemberName_member {b : Path} {s : Logical.Source} {pl : Option Logical.PluralSource}
    {v : Option String} (h : Path.Over c.registry (.member b s pl v)) : IsMemberName s.name := by
  cases h with
  | member hb hs _ hx _ =>
    obtain ⟨stored, hkind⟩ := hb.hasKind made.regular made.registry hs
    exact made.isMemberName_member? spellable hkind hx

/-- The path before the last step and the navigation tell the step. -/
theorem lastStep?_navigable {p b : Path} (hp : p.Over c.registry) (hb : p.base? = some b) :
    b.lastStep? c.registry p.navigable = some p := by
  cases hp with
  | root => cases hb
  | cteRoot => cases hb
  | cteColumn hc =>
    cases hb
    have hn := List.find?_some hc
    rw [beq_iff_eq] at hn
    rw [← hn] at hc
    simp only [Path.navigable, Path.lastStep?, Path.step, hc]
    rfl
  | member hover hs hnav hx hpl =>
    cases hb
    have hname := made.isMemberName_member spellable (v := none) (.member hover hs hnav hx hpl)
    obtain ⟨stored, hkind⟩ := hover.hasKind made.regular made.registry hs
    obtain ⟨hself, hplural⟩ := made.member?_self spellable hkind hx
    rw [Path.navigable, Path.lastStep?_step hname.ofName?_eq_none]
    rw [Path.step_member hs hnav hself, hplural, hpl]
    rfl
  | treat _ ht =>
    cases hb
    rw [← (made.isIdentifier_managed? spellable ht).1] at ht
    simp only [Path.navigable, Path.lastStep?, Path.treatAs, ht]
    rfl
  | part _ hx =>
    cases hb
    simp only [Path.navigable, NavigablePath.append, Path.lastStep?, PartNature.ofName?_name, hx]
    rfl

/-! ## The whole path -/

section Scope

variable {s : Scope} (hs : s.registry = c.registry) {p q : Path}

omit made spellable in
/-- A variable is bound to one path. -/
theorem eq_of_aliasName {n : String} (hp : s.Known p) (hq : s.Known q)
    (hn : p.aliasName? = some n) (h : p.navigable = q.navigable) : p = q := by
  have hbound := hp.bound p List.mem_cons_self n hn
  rw [Path.aliasName?_eq h] at hn
  rw [hq.bound q List.mem_cons_self n hn, Option.some.injEq] at hbound
  exact hbound.symm

include hs

/-- Known paths that stand for the same navigation are the same. -/
theorem eq_of_navigable (hp : s.Known p) (hq : s.Known q) (h : p.navigable = q.navigable) :
    p = q := by
  induction p using Path.base_induction generalizing q with
  | h p ih =>
    cases hn : p.aliasName? with
    | some n => exact eq_of_aliasName hp hq hn h
    | none =>
      have hn' : q.aliasName? = none := Path.aliasName?_eq h ▸ hn
      -- without a variable neither path is a root
      cases hpb : p.base? with
      | none => simpa [hn] using hp.root p List.mem_cons_self hpb
      | some b =>
        cases hqb : q.base? with
        | none => simpa [hn'] using hq.root q List.mem_cons_self hqb
        | some b' =>
          have hparent := congrArg NavigablePath.parent? h
          rw [Path.parent?_navigable, Path.parent?_navigable, hpb, hqb, Option.map_some,
            Option.map_some, Option.some.injEq] at hparent
          obtain rfl := ih b hpb (hp.base hpb) (hq.base hqb) hparent
          have hlast := made.lastStep?_navigable spellable (hs ▸ hp.isOver) hpb
          rw [h, made.lastStep?_navigable spellable (hs ▸ hq.isOver) hqb,
            Option.some.injEq] at hlast
          exact hlast.symm

/-- No name within a known path holds a separator. -/
theorem separable_navigable (readable : s.Readable) (hp : s.Known p) : p.navigable.Separable := by
  have hv : ∀ {p : Path}, s.Known p → ∀ v, p.aliasName? = some v → Separable v :=
    fun hp v hv => (readable v _ (hp.bound _ List.mem_cons_self v hv)).1.separable
  have hover := hs ▸ hp.isOver
  induction hover with
  | root h =>
    obtain ⟨hn, hid⟩ := made.isIdentifier_managed? spellable (Logical.root_eq_ok h).1
    exact ⟨hn ▸ hid.separable, hv hp⟩
  | @cteRoot t v =>
    obtain ⟨n, hn⟩ := Option.isSome_iff_exists.1 (hp.root _ List.mem_cons_self rfl)
    have ht := (readable n _ (hp.bound _ List.mem_cons_self n hn)).2 _ _ rfl
    exact ⟨ht.1.separable, hv hp⟩
  | @cteColumn t u name column v hc =>
    have hbase := hp.base rfl
    obtain ⟨n, hn⟩ := Option.isSome_iff_exists.1 (hbase.root _ List.mem_cons_self rfl)
    have ht := (readable n _ (hbase.bound _ List.mem_cons_self n hn)).2 _ _ rfl
    exact ⟨⟨ht.1.separable, hv hbase⟩, (ht.2 _ (List.mem_of_find?_eq_some hc)).separable, hv hp⟩
  | member hb hsource hnav hx hpl ih =>
    have hname := made.isMemberName_member spellable (v := none) (.member hb hsource hnav hx hpl)
    exact ⟨ih (hp.base rfl), hname.separable, hv hp⟩
  | treat hb ht ih =>
    obtain ⟨hn, hid⟩ := made.isIdentifier_managed? spellable ht
    exact ⟨ih (hp.base rfl), hn ▸ hid.separable⟩
  | @part b x pl v nature y hb hy ih =>
    refine ⟨ih (hp.base rfl), ?_, fun v h => by cases h⟩
    cases nature <;> decide

/-- Known paths with the same text are the same. -/
theorem eq_of_text (readable : s.Readable) (hp : s.Known p) (hq : s.Known q)
    (h : p.text = q.text) : p = q :=
  made.eq_of_navigable spellable hs hp hq <| NavigablePath.full_injective
    (made.separable_navigable spellable hs readable hp)
    (made.separable_navigable spellable hs readable hq) h

end Scope

end Catalog.MadeFrom

/-! ## The paths of a query -/

/-- What the calls of a query make of the paths of its variables. -/
inductive Scope.Obtained (s : Scope) : Path → Prop
  | bound {n p} : s.pathOf? n = some p → Obtained s p
  | get {p n q} : Obtained s p → p.get s.registry n = .ok q → Obtained s q
  | treatAs {p target q} : Obtained s p → p.treatAs s.registry target = .ok q → Obtained s q
  | element {p q} : Obtained s p → p.element = .ok q → Obtained s q
  | index {p q} : Obtained s p → p.index = .ok q → Obtained s q
  | collectionId {p q} : Obtained s p → p.collectionId = .ok q → Obtained s q
  | bind {e p} : s.bind e = .ok p → Obtained s p

theorem Scope.Obtained.reaches {s : Scope} {p : Path} (h : s.Obtained p) : s.Reaches p := by
  induction h with
  | bound hp => exact .bound hp
  | get _ hq ih => exact .get ih hq
  | treatAs _ hq ih => exact .treat ih hq
  | element _ hq ih => exact .part ih (Path.partOf_of_element hq)
  | index _ hq ih => exact .part ih (Path.partOf_of_index hq)
  | collectionId _ hq ih => exact .part ih (Path.partOf_of_collectionId hq)
  | bind hp => exact reaches_of_bind hp

namespace Catalog

open Definition (RawAttribute)

/-- In a query whose names path expressions can spell, the text of a path tells the path. Without
its last step the navigation of a path is that of the path before the step, and each variable is
the name of its path. -/
theorem eq_of_text_of_ofDefinition {raw : Definition RawAttribute} {c : Catalog}
    (h : ofDefinition raw = .ok c) (spellable : (raw.map RawAttribute.name).Spellable)
    {declarations : List Declaration} (hdecl : ∀ d ∈ declarations, d.Spellable)
    {s : Scope} (hs : s = Scope.run { registry := c.registry } declarations) :
    (∀ p q, s.Obtained p → s.Obtained q → p.text = q.text → p = q) ∧
    (∀ p, s.Obtained p → p.navigable.parent? = p.base?.map Path.navigable) ∧
    ∀ n p, s.pathOf? n = some p → p.aliasName? = some n := by
  obtain ⟨d, uses, -, hout, made⟩ := exists_madeFrom h
  have hregistry : s.registry = c.registry := by rw [hs, Scope.registry_run]
  have sound : s.Sound := hs ▸ Scope.sound_run c.registry declarations
  have readable : s.Readable := hs ▸ Scope.readable_run hdecl
  refine ⟨fun p q hp hq htext => ?_, fun p _ => p.parent?_navigable, sound.aliasName⟩
  exact made.eq_of_text (hout ▸ spellable) hregistry readable (hp.reaches.known sound)
    (hq.reaches.known sound) htext

set_option maxRecDepth 100000 in
theorem eq_of_text_auctionHouse : ∃ c s p q, ofDefinition auctionHouse = .ok c ∧
    s = Scope.run { registry := c.registry } Scope.auctionVariables ∧
    s.bind (.part .element (.member (.root "a") "bids")) = .ok p ∧
    s.bind (.part .value (.member (.root "a") "bids")) = .ok q ∧ p.text = q.text ∧ p = q := by
  let P := fun c : Catalog =>
    let s := Scope.run { registry := c.registry } Scope.auctionVariables
    (s.bind (.part .element (.member (.root "a") "bids"))).toOption.any fun p =>
      (s.bind (.part .value (.member (.root "a") "bids"))).toOption.any fun q =>
        decide (p.text = q.text)
  obtain ⟨c, hc, hP⟩ : ∃ c, ofDefinition auctionHouse = .ok c ∧ P c = true :=
    exists_ok_of_any (by decide +kernel)
  obtain ⟨p, hp, hP⟩ := exists_ok_of_any hP
  obtain ⟨q, hq, hP⟩ := exists_ok_of_any hP
  have htext := of_decide_eq_true hP
  have hdecl : ∀ d ∈ Scope.auctionVariables, d.Spellable := by decide
  have heq := (eq_of_text_of_ofDefinition hc (by decide) hdecl rfl).1
  exact ⟨c, _, p, q, hc, rfl, hp, hq, htext, heq p q (.bind hp) (.bind hq) htext⟩

end Catalog

end QueryPath
