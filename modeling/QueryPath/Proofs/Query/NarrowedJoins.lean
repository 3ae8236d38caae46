import QueryPath.Proofs.Query.Anchor
import QueryPath.Proofs.Query.TreatLookup
import QueryPath.Proofs.Query.Variables

/-!
# Joins from narrowed paths

A join from a path that is narrowed to an entity looks its name up on that entity, and so does
resolution. Both take no notice of what comes before the last narrowing step; but a join wants a
group to stand on, and asks for that of the path before this step (`FromClause.addJoin_treat`):

```text
treat(a as Timed).bids                      stands on the group of a
treat(treat(a as Timed) as Silent).bids     stands on the group of treat(a as Timed)
```

So resolution finds the part of a join behind any number of narrowing steps, while the join itself
goes back one of them only: behind two of them it is missing its group, unless the narrowed path was
given one of its own.
-/

namespace QueryPath

open Physical (Metamodel Part Entity)

/-- What is joined from a path that is narrowed to an entity is an attribute of that name. -/
theorem Path.join_treat_eq_ok {r : Logical.Registry} {anchor q : Path} {target : Logical.Source}
    {entity n v : String} (hentity : target.entity? = some entity)
    (h : (Path.treat anchor target).join r n v = .ok q) :
    ∃ x plural, q = .member (.treat anchor target) x plural (some v) ∧ x.name = n := by
  rcases step_eq_ok h with ⟨_, _, _, hcte, -, -⟩ | ⟨s, x, hsource, -, hx, rfl⟩
  · cases hcte
  · cases hsource
    rw [Logical.Registry.member?, Logical.SourceKind.entity?_eq_some.1 hentity] at hx
    obtain ⟨y, hy, rfl⟩ := Option.map_eq_some_iff.1 hx
    obtain ⟨type, -, hy⟩ := Option.bind_eq_some_iff.1 hy
    exact ⟨_, _, rfl, by simpa using List.find?_some hy⟩

namespace FromClause

/-- How a join on the group of the anchor ends: it fails if there is no such group, or if the joined
path has a group already, and else adds a group with the part. -/
structure JoinsOn (m : Metamodel) (f : FromClause) (anchor q : Path) (part : Part) : Prop where
  missing : f.find? anchor.navigable = none →
    f.addJoin m q = .error (.missingGroup anchor.text)
  duplicate : ∀ g g', f.find? anchor.navigable = some g → f.find? q.navigable = some g' →
    f.addJoin m q = .error (.duplicateGroup q.text)
  added : ∀ g, f.find? anchor.navigable = some g → f.find? q.navigable = none →
    ∃ g' f', f.addJoin m q = .ok (g', f') ∧ g'.path = q.navigable ∧ g'.part = part ∧
      f'.groups = f.groups ++ [g']

section Joins

variable {m : Metamodel} {f : FromClause} {q anchor : Path} {part : Part}

/-- A group is added unless the path has one. -/
theorem materialize_eq (m : Metamodel) (f : FromClause) (q : Path) (part : Part) :
    (∀ g, f.find? q.navigable = some g →
      f.materialize m q part = .error (.duplicateGroup q.text)) ∧
    (f.find? q.navigable = none → ∃ x, f.materialize m q part = .ok x) := by
  have hfind : ({ f with stems := f.stems ++ [stemOf part.name] } : FromClause).find? q.navigable =
      f.find? q.navigable := rfl
  simp only [materialize, register, hfind]
  constructor
  · intro g hg
    rw [hg]
    rfl
  · intro hnone
    rw [hnone]
    exact ⟨_, rfl⟩

theorem get_eq (f : FromClause) (path : NavigablePath) :
    f.get path = match f.find? path with
      | some g => .ok g
      | none => .error (.missingGroup path.full) := rfl

/-- A join from a path that is narrowed to an entity stands on the group of what is narrowed. -/
theorem addJoin_treat {target : Logical.Source} (hq : q.base? = some (.treat anchor target))
    {t : Entity} (ht : target.entity?.bind m.entity? = some t)
    (hpart : m.subPart? (.entity t) q.name (some t) = some part)
    (hcontainer : part.isContainer = true) : f.JoinsOn m anchor q part := by
  obtain ⟨entity, hentity, ht⟩ := Option.bind_eq_some_iff.1 ht
  have hjoin : f.addJoin m q = f.get anchor.navigable >>= fun _ => f.materialize m q part := by
    rw [addJoin, hq]
    simp only [joinedPart, hentity, ht, hpart, bind_assoc, pure_bind, hcontainer, if_true]
  constructor
  · intro hnone
    rw [hjoin, get_eq, hnone]
    rfl
  · intro g g' hg hg'
    rw [hjoin, get_eq, hg]
    exact (materialize_eq m f q part).1 g' hg'
  · intro g hg hnone
    obtain ⟨⟨g', f'⟩, hm⟩ := (materialize_eq m f q part).2 hnone
    obtain ⟨hpath, hgpart, hgroups⟩ := materialize_eq_ok hm
    refine ⟨g', f', ?_, hpath, hgpart, hgroups⟩
    rw [hjoin, get_eq, hg]
    exact hm

end Joins

end FromClause

namespace Catalog

open Definition (RawAttribute)

/-- A descriptor is found by a name by which the source of an entity is found as well. -/
theorem MadeFrom.exists_managed?_of_entity? {c : Catalog} {d : Definition Definition.Attribute}
    {uses : Definition.Uses} (made : c.MadeFrom d uses) {entity : String} {t : Entity}
    (ht : c.metamodel.entity? entity = some t) :
    ∃ s, c.registry.managed? entity = some s ∧ s.entity? = some entity := by
  obtain ⟨e, he, rfl⟩ := made.exists_entity.1 ⟨t, ht⟩
  obtain ⟨id, as, s, b, htype⟩ := made.typeAt?_entity he
  exact made.exists_managed?_entity (Logical.Draft.entityName?_eq_some.2 ⟨as, s, b, htype⟩)

/-- A join from a path that is narrowed any number of times, to an entity at last, resolves to what
its name leads to on that entity; if this is a container, then it is joined on the group of the path
without the last narrowing step. -/
theorem joinsOn_of_narrowed {raw : Definition RawAttribute} {c : Catalog}
    (h : ofDefinition raw = .ok c) {p base q : Path} {types : List String} {last n v : String}
    (hbase : p.follow c.registry ((types ++ [last]).map .treatAs) = .ok base)
    (hq : base.join c.registry n v = .ok q) {t : Entity} (ht : c.metamodel.entity? last = some t)
    {part : Part} (hpart : c.metamodel.subPart? (.entity t) n none = some part)
    (hcontainer : part.isContainer = true) :
    ∃ anchor, p.follow c.registry (types.map .treatAs) = .ok anchor ∧
      (∀ r : Resolver, r.metamodel = c.metamodel → 0 < r.maxDepth → r.resolve? q = some part) ∧
      ∀ f : FromClause, f.JoinsOn c.metamodel anchor q part := by
  obtain ⟨d, uses, -, -, made⟩ := exists_madeFrom h
  rw [List.map_append, List.map_singleton] at hbase
  obtain ⟨anchor, hanchor, hlast⟩ := Path.follow_concat_eq_ok.1 hbase
  obtain ⟨target, htarget, rfl⟩ := Path.treatAs_eq_ok hlast
  obtain ⟨s, hs, hentity⟩ := made.exists_managed?_of_entity? ht
  obtain rfl : target = s := Option.some.inj (htarget.symm.trans hs)
  obtain ⟨x, plural, rfl, rfl⟩ := Path.join_treat_eq_ok hentity hq
  refine ⟨anchor, hanchor, fun r hr hdepth => ?_, fun f => ?_⟩
  · have hholder : r.holder? (.treat anchor target)
        (fun _ => r.resolveAt (.treat anchor target) 1) = some (.entity t) := by
      rw [Resolver.holder?, Path.treatEntity?, hentity, hr]
      simp only [ht, Option.map_some]
    rw [r.resolve?_of_base rfl rfl rfl, if_neg (Nat.not_le.2 hdepth), hholder, hr]
    exact hpart
  · refine FromClause.addJoin_treat rfl (t := t) ?_ ?_ hcontainer
    · rw [hentity, Option.bind_some, ht]
    · exact (Metamodel.entityPart?_self _ t _).trans hpart

/-- Auctions are timed or not, and some timed auctions are silent; these have a broker. -/
def brokeredAuctions : Definition RawAttribute where
  entities := [
    { name := "Member", table := some "members" },
    { name := "Auction", table := some "auctions" },
    { name := "TimedAuction", supertype := some "Auction" },
    { name := "SilentAuction"
      supertype := some "TimedAuction"
      attributes := [
        { name := "broker", toOne := some "Member", joinColumn := some "broker_id" }] }]

/-- The broker of an auction that was narrowed step by step to a silent one, in a from-clause that
has the auction alone. -/
structure BrokerOf (c : Catalog) (types : List String) (a base q : Path) (t : Entity) (part : Part)
    (g : TableGroup) (f : FromClause) : Prop where
  built : ofDefinition brokeredAuctions = .ok c
  root : Path.ofEntity c.registry "Auction" (some "a") = .ok a
  narrowed : a.follow c.registry ((types ++ ["SilentAuction"]).map .treatAs) = .ok base
  joined : base.join c.registry "broker" "b" = .ok q
  target : c.metamodel.entity? "SilentAuction" = some t
  found : c.metamodel.subPart? (.entity t) "broker" none = some part
  container : part.isContainer = true
  added : FromClause.addRoot c.metamodel {} a = .ok (g, f)
  anchor : f.find? a.navigable = some g
  unused : f.find? q.navigable = none

theorem exists_brokerOf (types : List String) (P : Catalog → Path → Part → FromClause → Bool)
    (h : (ofDefinition brokeredAuctions).toOption.any (fun c =>
      (Path.ofEntity c.registry "Auction" (some "a")).toOption.any fun a =>
        (a.follow c.registry ((types ++ ["SilentAuction"]).map .treatAs)).toOption.any fun base =>
          (base.join c.registry "broker" "b").toOption.any fun q =>
            (c.metamodel.entity? "SilentAuction").any fun t =>
              (c.metamodel.subPart? (.entity t) "broker" none).any fun part =>
                (FromClause.addRoot c.metamodel {} a).toOption.any fun x =>
                  part.isContainer && decide (x.2.find? a.navigable = some x.1) &&
                    decide (x.2.find? q.navigable = none) && P c q part x.2) = true) :
    ∃ c a base q t part g f, BrokerOf c types a base q t part g f ∧ P c q part f = true := by
  obtain ⟨c, hc, h⟩ := exists_ok_of_any h
  obtain ⟨a, ha, h⟩ := exists_ok_of_any h
  obtain ⟨base, hbase, h⟩ := exists_ok_of_any h
  obtain ⟨q, hq, h⟩ := exists_ok_of_any h
  obtain ⟨t, ht, h⟩ := (Option.any_eq_true _ _).1 h
  obtain ⟨part, hpart, h⟩ := (Option.any_eq_true _ _).1 h
  obtain ⟨⟨g, f⟩, hf, h⟩ := exists_ok_of_any h
  simp only [Bool.and_eq_true, decide_eq_true_eq] at h
  obtain ⟨⟨⟨hcontainer, hanchor⟩, hunused⟩, hP⟩ := h
  exact ⟨c, a, base, q, t, part, g, f,
    ⟨hc, ha, hbase, hq, ht, hpart, hcontainer, hf, hanchor, hunused⟩, hP⟩

set_option maxRecDepth 100000 in
/-- The broker of an auction that is narrowed to a silent one is joined on the auction. -/
theorem joinsOn_silentAuction : ∃ c a base q t part g f,
    BrokerOf c [] a base q t part g f ∧ ∃ g' f', f.addJoin c.metamodel q = .ok (g', f') ∧
      g'.path = q.navigable ∧ g'.part = part ∧ f'.groups = f.groups ++ [g'] := by
  obtain ⟨c, a, base, q, t, part, g, f, hb, -⟩ :=
    exists_brokerOf [] (fun _ _ _ _ => true) (by decide +kernel)
  obtain ⟨anchor, hanchor, -, hjoins⟩ := joinsOn_of_narrowed hb.built hb.narrowed
    hb.joined hb.target hb.found hb.container
  cases hanchor
  exact ⟨c, a, base, q, t, part, g, f, hb, (hjoins f).added g hb.anchor hb.unused⟩

set_option maxRecDepth 100000 in
/-- If the auction is narrowed to a timed one before, then its broker is found but not joined. -/
theorem addJoin_silentTimedAuction : ∃ c a base q t part g f,
    BrokerOf c ["TimedAuction"] a base q t part g f ∧
    Resolver.resolve? { metamodel := c.metamodel, groupPart? := f.groupPart? } q = some part ∧
    f.addJoin c.metamodel q = .error (.missingGroup "Auction(a)#TimedAuction") := by
  let P := fun (c : Catalog) (q : Path) (part : Part) (f : FromClause) => decide (
    Resolver.resolve? { metamodel := c.metamodel, groupPart? := f.groupPart? } q = some part ∧
    f.addJoin c.metamodel q = .error (.missingGroup "Auction(a)#TimedAuction"))
  obtain ⟨c, a, base, q, t, part, g, f, hb, hP⟩ :=
    exists_brokerOf ["TimedAuction"] P (by decide +kernel)
  exact ⟨c, a, base, q, t, part, g, f, hb, of_decide_eq_true hP⟩

end Catalog

end QueryPath
