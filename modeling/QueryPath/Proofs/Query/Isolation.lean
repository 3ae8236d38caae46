import QueryPath.Proofs.Query.TableGroups
import QueryPath.Proofs.Query.Treat

/-!
# Common table expressions have no parts

The tables that a query defines itself are not in the metamodel, so a path that starts at one has no
part (`plain?_of_startsAtCte`). Its text may look like that of a path from an entity of the same
name; it is not found among the table groups for all that, as these are found by text and each text
belongs to one path.

Only a narrowing step can lead such a path back to an entity. What the first of these narrows has no
source, so the step does not fit (`exists_misfit_of_startsAtCte`), and the check refuses the path.
-/

namespace QueryPath

open Logical (Model Registry)

namespace Path

/-- Whether some step narrows the path. -/
def isNarrowed : Path → Bool
  | root _ _ | cteRoot _ _ => false
  | treat _ _ => true
  | cteColumn b _ _ | member b _ _ _ | part b _ _ => b.isNarrowed

section Cte

variable {p : Path}

/-- Up to the first narrowing step, a path from a common table expression has no source. -/
theorem Over.source?_of_startsAtCte {r : Registry} (hp : p.Over r) (hcte : p.startsAtCte = true)
    (hnarrowed : p.isNarrowed = false) : p.source? = none := by
  induction hp with
  | root => cases hcte
  | cteRoot | cteColumn => rfl
  | member _ hs _ _ _ ih =>
    rw [ih hcte hnarrowed] at hs
    cases hs
  | treat => cases hnarrowed
  | part _ _ ih => cases ih hcte hnarrowed

/-- The first narrowing step of a path from a common table expression does not fit. -/
theorem Over.exists_misfit_of_startsAtCte {r : Registry} {m : Model} (hp : p.Over r)
    (hcte : p.startsAtCte = true) (hnarrowed : p.isNarrowed = true) :
    ∃ q ∈ p :: p.bases, ∃ f, q.Misfit m f := by
  induction hp with
  | root => cases hcte
  | cteRoot => cases hnarrowed
  | cteColumn => cases hnarrowed
  | member _ _ _ _ _ ih | part _ _ ih =>
    obtain ⟨q, hq, hf⟩ := ih hcte hnarrowed
    exact ⟨q, List.mem_cons_of_mem _ hq, hf⟩
  | @treat b name t hb _ ih =>
    cases hbase : b.isNarrowed with
    | true =>
      obtain ⟨q, hq, hf⟩ := ih hcte hbase
      exact ⟨q, List.mem_cons_of_mem _ hq, hf⟩
    | false =>
      refine ⟨.treat b t, List.mem_cons_self, ?_⟩
      by_cases ht : ∃ n, t.kind = .entity n
      · obtain ⟨n, hn⟩ := ht
        refine ⟨_, .baseNotEntity hn fun s n' hs => ?_⟩
        rw [hb.source?_of_startsAtCte hcte hbase] at hs
        cases hs
      · exact ⟨_, .notEntity (not_exists.1 ht)⟩

/-- Without table groups, a path from a common table expression has no part unless it is
narrowed. -/
theorem plain?_of_startsAtCte (m : Physical.Metamodel) (hcte : p.startsAtCte = true)
    (hnarrowed : p.isNarrowed = false) : Resolver.plain? m p = none := by
  induction p with
  | root => cases hcte
  | cteRoot => rfl
  | cteColumn b c v ih => rw [Resolver.plain?_cteColumn, ih hcte hnarrowed, Option.bind_none]
  | member b s plural v ih => rw [Resolver.plain?_member, ih hcte hnarrowed, Option.bind_none]
  | treat => cases hnarrowed
  | part b nature s ih =>
    cases b with
    | member b x plural v =>
      rw [Resolver.plain?_part m { metamodel := m, groupPart? := Resolver.noGroups } rfl,
        ih hcte hnarrowed, Option.bind_none]
    | root | cteRoot | cteColumn | treat | part => rfl

end Cte

end Path

namespace Catalog

open Definition (RawAttribute)

section MadeFrom

variable {c : Catalog} {d : Definition Definition.Attribute} {uses : Definition.Uses}
  (made : c.MadeFrom d uses) {r : Resolver} (hm : r.metamodel = c.metamodel) {p : Path}
  (hcte : p.startsAtCte = true)

include made hm hcte

/-- Sound groups give no part to a path from a common table expression that is not narrowed. -/
theorem MadeFrom.resolve?_eq_none (spellable : d.outline.Spellable) {s : Scope}
    (hs : s.registry = c.registry) (sound : s.Sound) (readable : s.Readable) {f : FromClause}
    (hf : f.Sound c.metamodel s) (hgroups : r.groupPart? = f.groupPart?) (known : s.Known p)
    (hnarrowed : p.isNarrowed = false) : r.resolve? p = none := by
  have hplain : r.unbounded? p = none := by
    rw [made.unbounded?_of_sound spellable hs sound readable hf hm hgroups known,
      Path.plain?_of_startsAtCte _ hcte hnarrowed]
  rw [Option.eq_none_iff_forall_ne_some]
  intro part hpart
  rw [Resolver.unbounded?_of_resolveAt hpart] at hplain
  cases hplain

/-- One that is narrowed is refused by a check. -/
theorem MadeFrom.resolve_eq_error (hr : r.validatesTreats = true) (hp : p.Over c.registry)
    (hnarrowed : p.isNarrowed = true) : ∃ e, r.resolve p = .error e := by
  rw [Resolver.resolve_eq_bind hr, hm]
  cases hvalid : validateTreats c.metamodel p with
  | error e => exact ⟨e, rfl⟩
  | ok _ =>
    obtain ⟨q, hq, fault, hmisfit⟩ :=
      hp.exists_misfit_of_startsAtCte (m := c.logical) hcte hnarrowed
    exact absurd hmisfit ((made.validateTreats_spec hp).1 _ hvalid q hq fault)

end MadeFrom

/-- Common table expressions are isolated: in a query whose names path expressions can spell, a path
that starts at one has no part under the groups of any roots and joins unless it is narrowed, and
none under a check of narrowing steps, narrowed or not. -/
theorem resolve?_of_startsAtCte {raw : Definition RawAttribute} {c : Catalog}
    (h : ofDefinition raw = .ok c) (spellable : (raw.map RawAttribute.name).Spellable)
    {declarations : List Declaration} (hdecl : ∀ d ∈ declarations, d.Spellable)
    {s : Scope} (hs : s = Scope.run { registry := c.registry } declarations)
    {calls : List FromClause.Call} (hcalls : ∀ call ∈ calls, ∃ n, s.pathOf? n = some call.path)
    {f : FromClause} (hf : f = FromClause.run c.metamodel {} calls)
    {r : Resolver} (hm : r.metamodel = c.metamodel) (hgroups : r.groupPart? = f.groupPart?)
    {e : Expr} {p : Path} (hp : s.bind e = .ok p) (hcte : p.startsAtCte = true) :
    (p.isNarrowed = false → r.resolve? p = none) ∧
    (r.validatesTreats = true → ∀ part, r.resolve p ≠ .ok (some part)) := by
  obtain ⟨d, uses, -, hout, made⟩ := exists_madeFrom h
  have hregistry : s.registry = c.registry := by rw [hs, Scope.registry_run]
  have sound : s.Sound := hs ▸ Scope.sound_run c.registry declarations
  have readable : s.Readable := hs ▸ Scope.readable_run hdecl
  have known : s.Known p := (Scope.reaches_of_bind hp).known sound
  have empty : FromClause.Sound c.metamodel s {} := fun g hg => by cases hg
  have groups : f.Sound c.metamodel s :=
    hf ▸ made.sound_run (hout ▸ spellable) hregistry sound readable hcalls empty
  have absent : p.isNarrowed = false → r.resolve? p = none :=
    made.resolve?_eq_none hm hcte (hout ▸ spellable) hregistry sound readable groups hgroups known
  refine ⟨absent, fun hr part hpart => ?_⟩
  cases hnarrowed : p.isNarrowed with
  | false =>
    rw [Resolver.resolve_eq_bind hr, Resolver.resolve_lenient, absent hnarrowed] at hpart
    obtain ⟨_, -, hnone⟩ := bind_eq_ok.1 hpart
    cases hnone
  | true =>
    obtain ⟨e, he⟩ := made.resolve_eq_error hm hcte hr (hregistry ▸ known.isOver) hnarrowed
    rw [he] at hpart
    cases hpart

/-- The variables of `from Auction a join a.bids b, Auction t`, the second `Auction` being a table
that the query defines. -/
def auctionTableVariables : List Declaration :=
  [.root "Auction" "a", .join "a.bids" "b", .cte ⟨"Auction", [⟨"reserve", .decimal⟩]⟩ "t"]

set_option maxRecDepth 100000 in
/-- The reserve of such a table has no part beside the groups of the entity of that name; narrowed
to the entity it has one, but not under a check. -/
theorem resolve?_auctionTable : ∃ c s a b t f p q part, ofDefinition auctionHouse = .ok c ∧
    s = Scope.run { registry := c.registry } auctionTableVariables ∧
    s.pathOf? "a" = some a ∧ s.pathOf? "b" = some b ∧ s.pathOf? "t" = some t ∧
    f = FromClause.run c.metamodel {} [.root a, .join b, .root t] ∧ f.groups.length = 2 ∧
    s.bind (.member (.root "t") "reserve") = .ok p ∧
    Resolver.resolve? ⟨c.metamodel, f.groupPart?, 64, true⟩ p = none ∧
    s.bind (.member (.treat (.root "t") "Auction") "reserve") = .ok q ∧
    Resolver.resolve? ⟨c.metamodel, f.groupPart?, 64, true⟩ q = some part ∧
    Resolver.resolve ⟨c.metamodel, f.groupPart?, 64, true⟩ q ≠ .ok (some part) := by
  let P := fun c : Catalog =>
    let s := Scope.run { registry := c.registry } auctionTableVariables
    (s.pathOf? "a").any fun a => (s.pathOf? "b").any fun b => (s.pathOf? "t").any fun t =>
      let f := FromClause.run c.metamodel {} [.root a, .join b, .root t]
      decide (f.groups.length = 2) &&
        (s.bind (.member (.root "t") "reserve")).toOption.any fun p =>
          p.startsAtCte && !p.isNarrowed &&
            (s.bind (.member (.treat (.root "t") "Auction") "reserve")).toOption.any fun q =>
              q.startsAtCte && (Resolver.resolve? ⟨c.metamodel, f.groupPart?, 64, true⟩ q).isSome
  obtain ⟨c, hc, hP⟩ : ∃ c, ofDefinition auctionHouse = .ok c ∧ P c = true :=
    exists_ok_of_any (by decide +kernel)
  obtain ⟨a, ha, hP⟩ := (Option.any_eq_true _ _).1 hP
  obtain ⟨b, hb, hP⟩ := (Option.any_eq_true _ _).1 hP
  obtain ⟨t, ht, hP⟩ := (Option.any_eq_true _ _).1 hP
  rw [Bool.and_eq_true, decide_eq_true_eq] at hP
  obtain ⟨p, hp, hP'⟩ := exists_ok_of_any hP.2
  simp only [Bool.and_eq_true, Bool.not_eq_true'] at hP'
  obtain ⟨⟨hcte, hnarrowed⟩, hP'⟩ := hP'
  obtain ⟨q, hq, hP'⟩ := exists_ok_of_any hP'
  rw [Bool.and_eq_true] at hP'
  obtain ⟨hcte', hsome⟩ := hP'
  obtain ⟨part, hpart⟩ := Option.isSome_iff_exists.1 hsome
  have hcalls : ∀ call ∈ [FromClause.Call.root a, .join b, .root t], ∃ n,
      (Scope.run { registry := c.registry } auctionTableVariables).pathOf? n = some call.path := by
    simp only [List.mem_cons, List.not_mem_nil, or_false]
    rintro call (rfl | rfl | rfl)
    · exact ⟨"a", ha⟩
    · exact ⟨"b", hb⟩
    · exact ⟨"t", ht⟩
  let r : Resolver := ⟨c.metamodel,
    (FromClause.run c.metamodel {} [.root a, .join b, .root t]).groupPart?, 64, true⟩
  have hnone := (resolve?_of_startsAtCte hc (by decide) (by decide) rfl hcalls rfl (r := r) rfl rfl
    hp hcte).1 hnarrowed
  have hrefused := (resolve?_of_startsAtCte hc (by decide) (by decide) rfl hcalls rfl (r := r) rfl
    rfl hq hcte').2 rfl part
  exact ⟨c, _, a, b, t, _, p, q, part, hc, rfl, ha, hb, ht, rfl, hP.1, hp, hnone, hq, hpart,
    hrefused⟩

end Catalog

end QueryPath
