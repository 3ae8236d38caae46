import QueryPath.Proofs.Query.Depth
import QueryPath.Proofs.Query.Identity

/-!
# Table groups and resolution

Table groups are there so that joins can share tables; what a path means must not depend on them.
Each group that a query adds has the part of its path (`FromClause.Sound`), as the group of a join
goes on from that of the path before it. A group is found by the text of a path, and that text
belongs to one path alone. So the part of a group is the part that the path has anyway, and a
resolver with groups finds the same parts as one without.
-/

namespace QueryPath

open Physical (Metamodel Part)

namespace FromClause

/-! ## Adding groups -/

/-- What a query says to add a table group. -/
inductive Call where
  | root (path : Path)
  | join (path : Path)
deriving DecidableEq, Repr

namespace Call

def path : Call → Path
  | root p | join p => p

def apply (m : Metamodel) (f : FromClause) : Call → Except FromClauseError (TableGroup × FromClause)
  | root p => f.addRoot m p
  | join p => f.addJoin m p

end Call

/-- The from-clause behind a call, which is the same if the call fails. -/
def next (m : Metamodel) (f : FromClause) (call : Call) : FromClause :=
  match call.apply m f with
  | .ok (_, f') => f'
  | .error _ => f

/-- The from-clause behind some calls. -/
def run (m : Metamodel) (f : FromClause) (calls : List Call) : FromClause := calls.foldl (next m) f

section Calls

variable {m : Metamodel} {f f' : FromClause} {g : TableGroup} {p base : Path} {part : Part}

theorem find?_eq_some {path : NavigablePath} (h : f.find? path = some g) :
    g ∈ f.groups ∧ g.path.full = path.full := by
  refine ⟨List.mem_of_find?_eq_some h, ?_⟩
  have hsame := List.find?_some h
  simpa [NavigablePath.same] using hsame

theorem get_eq_ok {path : NavigablePath} (h : f.get path = .ok g) : f.find? path = some g := by
  unfold get at h
  split at h
  · cases h
    assumption
  · cases h

theorem register_eq_ok {g' : TableGroup} (h : f.register g = .ok (g', f')) :
    g' = g ∧ f'.groups = f.groups ++ [g] := by
  unfold register at h
  split at h
  · cases h
  · cases h
    exact ⟨rfl, rfl⟩

theorem materialize_eq_ok (h : f.materialize m p part = .ok (g, f')) :
    g.path = p.navigable ∧ g.part = part ∧ f'.groups = f.groups ++ [g] := by
  obtain ⟨rfl, hgroups⟩ := register_eq_ok h
  exact ⟨rfl, rfl, hgroups⟩

theorem addRoot_eq_ok (h : f.addRoot m p = .ok (g, f')) :
    ∃ s v entity e, p = .root s v ∧ s.entity? = some entity ∧ m.entity? entity = some e ∧
      f.materialize m p (.entity e) = .ok (g, f') := by
  unfold addRoot at h
  split at h
  · rename_i s v
    split at h
    · cases h
    · rename_i entity hentity
      split at h
      · cases h
      · rename_i e he
        exact ⟨s, v, entity, e, rfl, hentity, he, h⟩
  · cases h

theorem addJoin_eq_ok (h : f.addJoin m p = .ok (g, f')) :
    ∃ base part, p.base? = some base ∧ f.joinedPart m p base = .ok (some part) ∧
      f.materialize m p part = .ok (g, f') := by
  unfold addJoin at h
  split at h
  · cases h
  · rename_i base hbase
    obtain ⟨x, hx, h⟩ := bind_eq_ok.1 h
    split at h
    · cases h
    · rename_i part
      split at h
      · exact ⟨base, part, hbase, hx, h⟩
      · cases h

/-- The part of a join is looked up on the entity that its base is narrowed to, or else on the
group of its base. -/
theorem joinedPart_eq_ok (h : f.joinedPart m p base = .ok (some part)) :
    (∃ anchor target entity t, base = .treat anchor target ∧ target.entity? = some entity ∧
      m.entity? entity = some t ∧ m.subPart? (.entity t) p.name (some t) = some part) ∨
    ∃ g, f.find? base.navigable = some g ∧ m.subPart? g.part p.name none = some part := by
  unfold joinedPart at h
  split at h
  · rename_i anchor target
    split at h
    · rename_i entity hentity
      obtain ⟨_, -, h⟩ := bind_eq_ok.1 h
      split at h
      · cases h
      · rename_i t ht
        injection h with h
        exact .inl ⟨anchor, target, entity, t, rfl, hentity, ht, h⟩
    · obtain ⟨g, hg, h⟩ := bind_eq_ok.1 h
      injection h with h
      exact .inr ⟨g, get_eq_ok hg, h⟩
  · obtain ⟨g, hg, h⟩ := bind_eq_ok.1 h
    injection h with h
    exact .inr ⟨g, get_eq_ok hg, h⟩

end Calls

/-! ## Sound groups -/

/-- Each group has the part of the path of a variable. -/
def Sound (m : Metamodel) (s : Scope) (f : FromClause) : Prop :=
  ∀ g ∈ f.groups, ∃ n p, s.pathOf? n = some p ∧ g.path = p.navigable ∧
    Resolver.plain? m p = some g.part

theorem Sound.materialize {m : Metamodel} {s : Scope} {f f' : FromClause} (sound : f.Sound m s)
    {n : String} {p : Path} (hp : s.pathOf? n = some p) {part : Part}
    (hpart : Resolver.plain? m p = some part) {g : TableGroup}
    (h : f.materialize m p part = .ok (g, f')) : f'.Sound m s := by
  obtain ⟨hpath, rfl, hgroups⟩ := materialize_eq_ok h
  intro g' hg'
  rw [hgroups, List.mem_append, List.mem_singleton] at hg'
  rcases hg' with hg' | rfl
  · exact sound g' hg'
  · exact ⟨n, p, hp, hpath, hpart⟩

end FromClause

/-- A step under a variable looks its name up on the part of the path before it. -/
theorem Resolver.plain?_of_base {m : Metamodel} {p base : Path} (hbase : p.base? = some base)
    {v : String} (hv : p.aliasName? = some v) :
    plain? m p = (plain? m base).bind (m.subPart? · p.name none) := by
  cases p with
  | root s v => cases hbase
  | cteRoot t v => cases hbase
  | cteColumn b c v =>
    cases hbase
    exact plain?_cteColumn m base c v
  | member b s pl v =>
    cases hbase
    exact plain?_member m base s pl v
  | treat b t => cases hv
  | part b n s => cases hv

namespace Catalog.MadeFrom

variable {c : Catalog} {d : Definition Definition.Attribute} {uses : Definition.Uses}
  (made : c.MadeFrom d uses) (spellable : d.outline.Spellable)
  {s : Scope} (hs : s.registry = c.registry) (sound : s.Sound) (readable : s.Readable)

include made spellable hs sound readable

/-- A group that is found for a path has the part of that path. -/
theorem plain?_of_find? {f : FromClause} (hf : f.Sound c.metamodel s) {q : Path} (hq : s.Known q)
    {g : TableGroup} (h : f.find? q.navigable = some g) :
    Resolver.plain? c.metamodel q = some g.part := by
  obtain ⟨hg, hfull⟩ := FromClause.find?_eq_some h
  obtain ⟨n, p, hp, hpath, hpart⟩ := hf g hg
  have heq : p = q := made.eq_of_text spellable hs readable (sound.known n p hp) hq
    ((congrArg NavigablePath.full hpath).symm.trans hfull)
  exact heq ▸ hpart

/-- Each call keeps the groups sound. -/
theorem sound_apply {f f' : FromClause} (hf : f.Sound c.metamodel s) {call : FromClause.Call}
    {n : String} (hn : s.pathOf? n = some call.path) {g : TableGroup}
    (h : call.apply c.metamodel f = .ok (g, f')) : f'.Sound c.metamodel s := by
  cases call with
  | root p =>
    obtain ⟨x, v, entity, e, rfl, hentity, he, h⟩ := FromClause.addRoot_eq_ok h
    refine hf.materialize (p := .root x v) hn ?_ h
    rw [Resolver.plain?_root, hentity, Option.bind_some, he, Option.map_some]
  | join p =>
    obtain ⟨base, part, hbase, hjoined, h⟩ := FromClause.addJoin_eq_ok h
    refine hf.materialize (p := p) hn ?_ h
    rw [Resolver.plain?_of_base hbase (sound.aliasName n p hn)]
    rcases FromClause.joinedPart_eq_ok hjoined with
      ⟨anchor, target, entity, t, rfl, hentity, ht, hsub⟩ | ⟨g, hg, hsub⟩
    · rw [Resolver.plain?_treat_entity _ hentity, ht, Option.map_some, Option.bind_some, ← hsub]
      exact (Metamodel.entityPart?_self _ t p.name).symm
    · have known : s.Known base := (sound.known n p hn).base hbase
      rw [made.plain?_of_find? spellable hs sound readable hf known hg, Option.bind_some, hsub]

/-- All groups that are added for variables are sound. -/
theorem sound_run {calls : List FromClause.Call}
    (hcalls : ∀ call ∈ calls, ∃ n, s.pathOf? n = some call.path) {f : FromClause}
    (hf : f.Sound c.metamodel s) : (f.run c.metamodel calls).Sound c.metamodel s := by
  induction calls generalizing f with
  | nil => exact hf
  | cons call calls ih =>
    refine ih (fun x hx => hcalls x (List.mem_cons_of_mem _ hx)) ?_
    unfold FromClause.next
    split
    · rename_i g f' happly
      obtain ⟨n, hn⟩ := hcalls call List.mem_cons_self
      exact made.sound_apply spellable hs sound readable hf hn happly
    · exact hf

theorem soundBefore {f : FromClause} (hf : f.Sound c.metamodel s) {r : Resolver}
    (hr : r.metamodel = c.metamodel) (hgroups : r.groupPart? = f.groupPart?) {p : Path}
    (hp : s.Known p) : r.SoundBefore p := by
  intro q hq part hpart
  rw [hgroups] at hpart
  obtain ⟨g, hg, rfl⟩ := Option.map_eq_some_iff.1 hpart
  rw [hr]
  exact made.plain?_of_find? spellable hs sound readable hf (hp.of_mem_bases hq) hg

/-- Sound groups make no difference to the part of a path. -/
theorem unbounded?_of_sound {f : FromClause} (hf : f.Sound c.metamodel s) {r : Resolver}
    (hr : r.metamodel = c.metamodel) (hgroups : r.groupPart? = f.groupPart?) {p : Path}
    (hp : s.Known p) : r.unbounded? p = Resolver.plain? c.metamodel p := by
  rw [Resolver.unbounded?_eq_plain?
    (made.soundBefore spellable hs sound readable hf hr hgroups hp), hr]

end Catalog.MadeFrom

/-! ## Groups of a query -/

namespace Catalog

open Definition (RawAttribute)

/-- Table groups are transparent: in a query whose names path expressions can spell, a path has the
same part with the groups of any roots and joins as without groups, and each of these groups has
the part that its path has without groups. -/
theorem resolve?_eq_of_tableGroups {raw : Definition RawAttribute} {c : Catalog}
    (h : ofDefinition raw = .ok c) (spellable : (raw.map RawAttribute.name).Spellable)
    {declarations : List Declaration} (hdecl : ∀ d ∈ declarations, d.Spellable)
    {s : Scope} (hs : s = Scope.run { registry := c.registry } declarations)
    {calls : List FromClause.Call} (hcalls : ∀ call ∈ calls, ∃ n, s.pathOf? n = some call.path)
    {f : FromClause} (hf : f = FromClause.run c.metamodel {} calls) :
    (∀ e p depth, s.bind e = .ok p → p.nodes ≤ depth →
      Resolver.resolve?
          { metamodel := c.metamodel, groupPart? := f.groupPart?, maxDepth := depth } p =
        Resolver.resolve?
          { metamodel := c.metamodel, groupPart? := Resolver.noGroups, maxDepth := depth } p) ∧
    ∀ g ∈ f.groups, ∃ n p, s.pathOf? n = some p ∧ g.path = p.navigable ∧
      ∀ depth, p.nodes ≤ depth →
        Resolver.resolve?
          { metamodel := c.metamodel, groupPart? := Resolver.noGroups, maxDepth := depth } p =
        some g.part := by
  obtain ⟨d, uses, -, hout, made⟩ := exists_madeFrom h
  have hregistry : s.registry = c.registry := by rw [hs, Scope.registry_run]
  have sound : s.Sound := hs ▸ Scope.sound_run c.registry declarations
  have readable : s.Readable := hs ▸ Scope.readable_run hdecl
  have none : (FromClause.Sound c.metamodel s {}) := fun g hg => by cases hg
  have groups := made.sound_run (hout ▸ spellable) hregistry sound readable hcalls none
  rw [← hf] at groups
  refine ⟨?_, ?_⟩
  · intro e p depth hbind hdepth
    have known := (Scope.reaches_of_bind hbind).known sound
    refine Eq.trans ?_ (Resolver.resolve?_eq_plain? rfl hdepth).symm
    rw [Resolver.resolve?_eq_unbounded? hdepth]
    exact made.unbounded?_of_sound (hout ▸ spellable) hregistry sound readable groups rfl rfl known
  · intro g hg
    obtain ⟨n, p, hp, hpath, hpart⟩ := groups g hg
    refine ⟨n, p, hp, hpath, fun depth hdepth => ?_⟩
    rw [Resolver.resolve?_eq_plain? rfl hdepth, hpart]

set_option maxRecDepth 100000 in
theorem resolve?_eq_of_auctionGroups : ∃ c a b p f, ofDefinition auctionHouse = .ok c ∧
    (Scope.run { registry := c.registry } Scope.auctionVariables).pathOf? "a" = some a ∧
    (Scope.run { registry := c.registry } Scope.auctionVariables).pathOf? "b" = some b ∧
    f = FromClause.run c.metamodel {} [.join b, .root a, .join b] ∧ f.groups.length = 2 ∧
    (Scope.run { registry := c.registry } Scope.auctionVariables).bind Scope.amountOfBid = .ok p ∧
    Resolver.resolve? { metamodel := c.metamodel, groupPart? := f.groupPart?, maxDepth := 6 } p =
      Resolver.resolve?
        { metamodel := c.metamodel, groupPart? := Resolver.noGroups, maxDepth := 6 } p := by
  let P := fun c : Catalog =>
    let s := Scope.run { registry := c.registry } Scope.auctionVariables
    (s.pathOf? "a").any fun a => (s.pathOf? "b").any fun b =>
      decide ((FromClause.run c.metamodel {} [.join b, .root a, .join b]).groups.length = 2) &&
        (s.bind Scope.amountOfBid).toOption.any fun p => decide (p.nodes ≤ 6)
  obtain ⟨c, hc, hP⟩ : ∃ c, ofDefinition auctionHouse = .ok c ∧ P c = true :=
    exists_ok_of_any (by decide +kernel)
  obtain ⟨a, ha, hP⟩ := (Option.any_eq_true _ _).1 hP
  obtain ⟨b, hb, hP⟩ := (Option.any_eq_true _ _).1 hP
  rw [Bool.and_eq_true, decide_eq_true_eq] at hP
  obtain ⟨p, hp, hdepth⟩ := exists_ok_of_any hP.2
  have hcalls : ∀ call ∈ [FromClause.Call.join b, .root a, .join b], ∃ n,
      (Scope.run { registry := c.registry } Scope.auctionVariables).pathOf? n = some call.path := by
    simp only [List.mem_cons, List.not_mem_nil, or_false]
    rintro call (rfl | rfl | rfl)
    · exact ⟨"b", hb⟩
    · exact ⟨"a", ha⟩
    · exact ⟨"b", hb⟩
  have hresolve := (resolve?_eq_of_tableGroups hc (by decide) (by decide) rfl hcalls rfl).1
  exact ⟨c, a, b, p, _, hc, ha, hb, rfl, hP.1, hp,
    hresolve _ p 6 hp (by simpa using hdepth)⟩

end Catalog

end QueryPath
