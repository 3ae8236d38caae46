import QueryPath.Proofs.Catalog.Acceptance
import QueryPath.Proofs.Query.Depth
import QueryPath.Proofs.Query.Scope

/-!
# Joins as abbreviations

The variable of a join stands for the expression that was joined. With that expression in its place,
again and again until no join is left, an expression leads to the same path, but for the variables
that the joins gave to its steps (`Path.unjoined`). The steps that can be taken from a path, and its
part where no path has a table group, do not depend on these variables.
-/

namespace QueryPath

open Logical (Registry Source PluralSource)

/-! ## Paths without the variables of joins -/

namespace Path

/-- The path without the variables of its joins. Roots keep theirs. -/
def unjoined : Path → Path
  | root s v => root s v
  | cteRoot t v => cteRoot t v
  | cteColumn b c _ => cteColumn b.unjoined c none
  | member b s plural _ => member b.unjoined s plural none
  | treat b t => treat b.unjoined t
  | part b n s => part b.unjoined n s

@[simp] theorem source?_unjoined (p : Path) : p.unjoined.source? = p.source? := by
  cases p <;> rfl

@[simp] theorem treatEntity?_unjoined (p : Path) : p.unjoined.treatEntity? = p.treatEntity? := by
  cases p <;> rfl

@[simp] theorem nodes_unjoined (p : Path) : p.unjoined.nodes = p.nodes := by
  induction p with
  | root | cteRoot => rfl
  | cteColumn _ _ _ ih | member _ _ _ _ ih | treat _ _ ih | part _ _ _ ih =>
    rw [unjoined, nodes, nodes, ih]

theorem bases_unjoined (p : Path) : p.unjoined.bases = p.bases.map unjoined := by
  induction p with
  | root | cteRoot => rfl
  | cteColumn _ _ _ ih | member _ _ _ _ ih | treat _ _ ih | part _ _ _ ih =>
    rw [unjoined, bases, bases, List.map_cons, ih]

/-! ## Steps -/

/-- The second path is the first without the variables of its joins. -/
def Unjoins (p q : Path) : Prop := q = p.unjoined

variable (r : Registry) (p : Path)

/-- The variable of a join makes no difference to what the join leads to. -/
theorem step_unjoined (name : String) (v : Option String) :
    Alike Unjoins (p.step r name v) (p.unjoined.step r name none) := by
  have hsource : ∀ {s}, p.source? = some s →
      Alike Unjoins (p.step r name v) (p.unjoined.step r name none) := by
    intro s hs
    rw [step_eq hs, step_eq (p.source?_unjoined.trans hs)]
    split
    · cases r.member? s name with
      | none => exact .error
      | some x => exact .ok rfl
    · exact .error
  cases p with
  | root | member | treat | part => exact hsource rfl
  | cteColumn => exact .error
  | cteRoot t u =>
    simp only [step, unjoined]
    cases t.column? name with
    | none => exact .error
    | some c => exact .ok rfl

theorem treatAs_unjoined (typeName : String) :
    Alike Unjoins (p.treatAs r typeName) (p.unjoined.treatAs r typeName) := by
  unfold treatAs
  cases r.managed? typeName with
  | none => exact .error
  | some t => exact .ok rfl

theorem plural_unjoined (plural : PluralSource) :
    p.unjoined.plural = .ok plural ↔ p.plural = .ok plural := by
  cases p with
  | member b s found v => cases found <;> simp [Path.plural, unjoined]
  | root | cteRoot | cteColumn | treat | part => simp [Path.plural, unjoined]

theorem applyPart_unjoined (f : PartFunction) :
    Alike Unjoins (Scope.applyPart f p) (Scope.applyPart f p.unjoined) := by
  refine alike_of_ok (fun q hq => ?_) fun q hq => ?_
  · obtain ⟨plural, x, hplural, hx, rfl⟩ := Scope.applyPart_eq_ok.1 hq
    have hunjoined := (p.plural_unjoined plural).2 hplural
    exact ⟨_, Scope.applyPart_eq_ok.2 ⟨plural, x, hunjoined, hx, rfl⟩, rfl⟩
  · obtain ⟨plural, x, hplural, hx, rfl⟩ := Scope.applyPart_eq_ok.1 hq
    have hjoined := (p.plural_unjoined plural).1 hplural
    exact ⟨_, Scope.applyPart_eq_ok.2 ⟨plural, x, hjoined, hx, rfl⟩⟩

end Path

/-! ## Resolution -/

namespace Resolver

variable {r : Resolver} (h : r.groupPart? = noGroups)

include h

theorem container?_unjoined (b : Path) {x y : Option Physical.Part} (hxy : x = y) :
    (r.container? b.unjoined fun _ => x) = r.container? b fun _ => y := by
  simpa only [container?, h, noGroups] using hxy

theorem member?_unjoined (b : Path) (name : String) {x y : Option Physical.Part} (hxy : x = y) :
    (r.member? b.unjoined name fun _ => x) = r.member? b name fun _ => y := by
  rw [member?, member?, b.treatEntity?_unjoined, container?_unjoined h b hxy]

/-- Without table groups the variables of joins make no difference, however far resolution goes. -/
theorem resolveAt_unjoined (p : Path) (depth : Nat) :
    r.resolveAt p.unjoined depth = r.resolveAt p depth := by
  -- The recursion without a bound has the same cases; the bound cuts both sides at the same depth.
  fun_induction unbounded? r p generalizing depth with
  | case1 s v => rfl
  | case2 t v => rfl
  | case3 base target entity htarget =>
    rw [Path.unjoined, resolveAt, resolveAt]
    simp only [htarget]
  | case4 base target htarget ih =>
    rw [Path.unjoined, resolveAt, resolveAt]
    simp only [htarget, member?_unjoined h base target.name (ih (depth + 1))]
  | case5 base column v ih =>
    rw [Path.unjoined, resolveAt, resolveAt]
    simp only [member?_unjoined h base column.name (ih (depth + 1))]
  | case6 base source plural v ih =>
    rw [Path.unjoined, resolveAt, resolveAt]
    simp only [member?_unjoined h base source.name (ih (depth + 1))]
  | case7 base source plural v nature x ih =>
    rw [Path.unjoined, Path.unjoined, resolveAt, resolveAt]
    simp only [container?_unjoined h base (ih (depth + 1))]
  | case8 base nature x hnot =>
    cases base with
    | member b s plural v => exact (hnot b s plural v rfl).elim
    | root | cteRoot | cteColumn | treat | part => rfl

end Resolver

/-! ## Expansion of expressions -/

namespace Expr

/-- The expression with another one in place of its variable. -/
def withRoot : Expr → Expr → Expr
  | root _, d => d
  | member b n, d => member (b.withRoot d) n
  | treat b t, d => treat (b.withRoot d) t
  | part f b, d => part f (b.withRoot d)

theorem rootName_withRoot (e d : Expr) : (e.withRoot d).rootName = d.rootName := by
  induction e with
  | root => rfl
  | member _ _ ih | treat _ _ ih | part _ _ ih => exact ih

theorem withRoot_withRoot (e d x : Expr) :
    (e.withRoot d).withRoot x = e.withRoot (d.withRoot x) := by
  induction e with
  | root => rfl
  | member _ _ ih | treat _ _ ih | part _ _ ih => simp only [withRoot, ih]

theorem withRoot_root (e : Expr) : e.withRoot (root e.rootName) = e := by
  induction e with
  | root => rfl
  | member _ _ ih | treat _ _ ih | part _ _ ih => simp only [withRoot, rootName, ih]

/-- Puts what was joined in place of the variable of a join. -/
def expand (joins : List (String × Expr)) (e : Expr) : Expr ⊕ Expr :=
  match joins.lookup e.rootName with
  | some d => .inr (e.withRoot d)
  | none => .inl e

section Expand

variable {joins : List (String × Expr)} {e e' : Expr}

theorem expand_eq_inl : expand joins e = .inl e' ↔ joins.lookup e.rootName = none ∧ e = e' := by
  unfold expand
  cases joins.lookup e.rootName <;> simp

theorem expand_eq_inr : expand joins e = .inr e' ↔
    ∃ d, joins.lookup e.rootName = some d ∧ e.withRoot d = e' := by
  unfold expand
  cases joins.lookup e.rootName <;> simp

/-- The steps of an expression are kept while its variable is expanded. -/
theorem runs_expand_withRoot (h : Runs (expand joins) e e') (x : Expr) :
    Runs (expand joins) (x.withRoot e) (x.withRoot e') := by
  induction h with
  | done hs =>
    obtain ⟨hnone, rfl⟩ := expand_eq_inl.1 hs
    exact .done (expand_eq_inl.2 ⟨by rwa [rootName_withRoot], rfl⟩)
  | more hs _ ih =>
    obtain ⟨d, hd, rfl⟩ := expand_eq_inr.1 hs
    exact .more (expand_eq_inr.2 ⟨d, by rwa [rootName_withRoot], withRoot_withRoot _ _ _⟩) ih

/-- A later join makes no difference to an expansion that does not end with its variable. -/
theorem runs_expand_append (h : Runs (expand joins) e e') {later : List (String × Expr)}
    (hlater : later.lookup e'.rootName = none) : Runs (expand (joins ++ later)) e e' := by
  induction h with
  | done hs =>
    obtain ⟨hnone, rfl⟩ := expand_eq_inl.1 hs
    exact .done (expand_eq_inl.2 ⟨by rw [List.lookup_append, hnone, hlater]; rfl, rfl⟩)
  | more hs _ ih =>
    obtain ⟨d, hd, rfl⟩ := expand_eq_inr.1 hs
    exact .more (expand_eq_inr.2 ⟨d, by rw [List.lookup_append, hd]; rfl, rfl⟩) (ih hlater)

end Expand

end Expr

/-! ## Binding -/

/-- The expression that a declaration joins, with its variable. -/
def Declaration.joined? : Declaration → Option (String × Expr)
  | root _ _ | cte _ _ => none
  | join expression n => (Expr.read expression).toOption.map (n, ·)

theorem Declaration.lookup_joined? {d : Declaration} {n : String} (h : n ≠ d.name) :
    d.joined?.toList.lookup n = none := by
  cases d with
  | root | cte => rfl
  | join expression m =>
    have hne : (n == m) = false := beq_eq_false_iff_ne.2 h
    rw [joined?]
    cases Expr.read expression with
    | error => rfl
    | ok e => simp [Except.toOption, List.lookup_cons, hne]

namespace Scope

/-- The joins among the declarations that succeed. -/
def joins (s : Scope) : List Declaration → List (String × Expr)
  | [] => []
  | d :: ds =>
      match d.apply s with
      | .ok (_, s') => d.joined?.toList ++ s'.joins ds
      | .error _ => s.joins ds

section Bind

variable {s : Scope}

theorem alike_ofPath {x y : Except PathError Path} (h : Alike Path.Unjoins x y) :
    Alike Path.Unjoins (ofPath x) (ofPath y) := by
  cases h with
  | error => exact .error
  | ok hpq => exact .ok hpq

/-- Steps lead the same way from two variables that stand for the same path. -/
theorem alike_bind_withRoot {e d : Expr}
    (h : Alike Path.Unjoins (s.bind (.root e.rootName)) (s.bind d)) :
    Alike Path.Unjoins (s.bind e) (s.bind (e.withRoot d)) := by
  induction e with
  | root => exact h
  | member base n ih =>
    refine (ih h).bind fun p q hpq => alike_ofPath ?_
    cases hpq
    exact p.step_unjoined s.registry n none
  | treat base target ih =>
    refine (ih h).bind fun p q hpq => alike_ofPath ?_
    cases hpq
    exact p.treatAs_unjoined s.registry target
  | part f base ih =>
    refine (ih h).bind fun p q hpq => alike_ofPath ?_
    cases hpq
    exact p.applyPart_unjoined f

theorem pathOf?_of_bind {e : Expr} {p : Path} (h : s.bind e = .ok p) :
    s.pathOf? e.rootName ≠ none := by
  induction e generalizing p with
  | root n =>
    rw [Expr.rootName, bind_root_eq_ok.1 h]
    exact Option.some_ne_none p
  | member base n ih =>
    obtain ⟨b, hb, -⟩ := bind_member_eq_ok.1 h
    exact ih hb
  | treat base target ih =>
    obtain ⟨b, hb, -⟩ := bind_treat_eq_ok.1 h
    exact ih hb
  | part f base ih =>
    obtain ⟨b, hb, -⟩ := bind_part_eq_ok.1 h
    exact ih hb

theorem bind_declare_root {name : String} (hfree : s.pathOf? name = none) (p : Path) :
    (s.declare name p).2.bind (.root name) = .ok p := by
  rw [bind_root_eq_ok, pathOf?_declare hfree, if_pos rfl]

/-- A new variable makes no difference to expressions over the others. -/
theorem bind_declare {name : String} (hfree : s.pathOf? name = none) (p : Path) {e : Expr}
    (he : e.rootName ≠ name) : (s.declare name p).2.bind e = s.bind e := by
  induction e with
  | root n =>
    have hne : n ≠ name := he
    simp only [bind, pathOf?_declare hfree, if_neg hne]
  | member base n ih | treat base target ih =>
    simp only [bind, ih he]
    rfl
  | part f base ih => simp only [bind, ih he]

end Bind

/-! ## Joins of a scope -/

/-- A variable that is not bound is none of a join, and the expansion of a variable leads to the
path of the variable. -/
structure Expands (s : Scope) (joins : List (String × Expr)) : Prop where
  unbound : ∀ n, s.pathOf? n = none → joins.lookup n = none
  expands : ∀ n, ∃ e, Runs (Expr.expand joins) (.root n) e ∧
    Alike Path.Unjoins (s.bind (.root n)) (s.bind e)

namespace Expands

variable {s s' : Scope} {joins : List (String × Expr)}

theorem empty (r : Registry) : Expands { registry := r } [] where
  unbound _ _ := rfl
  expands n := ⟨.root n, .done rfl, .error⟩

/-- So does the expansion of any expression. -/
theorem exists_runs (h : s.Expands joins) (e : Expr) :
    ∃ e', Runs (Expr.expand joins) e e' ∧ Alike Path.Unjoins (s.bind e) (s.bind e') := by
  obtain ⟨d, hruns, halike⟩ := h.expands e.rootName
  have hroot := Expr.runs_expand_withRoot hruns e
  rw [Expr.withRoot_root] at hroot
  exact ⟨e.withRoot d, hroot, alike_bind_withRoot halike⟩

/-- An expansion does not end with a new variable, unless it began there. -/
theorem rootName_ne (h : s.Expands joins) {n name : String} (hfree : s.pathOf? name = none)
    (hn : n ≠ name) {e : Expr} (hruns : Runs (Expr.expand joins) (.root n) e)
    (halike : Alike Path.Unjoins (s.bind (.root n)) (s.bind e)) : e.rootName ≠ name := by
  cases hp : s.pathOf? n with
  | none =>
    obtain rfl := hruns.unique (.done (Expr.expand_eq_inl.2 ⟨h.unbound n hp, rfl⟩))
    exact hn
  | some p =>
    obtain ⟨q, hq, -⟩ := halike.exists_ok (bind_root_eq_ok.2 hp)
    rintro rfl
    exact pathOf?_of_bind hq hfree

/-- What a declaration declares is expanded to the expression that it joins, if it joins one, and
to its variable otherwise. -/
theorem exists_runs_declared (h : s.Expands joins) {d : Declaration} {p : Path}
    (hfree : s.pathOf? d.name = none) (hd : d.Makes s p) :
    ∃ e, Runs (Expr.expand (joins ++ d.joined?.toList)) (.root d.name) e ∧
      (s.declare d.name p).2.bind e = .ok p.unjoined := by
  have hnew := h.unbound d.name hfree
  have hbind := bind_declare_root hfree p
  cases hd with
  | root hp =>
    obtain ⟨x, -, rfl⟩ := Path.ofEntity_eq_ok hp
    rw [Declaration.joined?, Option.toList_none, List.append_nil]
    exact ⟨_, .done (Expr.expand_eq_inl.2 ⟨hnew, rfl⟩), hbind⟩
  | cte =>
    rw [Declaration.joined?, Option.toList_none, List.append_nil]
    exact ⟨_, .done (Expr.expand_eq_inl.2 ⟨hnew, rfl⟩), hbind⟩
  | @join expression n e b member p hread hb hp =>
    obtain ⟨e', hruns, halike⟩ := h.exists_runs e
    obtain ⟨_, he', rfl⟩ := halike.exists_ok hb
    obtain ⟨_, hq, rfl⟩ := (b.step_unjoined s.registry member (some n)).exists_ok hp
    have hne : e'.rootName ≠ n := by
      rintro rfl
      exact pathOf?_of_bind he' hfree
    have hjoined : (Declaration.join expression n).joined? = some (n, e.member member) := by
      simp [Declaration.joined?, hread, Except.toOption]
    have hlookup : (joins ++ [(n, e.member member)]).lookup n = some (e.member member) := by
      rw [List.lookup_append, show joins.lookup n = none from hnew]
      simp
    rw [hjoined]
    refine ⟨e'.member member, .more (Expr.expand_eq_inr.2 ⟨_, hlookup, rfl⟩) ?_, ?_⟩
    · -- What was joined goes on to be expanded as before, as that ends with an older variable.
      have hlater : [(n, e.member member)].lookup e'.rootName = none := by
        simp [List.lookup_cons, beq_eq_false_iff_ne.2 hne]
      exact Expr.runs_expand_withRoot (Expr.runs_expand_append hruns hlater)
        (.member (.root n) member)
    · exact (bind_declare hfree p (e := e'.member member) hne).trans
        (bind_member_eq_ok.2 ⟨_, he', hq⟩)

/-- Each declaration adds its join, if it is one. -/
theorem apply (h : s.Expands joins) {d : Declaration} {p : Path}
    (happly : d.apply s = .ok (p, s')) :
    s'.Expands (joins ++ d.joined?.toList) := by
  obtain ⟨hfree, rfl, hd⟩ := apply_eq_ok happly
  refine ⟨fun n hn => ?_, fun n => ?_⟩
  · rw [pathOf?_declare hfree] at hn
    split at hn
    · cases hn
    · rename_i hne
      rw [List.lookup_append, Declaration.lookup_joined? hne, Option.or_none]
      exact h.unbound n hn
  · by_cases hn : n = d.name
    · subst hn
      obtain ⟨e, hruns, he⟩ := h.exists_runs_declared hfree hd
      exact ⟨e, hruns, by rw [bind_declare_root hfree, he]; exact .ok rfl⟩
    · obtain ⟨e, hruns, halike⟩ := h.expands n
      have hne := h.rootName_ne hfree hn hruns halike
      refine ⟨e, Expr.runs_expand_append hruns (Declaration.lookup_joined? hne), ?_⟩
      rwa [bind_declare hfree p (e := .root n) hn, bind_declare hfree p hne]

theorem run (h : s.Expands joins) (ds : List Declaration) :
    (s.run ds).Expands (joins ++ s.joins ds) := by
  induction ds generalizing s joins with
  | nil => rwa [Scope.joins, List.append_nil]
  | cons d ds ih =>
    have hrun : s.run (d :: ds) = (s.next d).run ds := rfl
    rw [hrun, next, Scope.joins]
    cases happly : d.apply s with
    | error e => exact ih h
    | ok x =>
      obtain ⟨p, s'⟩ := x
      rw [← List.append_assoc]
      exact ih (h.apply happly)

end Expands

end Scope

/-- The first path takes the steps of the second, node by node and from the same sources, without
the variables of joins. It has the same part where no path has a table group, however far
resolution goes. -/
structure Path.TakesStepsOf (q p : Path) : Prop where
  nodes : q :: q.bases = (p :: p.bases).map unjoined
  length : q.nodes = p.nodes
  sources : (q :: q.bases).map source? = (p :: p.bases).map source?
  resolve? : ∀ r : Resolver, r.groupPart? = Resolver.noGroups → r.resolve? q = r.resolve? p

theorem Path.takesStepsOf_unjoined (p : Path) : p.unjoined.TakesStepsOf p where
  nodes := by rw [bases_unjoined, List.map_cons]
  length := p.nodes_unjoined
  sources := by
    rw [bases_unjoined, ← List.map_cons, List.map_map]
    exact List.map_congr_left fun x _ => x.source?_unjoined
  resolve? r h := Resolver.resolveAt_unjoined h p 0

/-- The variables of joins abbreviate what was joined. Expanding them comes to an end, with one
expression, which is bound if and only if the expression is, and then to a path of the same steps. -/
theorem Scope.joins_abbreviate (r : Registry) (ds : List Declaration) (e : Expr) :
    ∃ e', (∀ x, Runs (Expr.expand (joins { registry := r } ds)) e x ↔ x = e') ∧
      Alike (fun p q => q.TakesStepsOf p)
        ((run { registry := r } ds).bind e) ((run { registry := r } ds).bind e') := by
  obtain ⟨e', hruns, halike⟩ := ((Expands.empty r).run ds).exists_runs e
  refine ⟨e', fun x => hruns.iff, halike.mono fun p q _ _ hq => ?_⟩
  cases hq
  exact p.takesStepsOf_unjoined

namespace Catalog

/-- The variables of `from Auction a join a.bids b join treat(element(b) as Bid).price p`. -/
def stackedJoins : List Declaration :=
  [.root "Auction" "a", .join "a.bids" "b", .join "treat(element(b) as Bid).price" "p"]

set_option maxRecDepth 100000 in
/-- With `p` and then `b` expanded, `p.amount` is the amount of a bid, written out. -/
theorem joins_abbreviate_amountOfBid : ∃ c p q part, ofDefinition auctionHouse = .ok c ∧
    Runs (Expr.expand (Scope.joins { registry := c.registry } stackedJoins))
      (.member (.root "p") "amount") Scope.amountOfBid ∧
    (Scope.run { registry := c.registry } stackedJoins).bind (.member (.root "p") "amount") = .ok p ∧
    (Scope.run { registry := c.registry } stackedJoins).bind Scope.amountOfBid = .ok q ∧
    p ≠ q ∧ q.TakesStepsOf p ∧
    Resolver.resolve? ⟨c.metamodel, Resolver.noGroups, 6, false⟩ p = some part := by
  let joined : List (String × Expr) := [("b", .member (.root "a") "bids"),
    ("p", .member (.treat (.part .element (.root "b")) "Bid") "price")]
  let P := fun c : Catalog =>
    decide (Scope.joins { registry := c.registry } stackedJoins = joined) &&
      ((Scope.run { registry := c.registry } stackedJoins).bind
        (.member (.root "p") "amount")).toOption.any fun p =>
          decide (p ≠ p.unjoined) &&
            (Resolver.resolve? ⟨c.metamodel, Resolver.noGroups, 6, false⟩ p).isSome
  obtain ⟨c, hc, hP⟩ : ∃ c, ofDefinition auctionHouse = .ok c ∧ P c = true :=
    exists_ok_of_any (by decide +kernel)
  rw [Bool.and_eq_true, decide_eq_true_eq] at hP
  obtain ⟨hjoins, hP⟩ := hP
  obtain ⟨p, hp, hP⟩ := exists_ok_of_any hP
  rw [Bool.and_eq_true, decide_eq_true_eq] at hP
  obtain ⟨part, hpart⟩ := Option.isSome_iff_exists.1 hP.2
  have hruns : Runs (Expr.expand (Scope.joins { registry := c.registry } stackedJoins))
      (.member (.root "p") "amount") Scope.amountOfBid := by
    rw [hjoins]
    exact .more rfl (.more rfl (.done rfl))
  obtain ⟨e', hiff, halike⟩ :=
    Scope.joins_abbreviate c.registry stackedJoins (.member (.root "p") "amount")
  obtain rfl := (hiff _).1 hruns
  obtain ⟨q, hq, hsteps⟩ := halike.exists_ok hp
  refine ⟨c, p, q, part, hc, hruns, hp, hq, ?_, hsteps, hpart⟩
  rw [(List.cons.inj hsteps.nodes).1]
  exact hP.1

end Catalog

end QueryPath
