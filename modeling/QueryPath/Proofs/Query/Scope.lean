import QueryPath.Proofs.Outcome
import QueryPath.Proofs.Path.Over
import QueryPath.Query.Scope

/-!
# The variables of a query

A query declares its variables one after the other (`Scope.run`); a declaration that fails leaves
the scope as it is. So each variable is bound to a path over the registry that carries its name,
and all variables within that path are bound as well (`Scope.Sound`). Whatever is reached from
there by steps is such a path, too (`Reaches.known`).
-/

namespace QueryPath

/-- The part of a collection that the function names. -/
def PartFunction.nature : PartFunction → PartNature
  | element | value => .element
  | index | key => .index

/-- What a query says to declare a variable. -/
inductive Declaration where
  | root (entity name : String)
  | cte (table : Cte) (name : String)
  | join (expression name : String)
deriving DecidableEq, Repr

namespace Declaration

/-- The variable. -/
def name : Declaration → String
  | root _ n | cte _ n | join _ n => n

def apply (s : Scope) : Declaration → Except BindError (Path × Scope)
  | root entity n => s.addRoot entity n
  | cte table n => s.addCte table n
  | join expression n => s.addJoin expression n

/-- The path that a declaration makes: a root, or a step from a path of the scope. -/
inductive Makes (s : Scope) : Declaration → Path → Prop
  | root {entity n p} : Path.ofEntity s.registry entity (some n) = .ok p →
      Makes s (.root entity n) p
  | cte {table n} : Makes s (.cte table n) (.cteRoot table (some n))
  | join {expression n e b member p} : Expr.read expression = .ok (.member e member) →
      s.bind e = .ok b → b.step s.registry member (some n) = .ok p →
      Makes s (.join expression n) p

end Declaration

namespace Scope

/-- The scope behind a declaration, which is the same if the declaration fails. -/
def next (s : Scope) (d : Declaration) : Scope :=
  match d.apply s with
  | .ok (_, s') => s'
  | .error _ => s

/-- The scope behind some declarations. -/
def run (s : Scope) (ds : List Declaration) : Scope := ds.foldl next s

/-- What holds at first and behind each declaration holds behind all of them. -/
theorem run_induction {P : Scope → Prop} {ds : List Declaration} {s : Scope} (h : P s)
    (step : ∀ s, ∀ d ∈ ds, ∀ p s', P s → d.apply s = .ok (p, s') → P s') : P (s.run ds) := by
  induction ds generalizing s with
  | nil => exact h
  | cons d ds ih =>
    refine ih ?_ fun s d hd => step s d (List.mem_cons_of_mem _ hd)
    unfold next
    split
    · rename_i p s' happly
      exact step s d List.mem_cons_self p s' h happly
    · exact h

/-! ## Declarations -/

section Declare

variable {s s' : Scope} {p : Path} {name : String}

theorem ofPath_eq_ok {α : Type} {x : Except PathError α} {a : α} :
    ofPath x = .ok a ↔ x = .ok a := by
  cases x <;> simp [ofPath]

theorem ofExpr_eq_ok {α : Type} {x : Except Expr.Error α} {a : α} :
    ofExpr x = .ok a ↔ x = .ok a := by
  cases x <;> simp [ofExpr]

theorem checkFree_eq_ok (h : s.checkFree name = .ok ()) : s.pathOf? name = none := by
  unfold checkFree at h
  split at h
  · cases h
  · assumption

/-- A declaration binds a new variable to the path that it makes. -/
theorem apply_eq_ok {d : Declaration} (h : d.apply s = .ok (p, s')) :
    s.pathOf? d.name = none ∧ s' = (s.declare d.name p).2 ∧ d.Makes s p := by
  cases d with
  | root entity n =>
    obtain ⟨_, hfree, h⟩ := bind_eq_ok.1 h
    obtain ⟨q, hq, h⟩ := bind_eq_ok.1 h
    cases h
    exact ⟨checkFree_eq_ok hfree, rfl, .root (ofPath_eq_ok.1 hq)⟩
  | cte table n =>
    obtain ⟨_, hfree, h⟩ := bind_eq_ok.1 h
    cases h
    exact ⟨checkFree_eq_ok hfree, rfl, .cte⟩
  | join expression n =>
    obtain ⟨_, hfree, h⟩ := bind_eq_ok.1 h
    obtain ⟨e, he, h⟩ := bind_eq_ok.1 h
    refine ⟨checkFree_eq_ok hfree, ?_⟩
    split at h
    · obtain ⟨b, hb, h⟩ := bind_eq_ok.1 h
      obtain ⟨q, hq, h⟩ := bind_eq_ok.1 h
      cases h
      exact ⟨rfl, .join (ofExpr_eq_ok.1 he) hb (ofPath_eq_ok.1 hq)⟩
    · cases h

/-- A new variable is found, and all others are found as before. -/
theorem pathOf?_declare (hfree : s.pathOf? name = none) (n : String) :
    (s.declare name p).2.pathOf? n = if n = name then some p else s.pathOf? n := by
  unfold pathOf? declare at *
  rw [List.lookup_append, List.lookup_cons, List.lookup_nil]
  by_cases hn : n = name
  · subst hn
    rw [hfree, if_pos rfl, beq_self_eq_true]
    rfl
  · rw [if_neg hn, beq_eq_false_iff_ne.2 hn]
    exact Option.or_none

end Declare

/-! ## Paths of a scope -/

/-- Paths that come from the variables by steps. -/
inductive Reaches (s : Scope) : Path → Prop
  | bound {name p} : s.pathOf? name = some p → Reaches s p
  | get {p name q} : Reaches s p → p.get s.registry name = .ok q → Reaches s q
  | treat {p name q} : Reaches s p → p.treatAs s.registry name = .ok q → Reaches s q
  | part {p q} : Reaches s p → Path.PartOf p q → Reaches s q

section Bind

variable {s : Scope} {base : Expr} {p : Path}

theorem bind_root_eq_ok {n : String} : s.bind (.root n) = .ok p ↔ s.pathOf? n = some p := by
  unfold bind
  cases s.pathOf? n <;> simp

theorem bind_member_eq_ok {n : String} : s.bind (.member base n) = .ok p ↔
    ∃ b, s.bind base = .ok b ∧ b.get s.registry n = .ok p := by
  simp only [bind, bind_eq_ok, ofPath_eq_ok]

theorem bind_treat_eq_ok {target : String} : s.bind (.treat base target) = .ok p ↔
    ∃ b, s.bind base = .ok b ∧ b.treatAs s.registry target = .ok p := by
  simp only [bind, bind_eq_ok, ofPath_eq_ok]

theorem bind_part_eq_ok {f : PartFunction} : s.bind (.part f base) = .ok p ↔
    ∃ b, s.bind base = .ok b ∧ applyPart f b = .ok p := by
  simp only [bind, bind_eq_ok, ofPath_eq_ok]

end Bind

theorem applyPart_eq_ok {f : PartFunction} {p q : Path} : applyPart f p = .ok q ↔
    ∃ plural x, p.plural = .ok plural ∧ plural.part? f.nature = some x ∧
      q = .part p f.nature x := by
  cases f with
  | element | value =>
    refine Path.element_eq_ok.trans (exists_congr fun plural => ?_)
    simp [PartFunction.nature, Logical.PluralSource.part?]
  | index | key => exact Path.index_eq_ok

theorem partOf_of_applyPart {f : PartFunction} {p q : Path} (h : applyPart f p = .ok q) :
    Path.PartOf p q := by
  obtain ⟨plural, x, hplural, hx, rfl⟩ := applyPart_eq_ok.1 h
  exact Path.partOf_of_plural hplural hx

/-- Expressions stand for such paths. -/
theorem reaches_of_bind {s : Scope} {e : Expr} {p : Path} (h : s.bind e = .ok p) :
    s.Reaches p := by
  induction e generalizing p with
  | root name => exact .bound (bind_root_eq_ok.1 h)
  | member base name ih =>
    obtain ⟨b, hb, h⟩ := bind_member_eq_ok.1 h
    exact .get (ih hb) h
  | treat base target ih =>
    obtain ⟨b, hb, h⟩ := bind_treat_eq_ok.1 h
    exact .treat (ih hb) h
  | part f base ih =>
    obtain ⟨b, hb, h⟩ := bind_part_eq_ok.1 h
    exact .part (ih hb) (partOf_of_applyPart h)

/-- The path is over the registry, its root has a variable, and each variable within the path is
bound to the path up to there. -/
structure Known (s : Scope) (p : Path) : Prop where
  isOver : p.Over s.registry
  root : ∀ q ∈ p :: p.bases, q.base? = none → q.aliasName?.isSome
  bound : ∀ q ∈ p :: p.bases, ∀ n, q.aliasName? = some n → s.pathOf? n = some q

/-- Variables are bound to known paths that carry their names. -/
structure Sound (s : Scope) : Prop where
  aliasName : ∀ n p, s.pathOf? n = some p → p.aliasName? = some n
  known : ∀ n p, s.pathOf? n = some p → s.Known p

namespace Known

variable {s : Scope} {p q b : Path}

theorem base (hp : s.Known p) (hb : p.base? = some b) : s.Known b where
  isOver := hp.isOver.base hb
  root q hq := hp.root q (List.mem_cons_of_mem _ ((Path.mem_bases hb).2 (List.mem_cons.1 hq)))
  bound q hq := hp.bound q (List.mem_cons_of_mem _ ((Path.mem_bases hb).2 (List.mem_cons.1 hq)))

theorem of_mem_bases (hp : s.Known p) (hq : q ∈ p.bases) : s.Known q := by
  induction p with
  | root x v => cases hq
  | cteRoot t v => cases hq
  | cteColumn b c v ih | member b x pl v ih | treat b x ih | part b n x ih =>
    rcases List.mem_cons.1 hq with rfl | hq
    · exact hp.base rfl
    · exact ih (hp.base rfl) hq

/-- A step from a known path, under a variable that is bound to it if under any. -/
theorem extend (hb : s.Known b) (isOver : q.Over s.registry) (hbase : q.base? = some b)
    (bound : ∀ n, q.aliasName? = some n → s.pathOf? n = some q) : s.Known q where
  isOver := isOver
  root x hx hnone := by
    rcases List.mem_cons.1 hx with rfl | hx
    · rw [hbase] at hnone
      cases hnone
    · exact hb.root x (List.mem_cons.2 ((Path.mem_bases hbase).1 hx)) hnone
  bound x hx := by
    rcases List.mem_cons.1 hx with rfl | hx
    · exact bound
    · exact hb.bound x (List.mem_cons.2 ((Path.mem_bases hbase).1 hx))

/-- A root under a variable that is bound to it. -/
theorem of_root (isOver : p.Over s.registry) (hbase : p.bases = []) {n : String}
    (hn : p.aliasName? = some n) (bound : s.pathOf? n = some p) : s.Known p where
  isOver := isOver
  root x hx _ := by
    rw [hbase, List.mem_singleton] at hx
    simp [hx, hn]
  bound x hx m hm := by
    rw [hbase, List.mem_singleton] at hx
    rw [hx, hn, Option.some.injEq] at hm
    rw [hx, ← hm, bound]

/-- Paths stay known when a variable is added. -/
theorem declare (hp : s.Known p) {name : String} (hfree : s.pathOf? name = none) (q : Path) :
    (s.declare name q).2.Known p where
  isOver := hp.isOver
  root := hp.root
  bound x hx n hn := by
    have hbound := hp.bound x hx n hn
    rw [pathOf?_declare hfree, if_neg, hbound]
    rintro rfl
    rw [hfree] at hbound
    cases hbound

end Known

theorem Reaches.known {s : Scope} (sound : s.Sound) {p : Path} (h : s.Reaches p) : s.Known p := by
  induction h with
  | bound hp => exact sound.known _ _ hp
  | get _ hq ih =>
    rcases Path.step_eq_ok hq with ⟨t, u, c, rfl, hc, rfl⟩ | ⟨x, y, -, -, -, rfl⟩
    · exact ih.extend (ih.isOver.step hq) rfl fun n hn => by cases hn
    · exact ih.extend (ih.isOver.step hq) rfl fun n hn => by cases hn
  | treat _ hq ih =>
    obtain ⟨t, ht, rfl⟩ := Path.treatAs_eq_ok hq
    exact ih.extend (ih.isOver.treatAs hq) rfl fun n hn => by cases hn
  | part _ hq ih =>
    cases hq with
    | intro hx => exact ih.extend (ih.isOver.partOf (.intro hx)) rfl fun n hn => by cases hn

/-! ## Soundness -/

section Sound

variable {s s' : Scope} {p : Path}

/-- A path that carries a new variable and is known once that variable is bound. -/
theorem Sound.declare (sound : s.Sound) {name : String} (hfree : s.pathOf? name = none)
    (hname : p.aliasName? = some name) (hp : (s.declare name p).2.Known p) :
    (s.declare name p).2.Sound where
  aliasName n q hq := by
    rw [pathOf?_declare hfree] at hq
    split at hq
    · rename_i hn
      cases hq
      rw [hn, hname]
    · exact sound.aliasName n q hq
  known n q hq := by
    rw [pathOf?_declare hfree] at hq
    split at hq
    · cases hq
      exact hp
    · exact (sound.known n q hq).declare hfree p

/-- Each declaration keeps the scope sound. -/
theorem Sound.apply (sound : s.Sound) {d : Declaration} (h : d.apply s = .ok (p, s')) :
    s'.Sound := by
  obtain ⟨hfree, rfl, hd⟩ := apply_eq_ok h
  have hbound : (s.declare d.name p).2.pathOf? d.name = some p := by
    rw [pathOf?_declare hfree, if_pos rfl]
  cases hd with
  | root hp =>
    obtain ⟨x, hx, rfl⟩ := Path.ofEntity_eq_ok hp
    exact sound.declare hfree rfl (.of_root (.root hx) rfl rfl hbound)
  | cte => exact sound.declare hfree rfl (.of_root .cteRoot rfl rfl hbound)
  | join _ hb hp =>
    have known := (reaches_of_bind hb).known sound
    have isOver := known.isOver.step hp
    rcases Path.step_eq_ok hp with ⟨t, u, c, rfl, hc, rfl⟩ | ⟨x, y, -, -, -, rfl⟩
    · refine sound.declare hfree rfl ((known.declare hfree _).extend isOver rfl fun m hm => ?_)
      cases hm
      exact hbound
    · refine sound.declare hfree rfl ((known.declare hfree _).extend isOver rfl fun m hm => ?_)
      cases hm
      exact hbound

theorem registry_run (s : Scope) (ds : List Declaration) : (s.run ds).registry = s.registry := by
  apply run_induction (P := fun s' => s'.registry = s.registry) rfl
  intro s₁ d _ p s₂ h₁ h₂
  obtain ⟨-, rfl, -⟩ := apply_eq_ok h₂
  exact h₁

/-- All scopes of queries are sound. -/
theorem sound_run (r : Logical.Registry) (ds : List Declaration) :
    (run { registry := r } ds).Sound := by
  refine run_induction (P := Sound) ?_ fun s d _ p s' sound happly => sound.apply happly
  constructor <;>
    · intro n p h
      cases h

end Sound

/-! ## A query of an auction house -/

/-- The variables of `from Auction a join a.bids b, totals t`. -/
def auctionVariables : List Declaration :=
  [.root "Auction" "a", .join "a.bids" "b", .cte ⟨"totals", [⟨"amount", .decimal⟩]⟩ "t"]

/-- The expression `treat(element(a.bids) as Bid).price.amount`. -/
def amountOfBid : Expr :=
  .member (.member (.treat (.part .element (.member (.root "a") "bids")) "Bid") "price") "amount"

end Scope

end QueryPath
