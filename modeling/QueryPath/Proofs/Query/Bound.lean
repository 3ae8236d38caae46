import QueryPath.Proofs.Catalog.Acceptance
import QueryPath.Proofs.Query.Depth
import QueryPath.Proofs.Query.Scope

/-!
# Resolution under different bounds

The bound of a resolver withholds parts and changes none. What waits for the part of another path
finds nothing if that part is withheld, and goes on with the same part if it is not; so a part that
one resolver finds is found by all that resolve against the same and go at least as far
(`Resolver.Within`, `resolveAt_mono`). From the number of nodes of a path on, nothing is withheld.
-/

namespace QueryPath

open Physical (Part)

namespace Resolver

/-- The second resolver resolves against the same as the first and goes at least as far. -/
structure Within (r r' : Resolver) : Prop where
  metamodel : r.metamodel = r'.metamodel
  groupPart? : r.groupPart? = r'.groupPart?
  maxDepth : r.maxDepth ≤ r'.maxDepth

section Within

variable {r r' : Resolver} (h : r.Within r')

include h

theorem Within.not_le {depth : Nat} (hdepth : ¬ r.maxDepth ≤ depth) : ¬ r'.maxDepth ≤ depth := by
  have hmax := h.maxDepth
  omega

theorem Within.container?_eq : r.container? = r'.container? := by
  funext base resolved
  rw [container?, container?, h.groupPart?]

theorem Within.member?_eq : r.member? = r'.member? := by
  funext base name resolved
  rw [member?, member?, h.metamodel, h.container?_eq]

theorem Within.collapse?_eq : r.collapse? = r'.collapse? := by
  funext part
  cases part <;> simp only [collapse?, h.metamodel]

/-- Resolution without a bound is the same for both. -/
theorem Within.unbounded?_eq (p : Path) : r.unbounded? p = r'.unbounded? p := by
  fun_induction unbounded? r p with
  | case1 s v => rw [unbounded?, h.metamodel]
  | case2 t v => rfl
  | case3 base target entity htarget =>
    rw [unbounded?]
    simp only [htarget, h.metamodel]
  | case4 base target htarget ih =>
    rw [unbounded?]
    simp only [htarget, ih, h.member?_eq]
  | case5 base column v ih => rw [unbounded?, ih, h.member?_eq]
  | case6 base source plural v ih => rw [unbounded?, ih, h.member?_eq]
  | case7 base source plural v nature x ih =>
    rw [unbounded?, ih, h.container?_eq, h.metamodel, h.collapse?_eq]
  | case8 base nature x hmember =>
    rw [unbounded?]
    exact hmember

end Within

section Mono

variable {r r' : Resolver} {base : Path} {resolved resolved' : Unit → Option Part} {part : Part}

theorem container?_mono (hpart : r.container? base resolved = some part)
    (h : ∀ part, resolved () = some part → resolved' () = some part) :
    r.container? base resolved' = some part := by
  unfold container? at hpart ⊢
  cases hg : r.groupPart? base.navigable with
  | some x =>
    rw [hg] at hpart
    exact hpart
  | none =>
    rw [hg] at hpart
    exact h part hpart

theorem member?_mono {name : String} (hpart : r.member? base name resolved = some part)
    (h : ∀ part, resolved () = some part → resolved' () = some part) :
    r.member? base name resolved' = some part := by
  unfold member? at hpart ⊢
  cases ht : base.treatEntity? with
  | some entity =>
    rw [ht] at hpart
    exact hpart
  | none =>
    rw [ht] at hpart
    obtain ⟨owner, howner, hpart⟩ := Option.bind_eq_some_iff.1 hpart
    exact Option.bind_eq_some_iff.2 ⟨owner, container?_mono howner h, hpart⟩

/-- A part that a resolver finds is found by each that goes at least as far. -/
theorem resolveAt_mono (within : r.Within r') {p : Path} {depth : Nat}
    (h : r.resolveAt p depth = some part) : r'.resolveAt p depth = some part := by
  fun_induction resolveAt r p depth generalizing part with
  | case1 p depth hdepth => cases h
  | case2 depth hdepth s v =>
    rwa [resolveAt, if_neg (within.not_le hdepth), ← within.metamodel]
  | case3 depth hdepth t v => cases h
  | case4 depth hdepth base target entity htarget =>
    rw [resolveAt, if_neg (within.not_le hdepth)]
    simp only [htarget]
    rwa [← within.metamodel]
  | case5 depth hdepth base target htarget ih =>
    rw [resolveAt, if_neg (within.not_le hdepth)]
    simp only [htarget]
    rw [← within.member?_eq]
    exact member?_mono h fun _ => ih
  | case6 depth hdepth base column v ih | case7 depth hdepth base column plural v ih =>
    rw [resolveAt, if_neg (within.not_le hdepth), ← within.member?_eq]
    exact member?_mono h fun _ => ih
  | case8 depth hdepth base source plural v nature x ih =>
    rw [resolveAt, if_neg (within.not_le hdepth), ← within.container?_eq, ← within.metamodel,
      ← within.collapse?_eq]
    obtain ⟨owner, howner, h⟩ := Option.bind_eq_some_iff.1 h
    exact Option.bind_eq_some_iff.2 ⟨owner, container?_mono howner fun _ => ih, h⟩
  | case9 depth hdepth base nature x hmember => cases h

end Mono

/-! ## Other bounds -/

/-- The same resolver with another bound. -/
def bounded (r : Resolver) (maxDepth : Nat) : Resolver := { r with maxDepth }

theorem bounded_within (r : Resolver) {d d' : Nat} (h : d ≤ d') :
    (r.bounded d).Within (r.bounded d') := ⟨rfl, rfl, h⟩

/-- From the number of nodes on, a path has the part that it has without a bound. -/
theorem resolve?_bounded_eq (r : Resolver) {p : Path} {d : Nat} (hd : p.nodes ≤ d) :
    (r.bounded d).resolve? p = r.unbounded? p := by
  have within : r.Within (r.bounded (max r.maxDepth d)) := ⟨rfl, rfl, Nat.le_max_left _ _⟩
  have within' := r.bounded_within (Nat.le_max_right r.maxDepth d)
  rw [resolve?_eq_unbounded? hd, within'.unbounded?_eq, within.unbounded?_eq]

/-- A part of a path under some bound is the part without a bound. -/
theorem unbounded?_of_resolveAt {r : Resolver} {p : Path} {depth : Nat} {part : Part}
    (h : r.resolveAt p depth = some part) : r.unbounded? p = some part := by
  have within : r.Within (r.bounded (max r.maxDepth (p.span + depth))) :=
    ⟨rfl, rfl, Nat.le_max_left _ _⟩
  rw [within.unbounded?_eq, ← resolveAt_eq_unbounded? _ p depth (Nat.le_max_right _ _)]
  exact resolveAt_mono within h

/-- The bound withholds parts and changes none: whatever the table groups are, a larger bound leaves
each part as it is, and under all bounds from the number of nodes on a path has the part that it
has without a bound. -/
theorem resolve?_bounded (r : Resolver) (p : Path) :
    (∀ d d' part, d ≤ d' → (r.bounded d).resolve? p = some part →
      (r.bounded d').resolve? p = some part) ∧
    ∀ d, p.nodes ≤ d → (r.bounded d).resolve? p = r.unbounded? p :=
  ⟨fun _ _ _ hd h => resolveAt_mono (r.bounded_within hd) h, fun _ hd => r.resolve?_bounded_eq hd⟩

end Resolver

set_option maxRecDepth 100000 in
/-- The amount of a reserve lies three nodes deep, and two do not suffice. -/
theorem Catalog.resolve?_bounded_reserve : ∃ c p r part, ofDefinition auctionHouse = .ok c ∧
    (Scope.run { registry := c.registry } Scope.auctionVariables).bind
      (.member (.member (.root "a") "reserve") "amount") = .ok p ∧
    r = Resolver.mk c.metamodel Resolver.noGroups 64 false ∧ p.nodes = 3 ∧
    (r.bounded 2).resolve? p = none ∧ (r.bounded 3).resolve? p = some part ∧
    (r.bounded 64).resolve? p = some part ∧ r.unbounded? p = some part := by
  let P := fun c : Catalog =>
    ((Scope.run { registry := c.registry } Scope.auctionVariables).bind
      (.member (.member (.root "a") "reserve") "amount")).toOption.any fun p =>
        let r := Resolver.mk c.metamodel Resolver.noGroups 64 false
        decide (p.nodes = 3) && ((r.bounded 2).resolve? p).isNone &&
          ((r.bounded 3).resolve? p).isSome
  obtain ⟨c, hc, hP⟩ : ∃ c, ofDefinition auctionHouse = .ok c ∧ P c = true :=
    exists_ok_of_any (by decide +kernel)
  obtain ⟨p, hp, hP⟩ := exists_ok_of_any hP
  simp only [Bool.and_eq_true, decide_eq_true_eq, Option.isNone_iff_eq_none] at hP
  obtain ⟨⟨hnodes, hnone⟩, hsome⟩ := hP
  obtain ⟨part, hpart⟩ := Option.isSome_iff_exists.1 hsome
  obtain ⟨hmono, hlarge⟩ := Resolver.resolve?_bounded ⟨c.metamodel, Resolver.noGroups, 64, false⟩ p
  refine ⟨c, p, _, part, hc, hp, rfl, hnodes, hnone, hpart, hmono 3 64 part (by decide) hpart, ?_⟩
  rw [← hlarge 3 (Nat.le_of_eq hnodes), hpart]

end QueryPath
