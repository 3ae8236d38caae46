import QueryPath.Proofs.Path.Bases
import QueryPath.Proofs.Physical.Lineage
import QueryPath.Query.Resolution

/-!
# Resolution without a bound

`Resolver.unbounded?` resolves a path by recursion on the path alone. A resolver whose bound is not
less than the number of nodes of a path gives the same part (`resolve?_eq_unbounded?`), and so does
one whose bound is not less than the span of the path, as resolution goes no further than that
(`resolveAt_eq_unbounded?`).

Where no path has a table group, each step looks a name up on the part of the path before it
(`plain?_member`, `plain?_part`): an entity that a path is narrowed to is then no different from any
other container. Groups that have the parts of their paths change nothing (`unbounded?_eq_plain?`).
-/

namespace QueryPath.Resolver

open Physical (Metamodel Part)

/-- The part of a path, however long it is. -/
def unbounded? (r : Resolver) : Path → Option Part
  | .root s _ => (s.entity?.bind r.metamodel.entity?).map .entity
  | .cteRoot _ _ => none
  | .treat base target =>
      match target.entity? with
      | some entity => (r.metamodel.entity? entity).map .entity
      | none => r.member? base target.name fun _ => r.unbounded? base
  | .cteColumn base column _ => r.member? base column.name fun _ => r.unbounded? base
  | .member base source _ _ => r.member? base source.name fun _ => r.unbounded? base
  | .part (.member base source _ _) nature _ => do
      let owner ← r.container? base fun _ => r.unbounded? base
      let plural ← r.metamodel.subPart? owner source.name none
      r.collapse? (← r.metamodel.subPart? plural nature.name none)
  | .part _ _ _ => none

private theorem not_le_depth {r : Resolver} {p : Path} {depth : Nat}
    (h : p.span + depth ≤ r.maxDepth) : ¬ r.maxDepth ≤ depth := by
  have hpos := p.span_pos
  omega

private theorem base_le {r : Resolver} {p base : Path} {depth : Nat}
    (h : p.span + depth ≤ r.maxDepth) (hp : p.span = base.span + 1) :
    base.span + (depth + 1) ≤ r.maxDepth := by
  omega

/-- The bound makes no difference to paths with no longer a span. -/
theorem resolveAt_eq_unbounded? (r : Resolver) (p : Path) (depth : Nat)
    (h : p.span + depth ≤ r.maxDepth) : r.resolveAt p depth = r.unbounded? p := by
  fun_induction unbounded? r p generalizing depth with
  | case1 s a => rw [resolveAt, if_neg (not_le_depth h)]
  | case2 t a => rw [resolveAt, if_neg (not_le_depth h)]
  | case3 base target entity htarget =>
    rw [resolveAt, if_neg (not_le_depth h)]
    simp only [htarget]
  | case4 base target htarget ih =>
    rw [resolveAt, if_neg (not_le_depth h)]
    simp only [htarget, ih (depth + 1) (base_le h (Path.span_treat htarget))]
  | case5 base column a ih =>
    rw [resolveAt, if_neg (not_le_depth h)]
    simp only [ih (depth + 1) (base_le h rfl)]
  | case6 base source pl a ih =>
    rw [resolveAt, if_neg (not_le_depth h)]
    simp only [ih (depth + 1) (base_le h rfl)]
  | case7 base source pl a nature x ih =>
    have hbase : base.span + (depth + 1) ≤ r.maxDepth := by
      simp only [Path.span] at h
      omega
    rw [resolveAt, if_neg (not_le_depth h)]
    simp only [ih (depth + 1) hbase]
  | case8 base nature x hmember =>
    rw [resolveAt, if_neg (not_le_depth h)]
    exact hmember

theorem resolve?_eq_unbounded? {r : Resolver} {p : Path} (h : p.nodes ≤ r.maxDepth) :
    r.resolve? p = r.unbounded? p :=
  r.resolveAt_eq_unbounded? p 0 (Nat.le_trans p.span_le_nodes h)

/-! ## Without table groups -/

/-- The part of a path where no path has a table group. -/
def plain? (m : Metamodel) (p : Path) : Option Part :=
  Resolver.unbounded? { metamodel := m, groupPart? := noGroups } p

/-- The part on which names are looked up behind a base. -/
def holder? (r : Resolver) (base : Path) (resolved : Unit → Option Part) : Option Part :=
  match base.treatEntity? with
  | some entity => (r.metamodel.entity? entity).map .entity
  | none => r.container? base resolved

theorem member?_eq_bind (r : Resolver) (base : Path) (name : String)
    (resolved : Unit → Option Part) : r.member? base name resolved =
      (r.holder? base resolved).bind (r.metamodel.subPart? · name none) := by
  unfold member? holder?
  cases base.treatEntity? with
  | none => rfl
  | some entity =>
    cases he : r.metamodel.entity? entity with
    | none => simp [he]
    | some t =>
      simp only [he, Option.map_some, Option.bind_some]
      exact Metamodel.entityPart?_self r.metamodel t name

theorem plain?_of_treatEntity? (m : Metamodel) {p : Path} {entity : String}
    (h : p.treatEntity? = some entity) : plain? m p = (m.entity? entity).map .entity := by
  cases p with
  | treat b target =>
    have htarget : target.entity? = some entity := h
    simp only [plain?, unbounded?, htarget]
  | root | cteRoot | cteColumn | member | part => cases h

/-- On a narrowed path a name is looked up on the entity that it is narrowed to, which is the part
of the path. -/
theorem member?_eq {r : Resolver} {base : Path} {name : String} {resolved : Unit → Option Part}
    (h : r.container? base resolved = plain? r.metamodel base) :
    r.member? base name resolved =
      (plain? r.metamodel base).bind (r.metamodel.subPart? · name none) := by
  rw [member?_eq_bind, holder?]
  cases ht : base.treatEntity? with
  | none => exact congrArg (Option.bind · _) h
  | some entity => rw [plain?_of_treatEntity? _ ht]

section Plain

variable (m : Metamodel)

@[simp] theorem plain?_root (s : Logical.Source) (a : Option String) :
    plain? m (.root s a) = (s.entity?.bind m.entity?).map .entity := rfl

theorem plain?_treat_entity {b : Path} {target : Logical.Source} {entity : String}
    (h : target.entity? = some entity) :
    plain? m (.treat b target) = (m.entity? entity).map .entity :=
  plain?_of_treatEntity? m (p := .treat b target) h

theorem plain?_treat {b : Path} {target : Logical.Source} (h : target.entity? = none) :
    plain? m (.treat b target) = (plain? m b).bind (m.subPart? · target.name none) := by
  rw [plain?, unbounded?, h]
  exact member?_eq rfl

@[simp] theorem plain?_cteColumn (b : Path) (column : CteColumn) (a : Option String) :
    plain? m (.cteColumn b column a) = (plain? m b).bind (m.subPart? · column.name none) :=
  member?_eq rfl

@[simp] theorem plain?_member (b : Path) (s : Logical.Source) (pl : Option Logical.PluralSource)
    (a : Option String) :
    plain? m (.member b s pl a) = (plain? m b).bind (m.subPart? · s.name none) :=
  member?_eq rfl

/-- A part of a collection is looked up on the part of the collection. -/
theorem plain?_part (r : Resolver) (hr : r.metamodel = m) (b : Path) (s : Logical.Source)
    (pl : Option Logical.PluralSource) (a : Option String) (nature : PartNature)
    (x : Logical.Source) : plain? m (.part (.member b s pl a) nature x) =
      (plain? m (.member b s pl a)).bind fun collection =>
        (m.subPart? collection nature.name none).bind r.collapse? := by
  subst hr
  rw [plain?_member, Option.bind_assoc]
  rfl

end Plain

/-! ## With table groups -/

/-- The groups of the paths before `p` have the parts of their paths. -/
def SoundBefore (r : Resolver) (p : Path) : Prop :=
  ∀ q ∈ p.bases, ∀ part, r.groupPart? q.navigable = some part →
    plain? r.metamodel q = some part

namespace SoundBefore

variable {r : Resolver} {p b : Path}

theorem of_noGroups (h : r.groupPart? = noGroups) : r.SoundBefore p := by
  intro q _ part hpart
  rw [h] at hpart
  cases hpart

theorem base (h : r.SoundBefore p) (hb : p.base? = some b) : r.SoundBefore b :=
  fun q hq => h q ((Path.mem_bases hb).2 (.inr hq))

theorem container?_eq (h : r.SoundBefore p) (hb : p.base? = some b)
    (ih : r.unbounded? b = plain? r.metamodel b) :
    r.container? b (fun _ => r.unbounded? b) = plain? r.metamodel b := by
  unfold container?
  cases hg : r.groupPart? b.navigable with
  | none => exact ih
  | some part => exact (h b ((Path.mem_bases hb).2 (.inl rfl)) part hg).symm

end SoundBefore

/-- Table groups with the parts of their paths make no difference. -/
theorem unbounded?_eq_plain? {r : Resolver} {p : Path} (h : r.SoundBefore p) :
    r.unbounded? p = plain? r.metamodel p := by
  fun_induction unbounded? r p with
  | case1 s a => rfl
  | case2 t a => rfl
  | case3 base target entity htarget => rw [plain?_treat_entity _ htarget]
  | case4 base target htarget ih =>
    rw [plain?_treat _ htarget]
    exact member?_eq (h.container?_eq rfl (ih (h.base rfl)))
  | case5 base column a ih =>
    rw [plain?_cteColumn]
    exact member?_eq (h.container?_eq rfl (ih (h.base rfl)))
  | case6 base source pl a ih =>
    rw [plain?_member]
    exact member?_eq (h.container?_eq rfl (ih (h.base rfl)))
  | case7 base source pl a nature x ih =>
    have hmember : r.SoundBefore (.member base source pl a) := h.base rfl
    rw [plain?_part _ r rfl, plain?_member,
      hmember.container?_eq rfl (ih (hmember.base rfl)), Option.bind_assoc]
    rfl
  | case8 base nature x hmember =>
    rw [plain?, unbounded?]
    exact hmember

/-- Without groups, a bound that is not less than the span makes no difference. -/
theorem resolve?_eq_plain?_of_span {r : Resolver} {p : Path} (hgroups : r.groupPart? = noGroups)
    (hdepth : p.span ≤ r.maxDepth) : r.resolve? p = plain? r.metamodel p := by
  rw [resolve?, r.resolveAt_eq_unbounded? p 0 hdepth,
    unbounded?_eq_plain? (.of_noGroups hgroups)]

/-- Nor does one that is not less than the number of nodes. -/
theorem resolve?_eq_plain? {r : Resolver} {p : Path} (hgroups : r.groupPart? = noGroups)
    (hdepth : p.nodes ≤ r.maxDepth) : r.resolve? p = plain? r.metamodel p :=
  resolve?_eq_plain?_of_span hgroups (Nat.le_trans p.span_le_nodes hdepth)

end QueryPath.Resolver
