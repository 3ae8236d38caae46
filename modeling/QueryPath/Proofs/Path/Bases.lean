import QueryPath.Path.Basic

/-!
# The paths before a path

`Path.bases` lists what a path goes on from: the path before its last step, the one before that,
and so on down to the root. `Path.span` counts them only as far as the last step that narrows the
path to an entity: from there on the path means the same whatever was narrowed.
-/

namespace QueryPath.Path

/-- The path before the last step and all before it. -/
def bases : Path → List Path
  | root _ _ | cteRoot _ _ => []
  | cteColumn b _ _ | member b _ _ _ | treat b _ | part b _ _ => b :: b.bases

/-- Number of nodes behind the last step that narrows the path to an entity, that step included, or
of all nodes if there is none. -/
def span : Path → Nat
  | root _ _ | cteRoot _ _ => 1
  | treat b t => if t.entity?.isSome then 1 else b.span + 1
  | cteColumn b _ _ | member b _ _ _ | part b _ _ => b.span + 1

/-- Whether the root of the path is a common table expression. -/
def startsAtCte : Path → Bool
  | root _ _ => false
  | cteRoot _ _ => true
  | cteColumn b _ _ | member b _ _ _ | treat b _ | part b _ _ => b.startsAtCte

/-- What holds of a path whenever it holds of the path before its last step holds of all paths. -/
theorem base_induction {P : Path → Prop} (h : ∀ p, (∀ b, p.base? = some b → P b) → P p)
    (p : Path) : P p := by
  apply h p
  induction p with
  | root s v | cteRoot t v =>
    intro b hb
    cases hb
  | cteColumn b c v ih | member b s pl v ih | treat b t ih | part b n s ih =>
    intro b' hb
    cases hb
    exact h b ih

theorem bases_eq {p b : Path} (hb : p.base? = some b) : p.bases = b :: b.bases := by
  cases p <;> cases hb <;> rfl

theorem mem_bases {p b q : Path} (hb : p.base? = some b) : q ∈ p.bases ↔ q = b ∨ q ∈ b.bases := by
  rw [bases_eq hb, List.mem_cons]

theorem span_treat_entity {b : Path} {t : Logical.Source} {entity : String}
    (h : t.entity? = some entity) : (treat b t).span = 1 := by
  simp [span, h]

theorem span_treat {b : Path} {t : Logical.Source} (h : t.entity? = none) :
    (treat b t).span = b.span + 1 := by
  simp [span, h]

theorem span_pos (p : Path) : 0 < p.span := by
  cases p with
  | treat b t =>
    rw [span]
    split <;> omega
  | root | cteRoot | cteColumn | member | part => simp [span]

theorem span_le_of_base? {p b : Path} (hb : p.base? = some b) : p.span ≤ b.span + 1 := by
  cases p with
  | treat b t =>
    cases hb
    rw [span]
    split <;> omega
  | root | cteRoot => cases hb
  | cteColumn | member | part =>
    cases hb
    exact Nat.le_refl _

theorem span_le_nodes (p : Path) : p.span ≤ p.nodes := by
  induction p with
  | root | cteRoot => simp [span, nodes]
  | treat b t ih =>
    rw [span, nodes]
    split <;> omega
  | cteColumn b _ _ ih | member b _ _ _ ih | part b _ _ ih =>
    rw [span, nodes]
    omega

/-- The navigation before the last step is that of the path before the last step. -/
theorem parent?_navigable (p : Path) : p.navigable.parent? = p.base?.map navigable := by
  cases p <;> rfl

theorem aliasName?_eq {p q : Path} (h : p.navigable = q.navigable) :
    p.aliasName? = q.aliasName? :=
  congrArg NavigablePath.aliasName h

end QueryPath.Path
