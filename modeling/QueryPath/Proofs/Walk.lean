import Mathlib.Data.List.Nodup
import Mathlib.Data.List.Perm.Subperm
import Mathlib.Logic.Relation

/-!
# Walks

A partial function `next` leads from element to element. `Walk next a l` says that `l` holds `a`
and all that `next` leads to from there, up to where it leads nowhere; `upTo next n a` takes no
more than `n` elements of it. Hierarchies are walked along the function that gives what is
directly above.

A walk from an element exists exactly if `next` does not come back to any element from there,
provided that it leads into a finite list (`exists_walk`, `Walk.not_revisits`).
-/

namespace QueryPath

variable {α : Type} {next : α → Option α}

/-- `next` leads from `a` to `b`. -/
def Leads (next : α → Option α) (a b : α) : Prop := next a = some b

/-- `next` leads no element back to itself. -/
def Acyclic (next : α → Option α) : Prop := ∀ a, ¬ Relation.TransGen (Leads next) a a

/-- From `a` on, `next` leads to some element again and again. -/
def Revisits (next : α → Option α) (a : α) : Prop :=
  ∃ b, Relation.ReflTransGen (Leads next) a b ∧ Relation.TransGen (Leads next) b b

theorem Acyclic.not_revisits (acyclic : Acyclic next) (a : α) : ¬ Revisits next a := by
  rintro ⟨b, -, hb⟩
  exact acyclic b hb

/-- Elements that lead to each other are the same. -/
theorem Acyclic.antisymm (acyclic : Acyclic next) {a b : α}
    (hab : Relation.ReflTransGen (Leads next) a b) (hba : Relation.ReflTransGen (Leads next) b a) :
    a = b := by
  rcases Relation.reflTransGen_iff_eq_or_transGen.1 hab with rfl | hab
  · rfl
  · exact absurd (hab.trans_left hba) (acyclic a)

/-- What lies ahead comes back to no element if what lies here does not. -/
theorem not_revisits_of_leads {a b : α} (h : ¬ Revisits next a) (hb : next a = some b) :
    ¬ Revisits next b := by
  rintro ⟨c, hbc, hc⟩
  exact h ⟨c, .head hb hbc, hc⟩

/-- The elements to which `next` leads from `a`, with `a` itself first. -/
inductive Walk (next : α → Option α) : α → List α → Prop
  | stop {a : α} : next a = none → Walk next a [a]
  | step {a b : α} {l : List α} : next a = some b → Walk next b l → Walk next a (a :: l)

/-- The first `n` elements of the walk from `a`. -/
def upTo (next : α → Option α) : (n : Nat) → α → List α
  | 0, _ => []
  | n + 1, a => a :: ((next a).map (upTo next n)).getD []

@[simp] theorem upTo_zero (a : α) : upTo next 0 a = [] := rfl

theorem upTo_succ_none {n : Nat} {a : α} (h : next a = none) : upTo next (n + 1) a = [a] := by
  simp [upTo, h]

theorem upTo_succ_some {n : Nat} {a b : α} (h : next a = some b) :
    upTo next (n + 1) a = a :: upTo next n b := by
  simp [upTo, h]

namespace Walk

theorem head {a : α} {l : List α} (h : Walk next a l) : ∃ t, l = a :: t := by
  cases h with
  | stop _ => exact ⟨[], rfl⟩
  | step _ _ => exact ⟨_, rfl⟩

theorem unique {a : α} {l l' : List α} (h : Walk next a l) (h' : Walk next a l') : l = l' := by
  induction h generalizing l' with
  | stop hn =>
    cases h' with
    | stop _ => rfl
    | step hs _ => simp [hn] at hs
  | step hs _ ih =>
    cases h' with
    | stop hn => simp [hn] at hs
    | step hs' h' =>
      rw [hs, Option.some.injEq] at hs'
      subst hs'
      rw [ih h']

theorem tail {a b : α} {l : List α} (h : Walk next a l) (hb : next a = some b) :
    ∃ l', l = a :: l' ∧ Walk next b l' := by
  cases h with
  | stop hn => simp [hn] at hb
  | step hs h =>
    rw [hb, Option.some.injEq] at hs
    subst hs
    exact ⟨_, rfl, h⟩

/-- The walk holds what can be reached, and no more. -/
theorem mem_iff {a b : α} {l : List α} (h : Walk next a l) :
    b ∈ l ↔ Relation.ReflTransGen (Leads next) a b := by
  constructor
  · intro hb
    induction h with
    | stop _ =>
      rw [List.mem_singleton] at hb
      exact hb ▸ .refl
    | step hs _ ih =>
      rcases List.mem_cons.1 hb with rfl | hb
      · exact .refl
      · exact .head hs (ih hb)
  · intro hr
    induction hr using Relation.ReflTransGen.head_induction_on generalizing l with
    | refl =>
      obtain ⟨t, rfl⟩ := h.head
      exact List.mem_cons_self
    | head hs _ ih =>
      obtain ⟨l', rfl, h'⟩ := h.tail hs
      exact List.mem_cons_of_mem _ (ih h')

/-- From each of its elements on, a walk is the walk from there. -/
theorem dropWhile [DecidableEq α] {a b : α} {l : List α} (h : Walk next a l) (hb : b ∈ l) :
    Walk next b (l.dropWhile (· != b)) := by
  induction h with
  | @stop a hn =>
    obtain rfl := List.mem_singleton.1 hb
    rw [List.dropWhile_cons_of_neg (by simp)]
    exact .stop hn
  | @step a c l hs h ih =>
    by_cases hab : a = b
    · subst hab
      rw [List.dropWhile_cons_of_neg (by simp)]
      exact .step hs h
    · rw [List.dropWhile_cons_of_pos (by simpa using hab)]
      exact ih ((List.mem_cons.1 hb).resolve_left (Ne.symm hab))

/-- What lies ahead has a shorter walk. -/
theorem of_transGen {a b : α} {l : List α} (h : Walk next a l)
    (hr : Relation.TransGen (Leads next) a b) : ∃ l', Walk next b l' ∧ l'.length < l.length := by
  induction hr with
  | single hs =>
    obtain ⟨l', rfl, h'⟩ := h.tail hs
    exact ⟨l', h', by simp⟩
  | tail _ hs ih =>
    obtain ⟨l₁, h₁, hlt⟩ := ih
    obtain ⟨l₂, rfl, h₂⟩ := h₁.tail hs
    refine ⟨l₂, h₂, Nat.lt_trans ?_ hlt⟩
    simp

theorem not_cycle {a : α} {l : List α} (h : Walk next a l) :
    ¬ Relation.TransGen (Leads next) a a := by
  intro hr
  obtain ⟨l', h', hlt⟩ := h.of_transGen hr
  rw [h.unique h'] at hlt
  exact Nat.lt_irrefl _ hlt

theorem not_revisits {a : α} {l : List α} (h : Walk next a l) : ¬ Revisits next a := by
  rintro ⟨b, hab, hb⟩
  rcases Relation.reflTransGen_iff_eq_or_transGen.1 hab with rfl | hab
  · exact h.not_cycle hb
  · obtain ⟨l', h', -⟩ := h.of_transGen hab
    exact h'.not_cycle hb

theorem nodup {a : α} {l : List α} (h : Walk next a l) : l.Nodup := by
  induction h with
  | stop _ => simp
  | @step a b l hs h ih =>
    refine List.nodup_cons.2 ⟨fun hmem => ?_, ih⟩
    exact (Walk.step hs h).not_cycle (.head' hs (h.mem_iff.1 hmem))

/-- A bound that is not less than the length is no bound. -/
theorem upTo_eq {a : α} {l : List α} (h : Walk next a l) {n : Nat} (hn : l.length ≤ n) :
    upTo next n a = l := by
  induction h generalizing n with
  | stop hs =>
    obtain ⟨m, rfl⟩ : ∃ m, n = m + 1 := ⟨n - 1, by simp at hn; omega⟩
    exact upTo_succ_none hs
  | step hs _ ih =>
    obtain ⟨m, rfl⟩ : ∃ m, n = m + 1 := ⟨n - 1, by simp at hn; omega⟩
    rw [upTo_succ_some hs, ih (by simpa using hn)]

/-- Where two functions lead on alike from elements that belong together, so do their walks. -/
theorem transfer {β : Type} {next' : β → Option β} {R : α → β → Prop}
    (leads : ∀ a b, R a b → Option.Rel R (next a) (next' b)) {a : α} {b : β} {l : List α}
    (h : Walk next a l) (hab : R a b) : ∃ l', Walk next' b l' ∧ List.Forall₂ R l l' := by
  induction h generalizing b with
  | stop hn =>
    have hrel := leads _ _ hab
    refine ⟨[b], .stop ?_, .cons hab .nil⟩
    cases hb : next' b with
    | none => rfl
    | some b' =>
      rw [hn, hb] at hrel
      cases hrel
  | step hs _ ih =>
    have hrel := leads _ _ hab
    rw [hs] at hrel
    cases hb : next' b with
    | none =>
      rw [hb] at hrel
      cases hrel
    | some b' =>
      rw [hb] at hrel
      cases hrel with
      | some hab' =>
        obtain ⟨l', hl', hrel'⟩ := ih hab'
        exact ⟨b :: l', .step hb hl', .cons hab hrel'⟩

end Walk

/-- A walk that ends within the bound is complete. -/
theorem walk_upTo {n : Nat} {a : α} (h : (upTo next (n + 1) a).length ≤ n) :
    Walk next a (upTo next (n + 1) a) := by
  induction n generalizing a with
  | zero => simp [upTo] at h
  | succ n ih =>
    cases hs : next a with
    | none =>
      rw [upTo_succ_none hs]
      exact .stop hs
    | some b =>
      rw [upTo_succ_some hs] at h ⊢
      exact .step hs (ih (by simpa using h))

theorem reaches_of_mem_upTo {n : Nat} {a b : α} (h : b ∈ upTo next n a) :
    Relation.ReflTransGen (Leads next) a b := by
  induction n generalizing a with
  | zero => simp at h
  | succ n ih =>
    cases hs : next a with
    | none =>
      rw [upTo_succ_none hs, List.mem_singleton] at h
      exact h ▸ .refl
    | some c =>
      rw [upTo_succ_some hs, List.mem_cons] at h
      rcases h with rfl | h
      · exact .refl
      · exact .head hs (ih h)

theorem nodup_upTo (n : Nat) {a : α} (h : ¬ Revisits next a) : (upTo next n a).Nodup := by
  induction n generalizing a with
  | zero => simp
  | succ n ih =>
    cases hs : next a with
    | none => simp [upTo_succ_none hs]
    | some b =>
      rw [upTo_succ_some hs, List.nodup_cons]
      refine ⟨fun hmem => ?_, ih (not_revisits_of_leads h hs)⟩
      exact h ⟨a, .refl, .head' hs (reaches_of_mem_upTo hmem)⟩

/-- Within a finite list a walk that comes back to no element comes to an end. -/
theorem exists_walk {S : List α} (closed : ∀ a b, next a = some b → b ∈ S) {a : α} (ha : a ∈ S)
    (h : ¬ Revisits next a) : ∃ l, Walk next a l ∧ l.length ≤ S.length := by
  have hsub : upTo next (S.length + 1) a ⊆ S := by
    intro b hb
    rcases (reaches_of_mem_upTo hb).cases_tail with rfl | ⟨c, _, hc⟩
    · exact ha
    · exact closed c b hc
  have hlen := ((nodup_upTo _ h).subperm hsub).length_le
  exact ⟨_, walk_upTo hlen, hlen⟩

theorem acyclic_of_walks (h : ∀ a, ∃ l, Walk next a l) : Acyclic next := by
  intro a
  obtain ⟨l, hl⟩ := h a
  exact hl.not_cycle

end QueryPath
