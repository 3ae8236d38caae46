import QueryPath.Path.Navigable
import QueryPath.Proofs.Expr.Token

/-!
# Paths are known by their texts

As long as names hold none of the characters that separate the steps of a path, the text of a
navigable path tells its steps and its variables (`full_injective`). Identifiers hold none of them,
and neither do the reserved names.
-/

namespace QueryPath

/-! ## Names -/

/-- The characters that separate the steps of a path and their variables. -/
def separators : List Char := ['.', '#', '(', ')']

/-- The name holds no separator. -/
def Separable (name : String) : Prop := ∀ c ∈ name.toList, c ∉ separators

instance (name : String) : Decidable (Separable name) :=
  decidable_of_iff (name.toList.all (!separators.contains ·) = true) (by simp [Separable])

theorem Expr.IsIdentifier.separable {name : String} (h : IsIdentifier name) : Separable name := by
  intro c hc hsep
  have hrest := h.isIdentifierRest hc
  simp only [separators, List.mem_cons, List.not_mem_nil, or_false] at hsep
  rcases hsep with rfl | rfl | rfl | rfl <;> exact absurd hrest (by decide)

namespace NavigablePath

/-- All names and variables of the path hold no separators. -/
def Separable : NavigablePath → Prop
  | root n a => QueryPath.Separable n ∧ ∀ v, a = some v → QueryPath.Separable v
  | step base n a =>
      base.Separable ∧ QueryPath.Separable n ∧ ∀ v, a = some v → QueryPath.Separable v
  | treat base entity => base.Separable ∧ QueryPath.Separable entity

/-! ## Texts -/

/-- Where two texts agree, so do the parts before and behind the last separator. -/
theorem split_last {p : Char → Prop} {l₁ l₂ t₁ t₂ : List Char} {c₁ c₂ : Char} (hc₁ : p c₁)
    (hc₂ : p c₂) (ht₁ : ∀ c ∈ t₁, ¬ p c) (ht₂ : ∀ c ∈ t₂, ¬ p c)
    (h : l₁ ++ c₁ :: t₁ = l₂ ++ c₂ :: t₂) : l₁ = l₂ ∧ c₁ = c₂ ∧ t₁ = t₂ := by
  rcases List.append_eq_append_iff.1 h with ⟨as, rfl, has⟩ | ⟨as, rfl, has⟩
  · cases as with
    | nil =>
      rw [List.nil_append, List.cons.injEq] at has
      exact ⟨(List.append_nil _).symm, has⟩
    | cons a as =>
      rw [List.cons_append, List.cons.injEq] at has
      exact absurd hc₂ (ht₁ c₂ (by simp [has.2]))
  · cases as with
    | nil =>
      rw [List.nil_append, List.cons.injEq] at has
      exact ⟨List.append_nil _, has.1.symm, has.2.symm⟩
    | cons a as =>
      rw [List.cons_append, List.cons.injEq] at has
      exact absurd hc₁ (ht₂ c₁ (by simp [has.2]))

theorem toList_labelled_none (n : String) : (labelled n none).toList = n.toList := rfl

theorem toList_labelled_some (n a : String) :
    (labelled n (some a)).toList = n.toList ++ '(' :: (a.toList ++ [')']) := by
  simp [labelled, String.toList_append, toString]

/-- Steps are separated by nothing that is part of a label. -/
theorem not_mem_labelled {n : String} {a : Option String} (hn : QueryPath.Separable n)
    (ha : ∀ v, a = some v → QueryPath.Separable v) :
    ∀ c ∈ (labelled n a).toList, ¬ (c = '.' ∨ c = '#') := by
  have hsep : ∀ c, c = '.' ∨ c = '#' → c ∈ separators := by
    rintro c (rfl | rfl) <;> decide
  intro c hc hdot
  cases a with
  | none => exact hn c hc (hsep c hdot)
  | some v =>
    rw [toList_labelled_some] at hc
    simp only [List.mem_append, List.mem_cons, List.not_mem_nil, or_false] at hc
    rcases hc with hc | rfl | hc | rfl
    · exact hn c hc (hsep c hdot)
    · exact absurd hdot (by decide)
    · exact ha v rfl c hc (hsep c hdot)
    · exact absurd hdot (by decide)

theorem labelled_injective {n n' : String} {a a' : Option String} (hn : QueryPath.Separable n)
    (hm : QueryPath.Separable n') (ha : ∀ v, a = some v → QueryPath.Separable v)
    (ha' : ∀ v, a' = some v → QueryPath.Separable v)
    (h : (labelled n a).toList = (labelled n' a').toList) : n = n' ∧ a = a' := by
  have hopen : '(' ∈ separators := by decide
  have arguments : ∀ v : String, QueryPath.Separable v → ∀ c ∈ v.toList ++ [')'], ¬ c = '(' := by
    rintro v hv c hc rfl
    rcases List.mem_append.1 hc with hc | hc
    · exact hv _ hc hopen
    · exact absurd (List.mem_singleton.1 hc) (by decide)
  cases a with
  | none =>
    cases a' with
    | none => exact ⟨String.toList_inj.1 h, rfl⟩
    | some v' =>
      rw [toList_labelled_none, toList_labelled_some] at h
      exact absurd hopen (hn '(' (by simp [h]))
  | some v =>
    cases a' with
    | none =>
      rw [toList_labelled_none, toList_labelled_some] at h
      exact absurd hopen (hm '(' (by simp [← h]))
    | some v' =>
      rw [toList_labelled_some, toList_labelled_some] at h
      obtain ⟨hnn, -, hvv⟩ :=
        split_last (p := (· = '(')) rfl rfl (arguments v (ha v rfl)) (arguments v' (ha' v' rfl)) h
      rw [String.toList_inj.1 hnn, String.toList_inj.1 (List.append_cancel_right hvv)]
      exact ⟨rfl, rfl⟩

theorem toList_root (n : String) (a : Option String) :
    (full (.root n a)).toList = (labelled n a).toList := rfl

theorem toList_step (base : NavigablePath) (n : String) (a : Option String) :
    (full (.step base n a)).toList = base.full.toList ++ '.' :: (labelled n a).toList := by
  simp [full, String.toList_append]

theorem toList_treat (base : NavigablePath) (entity : String) :
    (full (.treat base entity)).toList = base.full.toList ++ '#' :: entity.toList := by
  simp [full, String.toList_append]

/-- Paths with the same text take the same steps. -/
theorem full_injective {p q : NavigablePath} (hp : p.Separable) (hq : q.Separable)
    (h : p.full = q.full) : p = q := by
  have hdot : ('.' = '.' ∨ '.' = '#') := .inl rfl
  have hhash : ('#' = '.' ∨ '#' = '#') := .inr rfl
  have plain : ∀ {n : String}, QueryPath.Separable n → ∀ c ∈ n.toList, ¬ (c = '.' ∨ c = '#') :=
    fun hn => not_mem_labelled (a := none) hn fun _ h => by cases h
  have h := congrArg String.toList h
  induction p generalizing q with
  | root n a =>
    have hn := not_mem_labelled hp.1 hp.2
    rw [toList_root] at h
    rw [h] at hn
    cases q with
    | root n' a' =>
      obtain ⟨rfl, rfl⟩ := labelled_injective hp.1 hq.1 hp.2 hq.2 h
      rfl
    | step base n' a' =>
      exact absurd hdot (hn '.' (by simp [toList_step]))
    | treat base entity =>
      exact absurd hhash (hn '#' (by simp [toList_treat]))
  | step base n a ih =>
    have hn := not_mem_labelled hp.2.1 hp.2.2
    rw [toList_step] at h
    cases q with
    | root n' a' =>
      exact absurd hdot (not_mem_labelled hq.1 hq.2 '.' (by rw [← toList_root, ← h]; simp))
    | step base' n' a' =>
      have hn' := not_mem_labelled hq.2.1 hq.2.2
      rw [toList_step] at h
      obtain ⟨hbase, -, hlabel⟩ := split_last hdot hdot hn hn' h
      obtain ⟨rfl, rfl⟩ := labelled_injective hp.2.1 hq.2.1 hp.2.2 hq.2.2 hlabel
      rw [ih hp.1 hq.1 (String.toList_inj.1 hbase) hbase]
    | treat base' entity =>
      rw [toList_treat] at h
      exact absurd (split_last hdot hhash hn (plain hq.2) h).2.1 (by decide)
  | treat base entity ih =>
    rw [toList_treat] at h
    cases q with
    | root n' a' =>
      exact absurd hhash (not_mem_labelled hq.1 hq.2 '#' (by rw [← toList_root, ← h]; simp))
    | step base' n' a' =>
      have hn' := not_mem_labelled hq.2.1 hq.2.2
      rw [toList_step] at h
      exact absurd (split_last hhash hdot (plain hp.2) hn' h).2.1 (by decide)
    | treat base' entity' =>
      rw [toList_treat] at h
      obtain ⟨hbase, -, hentity⟩ := split_last hhash hhash (plain hp.2) (plain hq.2) h
      rw [ih hp.1 hq.1 (String.toList_inj.1 hbase) hbase, String.toList_inj.1 hentity]

end NavigablePath

end QueryPath
