import Mathlib.Data.List.Forall2

/-!
# What a computation guarantees

A computation ends in a value or in a fault. `Ensures x P E` says that the value, if there is one,
has the property `P` and the fault, if there is one, the property `E`. A computation that ensures
`E = fun _ => False` succeeds.

The main rule is `ensures_foldlM`: what holds after each prefix of a list holds after the whole.

Two computations go `Alike` if they fail or succeed together; so do two runs whose steps do
(`alike_foldlM`). A loop without a bound is its body; it ends with no more than one result
(`Runs.unique`).
-/

namespace QueryPath

variable {ε α β σ : Type}

/-! ## Related lists -/

theorem exists_mem_of_forall₂ {R : α → β → Prop} {l : List α} {l' : List β}
    (h : List.Forall₂ R l l') {a : α} (ha : a ∈ l) : ∃ b ∈ l', R a b := by
  induction h with
  | nil => cases ha
  | cons hab _ ih =>
    rcases List.mem_cons.1 ha with rfl | ha
    · exact ⟨_, List.mem_cons_self, hab⟩
    · obtain ⟨b, hb, hr⟩ := ih ha
      exact ⟨b, List.mem_cons_of_mem _ hb, hr⟩

theorem exists_mem_of_forall₂' {R : α → β → Prop} {l : List α} {l' : List β}
    (h : List.Forall₂ R l l') {b : β} (hb : b ∈ l') : ∃ a ∈ l, R a b :=
  exists_mem_of_forall₂ h.flip hb

/-- What is related to the same list is related. -/
theorem forall₂_of_common {γ : Type} {R : α → β → Prop} {S : α → γ → Prop} {T : β → γ → Prop}
    {l : List α} {bs : List β} {cs : List γ} (hR : List.Forall₂ R l bs) (hS : List.Forall₂ S l cs)
    (hT : ∀ a ∈ l, ∀ b c, R a b → S a c → T b c) : List.Forall₂ T bs cs := by
  induction hR generalizing cs with
  | nil =>
    cases hS
    exact .nil
  | cons hab _ ih =>
    cases hS with
    | cons hac hS =>
      refine .cons (hT _ List.mem_cons_self _ _ hab hac) (ih hS fun a ha => ?_)
      exact hT a (List.mem_cons_of_mem _ ha)

theorem forall₂_imp_of_mem {R S : α → β → Prop} {l : List α} {l' : List β}
    (h : List.Forall₂ R l l') (hRS : ∀ a ∈ l, ∀ b, R a b → S a b) : List.Forall₂ S l l' := by
  induction h with
  | nil => exact .nil
  | cons hab _ ih =>
    exact .cons (hRS _ List.mem_cons_self _ hab) (ih fun a ha => hRS a (List.mem_cons_of_mem _ ha))

/-- Tests that agree on related elements find related elements. -/
theorem find?_of_forall₂ {R : α → β → Prop} {p : α → Bool} {q : β → Bool} {l : List α}
    {l' : List β} (h : List.Forall₂ R l l') (hpq : ∀ a b, R a b → p a = q b) :
    Option.Rel R (l.find? p) (l'.find? q) := by
  induction h with
  | nil => exact .none
  | cons hab _ ih =>
    rw [List.find?_cons, List.find?_cons, hpq _ _ hab]
    split
    · exact .some hab
    · exact ih

/-! ## Values and faults -/

theorem bind_eq_ok {x : Except ε α} {f : α → Except ε β} {b : β} :
    x >>= f = .ok b ↔ ∃ a, x = .ok a ∧ f a = .ok b := by
  cases x with
  | ok a => simp [bind, Except.bind]
  | error e => simp [bind, Except.bind]

theorem map_eq_ok {x : Except ε α} {f : α → β} {b : β} :
    f <$> x = .ok b ↔ ∃ a, x = .ok a ∧ f a = b := by
  cases x <;> simp [Functor.map, Except.map]

theorem mapError_eq_ok {ε' : Type} {x : Except ε α} {f : ε → ε'} {a : α} :
    x.mapError f = .ok a ↔ x = .ok a := by
  cases x <;> simp [Except.mapError]

theorem mapM_eq_ok {f : α → Except ε β} {l : List α} {bs : List β} :
    l.mapM f = .ok bs ↔ List.Forall₂ (fun a b => f a = .ok b) l bs := by
  induction l generalizing bs with
  | nil => simp [pure, Except.pure, eq_comm]
  | cons a l ih =>
    rw [List.mapM_cons, bind_eq_ok, List.forall₂_cons_left_iff]
    constructor
    · rintro ⟨b, hb, h⟩
      obtain ⟨r, hr, h⟩ := bind_eq_ok.1 h
      cases h
      exact ⟨b, r, hb, ih.1 hr, rfl⟩
    · rintro ⟨b, r, hb, hr, rfl⟩
      exact ⟨b, hb, bind_eq_ok.2 ⟨r, ih.2 hr, rfl⟩⟩

/-- What computations for the first numbers give stands at the positions of the numbers. -/
theorem mapM_range_eq_ok {f : Nat → Except ε β} {n : Nat} {bs : List β}
    (h : (List.range n).mapM f = .ok bs) :
    bs.length = n ∧ ∀ (i : Nat) (b : β), bs[i]? = some b → f i = .ok b := by
  obtain ⟨hlen, h⟩ := List.forall₂_iff_get.1 (mapM_eq_ok.1 h)
  rw [List.length_range] at hlen
  refine ⟨hlen.symm, fun i b hb => ?_⟩
  obtain ⟨hi, rfl⟩ := List.getElem?_eq_some_iff.1 hb
  simpa using h i (by simpa [hlen] using hi) hi

theorem forM_eq_ok {f : α → Except ε Unit} {l : List α} :
    forM l f = .ok () ↔ ∀ a ∈ l, f a = .ok () := by
  induction l with
  | nil => simp [pure, Except.pure]
  | cons a l ih =>
    rw [List.forM_cons, bind_eq_ok, List.forall_mem_cons, ← ih]
    constructor
    · rintro ⟨⟨⟩, ha, hl⟩
      exact ⟨ha, hl⟩
    · rintro ⟨ha, hl⟩
      exact ⟨(), ha, hl⟩

/-- The fault of a list of checks is that of one of them. -/
theorem exists_of_forM_eq_error {f : α → Except ε Unit} {l : List α} {e : ε}
    (h : forM l f = .error e) : ∃ a ∈ l, f a = .error e := by
  induction l with
  | nil => cases h
  | cons a l ih =>
    rw [List.forM_cons] at h
    cases ha : f a with
    | error e' =>
      rw [ha] at h
      cases h
      exact ⟨a, List.mem_cons_self, ha⟩
    | ok u =>
      rw [ha] at h
      obtain ⟨b, hb, hfault⟩ := ih h
      exact ⟨b, List.mem_cons_of_mem _ hb, hfault⟩

theorem forM_congr {f g : α → Except ε Unit} {l : List α} (h : ∀ a ∈ l, f a = g a) :
    forM l f = forM l g := by
  induction l with
  | nil => rfl
  | cons a l ih =>
    rw [List.forM_cons, List.forM_cons, h a List.mem_cons_self,
      ih fun b hb => h b (List.mem_cons_of_mem _ hb)]

theorem foldlM_congr {f g : σ → α → Except ε σ} {l : List α} (h : ∀ a ∈ l, ∀ s, f s a = g s a)
    (s : σ) : l.foldlM f s = l.foldlM g s := by
  induction l generalizing s with
  | nil => rfl
  | cons a l ih =>
    have hrest := ih fun b hb => h b (List.mem_cons_of_mem _ hb)
    rw [List.foldlM_cons, List.foldlM_cons, h a List.mem_cons_self]
    exact congrArg (g s a >>= ·) (funext hrest)

theorem exists_ok_of_any {x : Except ε α} {P : α → Bool} (h : x.toOption.any P = true) :
    ∃ a, x = .ok a ∧ P a = true := by
  cases x with
  | ok a => exact ⟨a, rfl, h⟩
  | error e => cases h

/-! ## Guarantees -/

/-- The value of the computation satisfies `P`, its fault satisfies `E`. -/
def Ensures (x : Except ε α) (P : α → Prop) (E : ε → Prop) : Prop :=
  (∀ a, x = .ok a → P a) ∧ ∀ e, x = .error e → E e

variable {x : Except ε α} {P Q : α → Prop} {E F : ε → Prop}

@[simp] theorem ensures_ok {a : α} : Ensures (.ok a) P E ↔ P a := by
  simp [Ensures]

@[simp] theorem ensures_pure {a : α} : Ensures (pure a : Except ε α) P E ↔ P a := ensures_ok

@[simp] theorem ensures_error {e : ε} : Ensures (.error e) P E ↔ E e := by
  simp [Ensures]

theorem Ensures.mono (h : Ensures x P E) (hP : ∀ a, P a → Q a) (hE : ∀ e, E e → F e) :
    Ensures x Q F :=
  ⟨fun a ha => hP a (h.1 a ha), fun e he => hE e (h.2 e he)⟩

theorem Ensures.imp (h : Ensures x P E) (hP : ∀ a, P a → Q a) : Ensures x Q E :=
  h.mono hP fun _ => id

/-- Nothing is said of a computation. -/
theorem ensures_true (x : Except ε α) : Ensures x (fun _ => True) fun _ => True :=
  ⟨fun _ _ => trivial, fun _ _ => trivial⟩

theorem Ensures.bind {f : α → Except ε β} {R : β → Prop} (h : Ensures x P E)
    (hf : ∀ a, P a → Ensures (f a) R E) : Ensures (x >>= f) R E := by
  cases x with
  | ok a => exact hf a (ensures_ok.1 h)
  | error e => exact ensures_error.2 (ensures_error.1 h)

theorem Ensures.mapError {ε' : Type} {g : ε → ε'} {E' : ε' → Prop} (h : Ensures x P E)
    (hE : ∀ e, E e → E' (g e)) : Ensures (x.mapError g) P E' := by
  cases x with
  | ok a => exact ensures_ok.2 (ensures_ok.1 h)
  | error e => exact ensures_error.2 (hE e (ensures_error.1 h))

/-- A computation without faults has a value. -/
theorem Ensures.exists_ok (h : Ensures x P fun _ => False) : ∃ a, x = .ok a ∧ P a := by
  cases x with
  | ok a => exact ⟨a, rfl, ensures_ok.1 h⟩
  | error e => exact (ensures_error.1 h).elim

theorem Ensures.of_exists_ok (h : ∃ a, x = .ok a ∧ P a) : Ensures x P E := by
  obtain ⟨a, rfl, ha⟩ := h
  exact ensures_ok.2 ha

/-- What holds at the start and, step by step, after each prefix of the list holds after all of
it. A step may use what comes before and behind its element. -/
theorem ensures_foldlM {f : σ → α → Except ε σ} {l : List α} {s : σ} (I : List α → σ → Prop)
    (start : I [] s)
    (step : ∀ done a rest s, l = done ++ a :: rest → I done s →
      Ensures (f s a) (I (done ++ [a])) E) :
    Ensures (l.foldlM f s) (I l) E := by
  suffices h : ∀ rest done s, l = done ++ rest → I done s →
      Ensures (rest.foldlM f s) (I l) E from h l [] s rfl start
  intro rest
  induction rest with
  | nil =>
    intro done s hl hs
    rw [List.append_nil] at hl
    subst hl
    exact ensures_pure.2 hs
  | cons a rest ih =>
    intro done s hl hs
    rw [List.foldlM_cons]
    refine (step done a rest s hl hs).bind fun s' hs' => ?_
    exact ih (done ++ [a]) s' (by simp [hl]) hs'

/-- Where names differ, a step comes upon a name that is none of those before it. -/
theorem not_mem_before {name : α → β} {l done rest : List α} {a : α} (nodup : (l.map name).Nodup)
    (hl : l = done ++ a :: rest) : name a ∉ done.map name := by
  rw [hl, List.map_append, List.map_cons] at nodup
  exact fun h => (List.nodup_append.1 nodup).2.2 _ h _ List.mem_cons_self rfl

/-- A fault of a list of computations is one of theirs. -/
theorem ensures_mapM {f : α → Except ε β} {l : List α} {R : α → β → Prop}
    (h : ∀ a ∈ l, Ensures (f a) (R a) E) : Ensures (l.mapM f) (List.Forall₂ R l) E := by
  induction l with
  | nil => exact ensures_pure.2 .nil
  | cons a l ih =>
    rw [List.mapM_cons]
    refine (h a List.mem_cons_self).bind fun b hb => ?_
    refine (ih fun x hx => h x (List.mem_cons_of_mem a hx)).bind fun bs hbs => ?_
    exact ensures_pure.2 (.cons hb hbs)

/-! ## Computations that go alike -/

/-- Both computations fail, or both succeed with values that are related. -/
inductive Alike (R : α → β → Prop) : Except ε α → Except ε β → Prop
  | error {e e'} : Alike R (.error e) (.error e')
  | ok {a b} : R a b → Alike R (.ok a) (.ok b)

section Alike

variable {γ δ : Type} {R : α → β → Prop}

theorem alike_of_ok {x : Except ε α} {y : Except ε β}
    (h : ∀ a, x = .ok a → ∃ b, y = .ok b ∧ R a b) (h' : ∀ b, y = .ok b → ∃ a, x = .ok a) :
    Alike R x y := by
  cases x with
  | ok a =>
    obtain ⟨b, rfl, hab⟩ := h a rfl
    exact .ok hab
  | error e =>
    cases y with
    | error e' => exact .error
    | ok b =>
      obtain ⟨a, ha⟩ := h' b rfl
      cases ha

theorem Alike.exists_ok {x : Except ε α} {y : Except ε β} (h : Alike R x y) {a : α}
    (ha : x = .ok a) : ∃ b, y = .ok b ∧ R a b := by
  subst ha
  cases h with
  | ok hab => exact ⟨_, rfl, hab⟩

theorem Alike.mono {S : α → β → Prop} {x : Except ε α} {y : Except ε β} (h : Alike R x y)
    (hS : ∀ a b, x = .ok a → y = .ok b → R a b → S a b) : Alike S x y := by
  cases h with
  | error => exact .error
  | ok hab => exact .ok (hS _ _ rfl rfl hab)

theorem Alike.bind {S : γ → δ → Prop} {x : Except ε α} {y : Except ε β} {f : α → Except ε γ}
    {g : β → Except ε δ} (h : Alike R x y) (hfg : ∀ a b, R a b → Alike S (f a) (g b)) :
    Alike S (x >>= f) (y >>= g) := by
  cases h with
  | error => exact .error
  | ok hab => exact hfg _ _ hab

/-- Two runs go alike if each step keeps the states related. -/
theorem alike_foldlM {f : α → γ → Except ε α} {g : β → γ → Except ε β}
    (step : ∀ a b c, R a b → Alike R (f a c) (g b c)) {a : α} {b : β} (h : R a b) (l : List γ) :
    Alike R (l.foldlM f a) (l.foldlM g b) := by
  induction l generalizing a b with
  | nil => exact .ok h
  | cons c l ih =>
    rw [List.foldlM_cons, List.foldlM_cons]
    exact (step a b c h).bind fun _ _ => ih

end Alike

/-! ## Loops -/

/-- The loop goes through its body, which ends with a result or goes on from another state. -/
inductive Runs (body : σ → β ⊕ σ) : σ → β → Prop
  | done {s r} : body s = .inl r → Runs body s r
  | more {s t r} : body s = .inr t → Runs body t r → Runs body s r

section Loops

variable {body : σ → β ⊕ σ} {s : σ} {r r' : β}

theorem Runs.unique (h : Runs body s r) (h' : Runs body s r') : r = r' := by
  induction h with
  | done hs =>
    cases h' with
    | done hs' => exact Sum.inl.inj (hs.symm.trans hs')
    | more hs' _ => cases hs.symm.trans hs'
  | more hs _ ih =>
    cases h' with
    | done hs' => cases hs.symm.trans hs'
    | more hs' h' =>
      cases hs.symm.trans hs'
      exact ih h'

theorem Runs.iff (h : Runs body s r') : Runs body s r ↔ r = r' :=
  ⟨fun h' => h'.unique h, fun heq => heq ▸ h⟩

end Loops

/-! ## Work in place

Work that changes a state as it goes, and that may fail on the way. -/

section InPlace

variable (s : σ)

theorem run_get (k : σ → ExceptT ε (StateM σ) α) :
    (getThe σ >>= k).run.run s = (k s).run.run s := rfl

theorem run_set (s' : σ) (k : ExceptT ε (StateM σ) α) :
    (do set s'; k : ExceptT ε (StateM σ) α).run.run s = k.run.run s' := rfl

theorem run_pure (a : α) : (pure a : ExceptT ε (StateM σ) α).run.run s = (.ok a, s) := rfl

theorem run_throw (e : ε) : (throw e : ExceptT ε (StateM σ) α).run.run s = (.error e, s) := rfl

theorem run_bind_of_ok {x : ExceptT ε (StateM σ) α} {k : α → ExceptT ε (StateM σ) β} {s s' : σ}
    {a : α} (hx : x.run.run s = (.ok a, s')) : (x >>= k).run.run s = (k a).run.run s' := by
  rw [ExceptT.run_bind, StateT.run_bind, hx]
  rfl

end InPlace

end QueryPath
