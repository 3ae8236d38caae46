import QueryPath.Proofs.Expr.Grammar

/-!
# Keywords in the reader

The reader looks for the letters of a keyword, the grammar for words. Both agree, since the reader
goes on only where something follows that cannot be part of the word: behind the name of a function
a parenthesis (`head?_eq_some_iff`), behind `as` a gap. So no keyword is found within a longer word.
-/

namespace QueryPath.Expr

open Text
open Reader

/-- Keywords consist of small letters. -/
def IsKeyword (k : String) : Prop := k.toList ≠ [] ∧ k.toList.all Char.isLower = true

instance (k : String) : Decidable (IsKeyword k) := inferInstanceAs (Decidable (_ ∧ _))

theorem Reader.Head.isKeyword_name (h : Head) : IsKeyword h.name := by
  cases h with
  | treat => decide
  | part f => cases f <;> decide

theorem Reader.Head.mem_all (h : Head) : h ∈ Head.all := by
  cases h with
  | treat => decide
  | part f => cases f <;> decide

theorem Reader.Head.name_injective {h h' : Head} (e : h.name = h'.name) : h = h' := by
  have all : ∀ h ∈ Head.all, ∀ h' ∈ Head.all, h.name = h'.name → h = h' := by decide
  exact all h h.mem_all h' h'.mem_all e

/-- What is a small letter once capitals are made small is a letter. -/
theorem isAlpha_of_isLower_toLower {c : Char} (h : c.toLower.isLower = true) :
    c.isAlpha = true := by
  have halpha : c.isAlpha = (c.isUpper || c.isLower) := rfl
  rw [halpha, Bool.or_eq_true]
  by_cases hc : c.val ≥ 'A'.val ∧ c.val ≤ 'Z'.val
  · exact .inl (decide_eq_true hc)
  · have hlower : c.toLower = c := dif_neg hc
    exact .inr (hlower ▸ h)

theorem isWord_of_map_toLower {v : List Char} {k : String} (hk : IsKeyword k)
    (hv : v.map Char.toLower = k.toList) : IsWord v := by
  have alpha : ∀ c ∈ v, c.isAlpha = true := by
    intro c hc
    exact isAlpha_of_isLower_toLower (List.all_eq_true.1 hk.2 _ (hv ▸ List.mem_map_of_mem hc))
  cases v with
  | nil => exact hk.1 hv.symm
  | cons c v =>
    refine ⟨?_, fun x hx => ?_⟩
    · rw [isIdentifierStart, alpha c List.mem_cons_self, Bool.true_or]
    · rw [isIdentifierRest, Char.isAlphanum, alpha x (List.mem_cons_of_mem _ hx), Bool.true_or,
        Bool.true_or]

theorem dropWord?_eq_some_iff {w s r : List Char} :
    dropWord? w s = some r ↔ ∃ v, v.map Char.toLower = w ∧ s = v ++ r := by
  induction w generalizing s with
  | nil => simp [dropWord?]
  | cons x w ih =>
    cases s with
    | nil =>
      constructor
      · intro h
        cases h
      · rintro ⟨v, hv, hs⟩
        rw [(List.append_eq_nil_iff.1 hs.symm).1] at hv
        cases hv
    | cons c s =>
      rw [dropWord?]
      constructor
      · intro h
        split at h
        · rename_i hc
          obtain ⟨v, hv, rfl⟩ := ih.1 h
          exact ⟨c :: v, by rw [List.map_cons, hc, hv], rfl⟩
        · cases h
      · rintro ⟨v, hv, hs⟩
        cases v with
        | nil => cases hv
        | cons y v =>
          rw [List.map_cons, List.cons.injEq] at hv
          rw [List.cons_append, List.cons.injEq] at hs
          rw [if_pos (hs.1 ▸ hv.1), ih]
          exact ⟨v, hv.2, hs.2⟩

/-- A keyword that no character of a word follows is the whole identifier. -/
theorem exists_identifier?_of_dropWord? {k : String} (hk : IsKeyword k) {s r : List Char}
    (h : dropWord? k.toList s = some r) (hr : EndsWord r) :
    ∃ n, identifier? s = some (n, r) ∧ Spells n k := by
  obtain ⟨v, hv, rfl⟩ := dropWord?_eq_some_iff.1 h
  refine ⟨String.ofList v, identifier?_eq_some_iff.2 ?_, ?_⟩
  · exact ⟨v, isWord_of_map_toLower hk hv, rfl, rfl, hr⟩
  · rw [Spells, String.toList_ofList, hv]

theorem dropWord?_of_identifier? {n k : String} {s r : List Char}
    (h : identifier? s = some (n, r)) (hn : Spells n k) : dropWord? k.toList s = some r := by
  obtain ⟨w, -, rfl, rfl, -⟩ := identifier?_eq_some_iff.1 h
  rw [Spells, String.toList_ofList] at hn
  exact dropWord?_eq_some_iff.2 ⟨w, hn, rfl⟩

theorem endsWord_of_isGap {c : Char} (hc : isGap c = true) (s : List Char) : EndsWord (c :: s) := by
  intro x hx
  cases hx
  simp only [isGap, Bool.or_eq_true, beq_iff_eq] at hc
  rcases hc with ((rfl | rfl) | rfl) | rfl <;> decide

/-- A word ends before a gap, and where there is none before what stands there. -/
theorem endsWord_of_dropGap {s : List Char} (h : EndsWord (dropGap s)) : EndsWord s := by
  cases s with
  | nil => exact h
  | cons c s =>
    cases hc : isGap c with
    | true => exact endsWord_of_isGap hc s
    | false => rwa [dropGap_cons_of_not_gap hc] at h

/-- Where a word ends and another one begins there is a gap between them. -/
theorem head?_isGap {s t : List Char} {c : Char} (hs : EndsWord s) (ht : dropGap s = c :: t)
    (hc : isIdentifierRest c = true) : (s.head?.map isGap).getD false = true := by
  cases s with
  | nil => cases ht
  | cons x s =>
    cases hx : isGap x with
    | true => exact hx
    | false =>
      rw [dropGap_cons_of_not_gap hx, List.cons.injEq] at ht
      rw [hs c (by rw [ht.1, List.head?_cons])] at hc
      cases hc

theorem dropOpen?_eq_some_iff {s r : List Char} :
    dropOpen? s = some r ↔ dropGap s = Mark.opening.char :: r := by
  unfold dropOpen?
  split
  · rename_i t ht
    rw [ht, Option.some.injEq, Mark.char, List.cons.injEq, eq_self, true_and]
  · rename_i hne
    constructor
    · intro h
      cases h
    · intro h
      exact absurd h (hne r)

/-- A function begins with a word that spells its name and that an opening parenthesis follows. -/
theorem head?_eq_some_iff {s r : List Char} {h : Head} : head? s = some (h, r) ↔
    ∃ n u, identifier? s = some (n, u) ∧ Spells n h.name ∧
      dropGap u = Mark.opening.char :: r := by
  have word : ∀ {h r}, head? s = some (h, r) → ∃ n u, identifier? s = some (n, u) ∧
      Spells n h.name ∧ dropGap u = Mark.opening.char :: r := by
    intro h r e
    obtain ⟨f, -, hf⟩ := List.exists_of_findSome?_eq_some e
    simp only [Option.map_eq_some_iff, Option.bind_eq_some_iff, Prod.mk.injEq] at hf
    obtain ⟨t, ⟨u, hu, ht⟩, rfl, rfl⟩ := hf
    have hopen := dropOpen?_eq_some_iff.1 ht
    have hends : EndsWord u := by
      apply endsWord_of_dropGap
      rw [hopen]
      intro c hc
      cases hc
      rfl
    obtain ⟨n, hn, hspells⟩ := exists_identifier?_of_dropWord? f.isKeyword_name hu hends
    exact ⟨n, u, hn, hspells, hopen⟩
  refine ⟨word, ?_⟩
  rintro ⟨n, u, hn, hspells, hopen⟩
  have hword := dropWord?_of_identifier? hn hspells
  cases e : head? s with
  | none =>
    have hnone := List.findSome?_eq_none_iff.1 e h h.mem_all
    rw [hword, Option.bind_some, dropOpen?_eq_some_iff.2 hopen] at hnone
    cases hnone
  | some x =>
    -- a word spells the name of one function only
    obtain ⟨n', u', hn', hspells', hopen'⟩ := word e
    rw [hn, Option.some.injEq, Prod.mk.injEq] at hn'
    obtain ⟨rfl, rfl⟩ := hn'
    rw [hopen, List.cons.injEq] at hopen'
    have hname : h.name = x.1.name :=
      String.toList_inj.1 (hspells.symm.trans hspells')
    rw [hopen'.2, Head.name_injective hname]

end QueryPath.Expr
