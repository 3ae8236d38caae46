import QueryPath.Expr.Reader

/-!
# Tokens of path expressions

A text is cut into words and marks with gaps around them, each word being as long as it can be
(`Scans`). The reader works on characters and knows no tokens; the lemmas here say how the tokens
of a text begin in terms of what the reader looks at: the longest identifier behind the gap
(`scans_word_iff`) or the next character behind it (`scans_mark_iff`).
-/

namespace QueryPath.Expr

open Text
open Reader (identifier? isIdentifierStart isIdentifierRest)

/-! ## Words -/

/-- A letter or an underscore, then letters, digits and underscores, all of ASCII. -/
def IsWord : List Char → Prop
  | [] => False
  | c :: s => isIdentifierStart c = true ∧ ∀ x ∈ s, isIdentifierRest x = true

/-- The text does not go on with a character of a word. -/
def EndsWord (s : List Char) : Prop := ∀ c, s.head? = some c → isIdentifierRest c = false

theorem isIdentifierRest_of_start {c : Char} (h : isIdentifierStart c = true) :
    isIdentifierRest c = true := by
  simp only [isIdentifierStart, Bool.or_eq_true] at h
  simp only [isIdentifierRest, Char.isAlphanum, Bool.or_eq_true]
  exact h.imp_left .inl

theorem IsWord.isIdentifierRest {w : List Char} (h : IsWord w) :
    ∀ c ∈ w, isIdentifierRest c = true := by
  intro c hc
  cases w with
  | nil => cases hc
  | cons x s =>
    rcases List.mem_cons.1 hc with rfl | hc
    · exact isIdentifierRest_of_start h.1
    · exact h.2 c hc

theorem EndsWord.dropWhile (s : List Char) : EndsWord (s.dropWhile isIdentifierRest) := by
  intro c hc
  have h := List.head?_dropWhile_not isIdentifierRest s
  rw [hc] at h
  exact h

theorem EndsWord.dropWhile_append {s t : List Char} (ht : EndsWord t)
    (hs : ∀ c ∈ s, isIdentifierRest c = true) :
    (s ++ t).takeWhile isIdentifierRest = s ∧ (s ++ t).dropWhile isIdentifierRest = t := by
  rw [List.takeWhile_append_of_pos hs, List.dropWhile_append_of_pos hs]
  cases t with
  | nil => simp
  | cons c t => simp [ht c rfl]

/-- The longest identifier is a word that ends where the text goes on with something else. -/
theorem identifier?_eq_some_iff {s r : List Char} {n : String} :
    identifier? s = some (n, r) ↔
      ∃ w, IsWord w ∧ n = String.ofList w ∧ s = w ++ r ∧ EndsWord r := by
  constructor
  · intro h
    cases s with
    | nil => cases h
    | cons c s =>
      simp only [identifier?] at h
      split at h
      · rename_i hc
        cases h
        refine ⟨c :: s.takeWhile isIdentifierRest, ⟨hc, fun x hx => ?_⟩, rfl, ?_, .dropWhile s⟩
        · exact List.all_eq_true.1 List.all_takeWhile x hx
        · rw [List.cons_append, List.takeWhile_append_dropWhile]
      · cases h
  · rintro ⟨w, hw, rfl, rfl, hr⟩
    cases w with
    | nil => exact hw.elim
    | cons c s =>
      obtain ⟨htake, hdrop⟩ := hr.dropWhile_append hw.2
      simp only [List.cons_append, identifier?, hw.1, if_true, htake, hdrop]

theorem exists_start_of_identifier? {s r : List Char} {n : String}
    (h : identifier? s = some (n, r)) : ∃ c t, s = c :: t ∧ isIdentifierStart c = true := by
  obtain ⟨w, hw, -, rfl, -⟩ := identifier?_eq_some_iff.1 h
  cases w with
  | nil => exact hw.elim
  | cons c w => exact ⟨c, w ++ r, rfl, hw.1⟩

/-- The text is an identifier of path expressions. -/
def IsIdentifier (name : String) : Prop := identifier? name.toList = some (name, [])

instance (name : String) : Decidable (IsIdentifier name) :=
  inferInstanceAs (Decidable (_ = _))

theorem isIdentifier_iff {name : String} : IsIdentifier name ↔ IsWord name.toList := by
  rw [IsIdentifier, identifier?_eq_some_iff]
  constructor
  · rintro ⟨w, hw, rfl, -, -⟩
    rwa [String.toList_ofList]
  · intro h
    exact ⟨_, h, String.ofList_toList.symm, (List.append_nil _).symm, nofun⟩

theorem IsIdentifier.isIdentifierRest {name : String} (h : IsIdentifier name) {c : Char}
    (hc : c ∈ name.toList) : Reader.isIdentifierRest c = true :=
  (isIdentifier_iff.1 h).isIdentifierRest c hc

/-! ## Gaps -/

theorem dropGap_cons_of_gap {c : Char} (h : isGap c = true) (s : List Char) :
    dropGap (c :: s) = dropGap s := by
  simp [dropGap, h]

theorem dropGap_cons_of_not_gap {c : Char} (h : isGap c = false) (s : List Char) :
    dropGap (c :: s) = c :: s := by
  simp [dropGap, h]

theorem isGap_eq_false_of_start {c : Char} (h : isIdentifierStart c = true) : isGap c = false := by
  cases hg : isGap c with
  | false => rfl
  | true =>
    simp only [isGap, Bool.or_eq_true, beq_iff_eq] at hg
    rcases hg with ((rfl | rfl) | rfl) | rfl <;> exact absurd h (by decide)

theorem IsWord.dropGap_append {w : List Char} (h : IsWord w) (s : List Char) :
    dropGap (w ++ s) = w ++ s := by
  cases w with
  | nil => exact h.elim
  | cons c w => exact dropGap_cons_of_not_gap (isGap_eq_false_of_start h.1) _

/-! ## Tokens -/

/-- A mark of punctuation. -/
inductive Mark where
  | dot
  | opening
  | closing
deriving DecidableEq, Repr

def Mark.char : Mark → Char
  | dot => '.'
  | opening => '('
  | closing => ')'

theorem Mark.isGap_char (m : Mark) : isGap m.char = false := by
  cases m <;> decide

/-- A token of path expressions. -/
inductive Token where
  | word (name : String)
  | mark (mark : Mark)
deriving DecidableEq, Repr

/-- The text begins with the tokens, up to `rest`. Gaps may stand before, between and behind
tokens, and each word is as long as it can be. -/
inductive Scans : (s : List Char) → List Token → (rest : List Char) → Prop
  | done {s} : Scans s [] s
  | gap {c s ts r} : isGap c = true → Scans s ts r → Scans (c :: s) ts r
  | word {w s ts r} : IsWord w → EndsWord s → Scans s ts r →
      Scans (w ++ s) (.word (String.ofList w) :: ts) r
  | mark {m s ts r} : Scans s ts r → Scans (m.char :: s) (.mark m :: ts) r

/-- The text as a whole splits into the tokens. -/
def Splits (t : List Char) (ts : List Token) : Prop := Scans t ts []

section Scans

variable {s r : List Char} {ts us : List Token}

theorem Scans.of_dropGap (h : Scans (dropGap s) ts r) : Scans s ts r := by
  induction s with
  | nil => exact h
  | cons c s ih =>
    cases hc : isGap c with
    | true => exact .gap hc (ih (dropGap_cons_of_gap hc s ▸ h))
    | false => rwa [dropGap_cons_of_not_gap hc] at h

theorem scans_nil_iff : Scans s [] r ↔ ∃ g, (∀ c ∈ g, isGap c = true) ∧ s = g ++ r := by
  constructor
  · intro h
    generalize hts : ([] : List Token) = ts at h
    induction h with
    | done => exact ⟨[], nofun, rfl⟩
    | gap hc _ ih =>
      obtain ⟨g, hg, rfl⟩ := ih hts
      exact ⟨_ :: g, List.forall_mem_cons.2 ⟨hc, hg⟩, rfl⟩
    | word => cases hts
    | mark => cases hts
  · rintro ⟨g, hg, rfl⟩
    induction g with
    | nil => exact .done
    | cons c g ih => exact .gap (hg c List.mem_cons_self) (ih fun x hx => hg x (.tail c hx))

theorem Scans.dropGap_eq (h : Scans s [] r) : dropGap s = dropGap r := by
  obtain ⟨g, hg, rfl⟩ := scans_nil_iff.1 h
  exact List.dropWhile_append_of_pos hg

/-- The first token is a word if an identifier stands behind the gap. -/
theorem scans_word_iff {n : String} : Scans s (.word n :: ts) r ↔
    ∃ u, identifier? (dropGap s) = some (n, u) ∧ Scans u ts r := by
  constructor
  · intro h
    generalize hts : Token.word n :: ts = ts' at h
    induction h with
    | done => cases hts
    | gap hc _ ih =>
      rw [dropGap_cons_of_gap hc]
      exact ih hts
    | @word w s _ _ hw hs h _ =>
      cases hts
      rw [hw.dropGap_append]
      exact ⟨s, identifier?_eq_some_iff.2 ⟨w, hw, rfl, rfl, hs⟩, h⟩
    | mark => cases hts
  · rintro ⟨u, hu, h⟩
    obtain ⟨w, hw, rfl, hs, hends⟩ := identifier?_eq_some_iff.1 hu
    refine .of_dropGap ?_
    rw [hs]
    exact .word hw hends h

/-- The first token is a mark if its character stands behind the gap. -/
theorem scans_mark_iff {m : Mark} : Scans s (.mark m :: ts) r ↔
    ∃ u, dropGap s = m.char :: u ∧ Scans u ts r := by
  constructor
  · intro h
    generalize hts : Token.mark m :: ts = ts' at h
    induction h with
    | done => cases hts
    | gap hc _ ih =>
      rw [dropGap_cons_of_gap hc]
      exact ih hts
    | word => cases hts
    | mark h _ =>
      cases hts
      exact ⟨_, dropGap_cons_of_not_gap (Mark.isGap_char m) _, h⟩
  · rintro ⟨u, hu, h⟩
    refine .of_dropGap ?_
    rw [hu]
    exact .mark h

theorem scans_append_iff : Scans s (ts ++ us) r ↔ ∃ q, Scans s ts q ∧ Scans q us r := by
  constructor
  · intro h
    induction ts generalizing s with
    | nil => exact ⟨s, .done, h⟩
    | cons t ts ih =>
      cases t with
      | word n =>
        obtain ⟨u, hu, h⟩ := scans_word_iff.1 h
        obtain ⟨q, hq, h⟩ := ih h
        exact ⟨q, scans_word_iff.2 ⟨u, hu, hq⟩, h⟩
      | mark m =>
        obtain ⟨u, hu, h⟩ := scans_mark_iff.1 h
        obtain ⟨q, hq, h⟩ := ih h
        exact ⟨q, scans_mark_iff.2 ⟨u, hu, hq⟩, h⟩
  · rintro ⟨q, hs, hq⟩
    induction hs with
    | done => exact hq
    | gap hc _ ih => exact .gap hc (ih hq)
    | word hw hends _ ih => exact .word hw hends (ih hq)
    | mark _ ih => exact .mark (ih hq)

theorem Scans.append (hs : Scans s ts r) {q : List Char} (hr : Scans r us q) :
    Scans s (ts ++ us) q := scans_append_iff.2 ⟨r, hs, hr⟩

/-- A text begins with the same tokens if something else stands in place of the rest, as long as
that does not prolong a word. -/
theorem Scans.exists_append (h : Scans s ts r) :
    ∃ t, s = t ++ r ∧ ∀ b, (EndsWord r → EndsWord b) → Scans (t ++ b) ts b := by
  induction h with
  | done => exact ⟨[], rfl, fun b _ => .done⟩
  | @gap c _ _ _ hc _ ih =>
    obtain ⟨t, rfl, ht⟩ := ih
    exact ⟨c :: t, rfl, fun b hb => .gap hc (ht b hb)⟩
  | @word w _ _ r hw hends _ ih =>
    obtain ⟨t, rfl, ht⟩ := ih
    refine ⟨w ++ t, (List.append_assoc _ _ _).symm, fun b hb => ?_⟩
    rw [List.append_assoc]
    refine .word hw ?_ (ht b hb)
    cases t with
    | nil => exact hb hends
    | cons c t => exact hends
  | @mark m _ _ _ _ ih =>
    obtain ⟨t, rfl, ht⟩ := ih
    exact ⟨m.char :: t, rfl, fun b hb => .mark (ht b hb)⟩

/-- What stands before the rest splits into the tokens. -/
theorem Scans.exists_splits (h : Scans s ts r) : ∃ t, s = t ++ r ∧ Splits t ts := by
  obtain ⟨t, hs, ht⟩ := h.exists_append
  have hsplits := ht [] fun _ => nofun
  rw [List.append_nil] at hsplits
  exact ⟨t, hs, hsplits⟩

/-- A text that splits into tokens goes on to split that way before anything but a character of a
word. -/
theorem Splits.scans_append {t b : List Char} (h : Splits t ts) (hb : EndsWord b) :
    Scans (t ++ b) ts b := by
  obtain ⟨t', ht', hscans⟩ := Scans.exists_append h
  rw [List.append_nil] at ht'
  exact ht' ▸ hscans b fun _ => hb

end Scans

end QueryPath.Expr
