import Mathlib.Data.List.TakeWhile
import QueryPath.Proofs.Expr.Keyword

/-!
# Reading is deriving

The reader accepts a text exactly if it is a path expression, up to the bound on steps
(`read_eq_ok_iff`).

The reader does not go back behind a keyword and its parenthesis, and need not: a word that an
opening parenthesis follows stands for nothing else in the grammar. Where the tokens of a path end,
neither a dot nor an opening parenthesis follows (`Stops`), and so the reader ends there, too.
-/

namespace QueryPath.Expr

open Text
open Reader

/-! ## Parts of the reader -/

section Parts

variable {s r : List Char} {base e : Expr}

theorem members_of_dot {u v : List Char} {n : String} (hs : dropGap s = Mark.dot.char :: u)
    (hn : identifier? (dropGap u) = some (n, v)) :
    members base s = members (base.member n) v := by
  rw [members]
  split
  · rename_i t ht
    rw [hs, Mark.char, List.cons.injEq] at ht
    obtain ⟨-, rfl⟩ := ht
    split
    · rename_i m w hm
      rw [hn, Option.some.injEq, Prod.mk.injEq] at hm
      rw [hm.1, hm.2]
    · rename_i hm
      rw [hn] at hm
      cases hm
  · rename_i hne
    exact absurd hs (hne u)

theorem members_of_stop (hs : ∀ u, dropGap s ≠ Mark.dot.char :: u) :
    members base s = .ok (base, s) := by
  rw [members]
  split
  · rename_i t ht
    exact absurd ht (hs t)
  · rfl

theorem scans_of_members (h : members base s = .ok (e, r)) : ∃ names : List String,
    e = names.foldl .member base ∧
      Scans s (names.flatMap fun n => [.mark .dot, .word n]) r := by
  fun_induction members base s with
  | case1 base s u hs n v hn ih =>
    obtain ⟨names, rfl, hscans⟩ := ih h
    exact ⟨n :: names, rfl, scans_mark_iff.2 ⟨u, hs, scans_word_iff.2 ⟨v, hn, hscans⟩⟩⟩
  | case2 base s u hs hn => cases h
  | case3 base s hne =>
    cases h
    exact ⟨[], rfl, .done⟩

theorem close_eq_ok_iff : close base s = .ok (e, r) ↔
    e = base ∧ dropGap s = Mark.closing.char :: r := by
  unfold close
  split
  · rename_i t ht
    rw [ht, Mark.char]
    simp [eq_comm]
  · rename_i hne
    constructor
    · intro h
      cases h
    · rintro ⟨-, h⟩
      exact absurd h (hne r)

/-- Behind the path of a narrowing stand the keyword, the name of the target and the closing
parenthesis. -/
theorem treatTarget_eq_ok_iff : treatTarget base s = .ok (e, r) ↔
    ∃ a u target v, identifier? (dropGap s) = some (a, u) ∧ Spells a "as" ∧
      identifier? (dropGap u) = some (target, v) ∧ dropGap v = Mark.closing.char :: r ∧
      e = base.treat target := by
  have isKeyword : IsKeyword "as" := by decide
  constructor
  · intro h
    unfold treatTarget at h
    split at h
    · cases h
    · rename_i u hu
      split at h
      · rename_i hgap
        have hends : EndsWord u := by
          cases u with
          | nil => cases hgap
          | cons c u => exact endsWord_of_isGap hgap u
        obtain ⟨a, ha, hspells⟩ := exists_identifier?_of_dropWord? isKeyword hu hends
        split at h
        · cases h
        · rename_i target v hv
          obtain ⟨rfl, hclose⟩ := close_eq_ok_iff.1 h
          exact ⟨a, u, target, v, ha, hspells, hv, hclose, rfl⟩
      · cases h
  · rintro ⟨a, u, target, v, ha, hspells, hv, hclose, rfl⟩
    have hgap : (u.head?.map isGap).getD false = true := by
      obtain ⟨w, -, -, -, hends⟩ := identifier?_eq_some_iff.1 ha
      obtain ⟨c, t, hc, hstart⟩ := exists_start_of_identifier? hv
      exact head?_isGap hends hc (isIdentifierRest_of_start hstart)
    unfold treatTarget
    rw [show ['a', 's'] = "as".toList from rfl, dropWord?_of_identifier? ha hspells]
    simp only [hgap, if_true, hv]
    exact close_eq_ok_iff.2 ⟨rfl, hclose⟩

end Parts

/-! ## What is read is derived -/

section Sound

variable {s r : List Char} {e : Expr}

theorem within_eq_ok_iff {α : Type} {c : Construct} {x : Result α} {a : α × List Char} :
    within c x = .ok a ↔ x = .ok a := by
  cases x <;> simp [within]

/-- A function with its path is a primary. -/
theorem exists_derives_of_tail {n : String} {u inner rest : List Char} {head : Head}
    {base : Expr} {ts : List Token} (hn : identifier? (dropGap s) = some (n, u))
    (hspells : Spells n head.name) (hopen : dropGap u = Mark.opening.char :: inner)
    (hderives : Derives .path ts base) (hscans : Scans inner ts rest)
    (htail : tail head base rest = .ok (e, r)) :
    ∃ ts, Derives .primary ts e ∧ Scans s ts r := by
  have begins : ∀ {us}, Scans rest us r →
      Scans s (.word n :: .mark .opening :: (ts ++ us)) r := fun h =>
    scans_word_iff.2 ⟨u, hn, scans_mark_iff.2 ⟨inner, hopen, hscans.append h⟩⟩
  cases head with
  | treat =>
    obtain ⟨a, v, target, w, ha, has, hw, hclose, rfl⟩ := treatTarget_eq_ok_iff.1 htail
    refine ⟨_, .treat hspells hderives has, begins ?_⟩
    exact scans_word_iff.2 ⟨v, ha, scans_word_iff.2 ⟨w, hw, scans_mark_iff.2 ⟨r, hclose, .done⟩⟩⟩
  | part f =>
    obtain ⟨rfl, hclose⟩ := close_eq_ok_iff.1 htail
    exact ⟨_, .part hspells hderives, begins (scans_mark_iff.2 ⟨r, hclose, .done⟩)⟩

/-- A primary with the attributes behind it is a path. -/
theorem exists_derives_of_members {q : List Char} {base : Expr} {ts : List Token}
    (hderives : Derives .primary ts base) (hscans : Scans s ts q)
    (h : members base q = .ok (e, r)) : ∃ ts, Derives .path ts e ∧ Scans s ts r := by
  obtain ⟨names, rfl, hnames⟩ := scans_of_members h
  exact ⟨_, .path names hderives, hscans.append hnames⟩

/-- What the reader takes for a path is derived from the tokens that it has read. -/
theorem exists_derives_of_path (h : path s = .ok (e, r)) :
    ∃ ts, Derives .path ts e ∧ Scans s ts r := by
  fun_induction path s generalizing e r with
  | case1 s head inner hs f hf => cases h
  | case2 s head inner hs base rest hbase f hf => cases h
  | case3 s head inner hs base rest hbase e' rest' htail ih =>
    obtain ⟨n, u, hn, hspells, hopen⟩ := head?_eq_some_iff.1 hs
    obtain ⟨ts, hderives, hscans⟩ := ih (within_eq_ok_iff.1 hbase)
    obtain ⟨us, hprimary, hus⟩ :=
      exists_derives_of_tail hn hspells hopen hderives hscans htail
    exact exists_derives_of_members hprimary hus h
  | case4 s hs n rest hn =>
    exact exists_derives_of_members .name (scans_word_iff.2 ⟨rest, hn, .done⟩) h
  | case5 s hs hn => cases h

end Sound

/-! ## What is derived is read -/

/-- Behind the gap, what cannot go on a path follows: neither a dot nor an opening parenthesis. -/
structure Stops (r : List Char) : Prop where
  dot : ∀ u, dropGap r ≠ Mark.dot.char :: u
  opening : ∀ u, dropGap r ≠ Mark.opening.char :: u

section Complete

variable {s r : List Char}

theorem stops_of_identifier? {n : String} {u : List Char}
    (h : identifier? (dropGap r) = some (n, u)) : Stops r := by
  obtain ⟨c, t, hc, hstart⟩ := exists_start_of_identifier? h
  constructor <;>
    · intro v hv
      rw [hc, List.cons.injEq] at hv
      rw [hv.1] at hstart
      exact absurd hstart (by decide)

theorem stops_of_closing {u : List Char} (h : dropGap r = Mark.closing.char :: u) : Stops r := by
  constructor <;>
    · intro v hv
      rw [h, List.cons.injEq] at hv
      exact absurd hv.1 (by decide)

theorem path_of_head {head : Head} {inner rest rest' : List Char} {base e : Expr}
    (hs : head? (dropGap s) = some (head, inner)) (hbase : path inner = .ok (base, rest))
    (htail : tail head base rest = .ok (e, rest')) : path s = members e rest' := by
  rw [path]
  split
  · rename_i head' inner' hs'
    rw [hs, Option.some.injEq, Prod.mk.injEq] at hs'
    obtain ⟨rfl, rfl⟩ := hs'
    rw [within_eq_ok_iff.2 hbase]
    simp only [htail]
  · rename_i hs'
    rw [hs] at hs'
    cases hs'

theorem path_of_name {n : String} {rest : List Char} (hs : head? (dropGap s) = none)
    (hn : identifier? (dropGap s) = some (n, rest)) : path s = members (.root n) rest := by
  rw [path]
  split
  · rename_i hs'
    rw [hs] at hs'
    cases hs'
  · rw [hn]

/-- The reader does not care for the gap before the rest. -/
theorem members_of_scans {names : List String} {base : Expr} {q : List Char}
    (hs : Scans s (names.flatMap fun n => [.mark .dot, .word n]) r) (hr : Stops r)
    (hq : dropGap q = dropGap s) :
    ∃ r', members base q = .ok (names.foldl .member base, r') ∧ dropGap r' = dropGap r := by
  induction names generalizing base s q with
  | nil =>
    have hdrop := hq.trans hs.dropGap_eq
    exact ⟨q, members_of_stop (hdrop ▸ hr.dot), hdrop⟩
  | cons n names ih =>
    obtain ⟨u, hu, hs⟩ := scans_mark_iff.1 hs
    obtain ⟨v, hv, hs⟩ := scans_word_iff.1 hs
    rw [members_of_dot (hq.trans hu) hv]
    exact ih hs rfl

/-- What the reader makes of a text that begins with the tokens of the symbol. -/
def Reads (s : List Char) (e : Expr) (r : List Char) : Nonterminal → Prop
  | .path => Stops r → ∃ r', path s = .ok (e, r') ∧ dropGap r' = dropGap r
  | .primary => (∀ u, dropGap r ≠ Mark.opening.char :: u) →
      ∃ r', path s = members e r' ∧ dropGap r' = dropGap r

/-- A word that no opening parenthesis follows begins no function. -/
theorem head?_eq_none {n : String} {u : List Char} (hn : identifier? s = some (n, u))
    (hopen : ∀ v, dropGap u ≠ Mark.opening.char :: v) : head? s = none := by
  cases h : head? s with
  | none => rfl
  | some x =>
    obtain ⟨n', u', hn', -, hopen'⟩ := head?_eq_some_iff.1 h
    rw [hn, Option.some.injEq, Prod.mk.injEq] at hn'
    exact absurd (hn'.2 ▸ hopen') (hopen _)

theorem Derives.reads {x : Nonterminal} {ts : List Token} {e : Expr} (h : Derives x ts e)
    (hs : Scans s ts r) : Reads s e r x := by
  induction h generalizing s r with
  | path names _ ih =>
    intro hr
    obtain ⟨q, hq, hnames⟩ := scans_append_iff.1 hs
    have hopen : ∀ u, dropGap q ≠ Mark.opening.char :: u := by
      cases names with
      | nil => exact hnames.dropGap_eq ▸ hr.opening
      | cons n names =>
        obtain ⟨u, hu, -⟩ := scans_mark_iff.1 hnames
        intro v hv
        rw [hu, List.cons.injEq] at hv
        exact absurd hv.1 (by decide)
    obtain ⟨q', hpath, hq'⟩ := ih hq hopen
    rw [hpath]
    exact members_of_scans hnames hr hq'
  | @treat k ts e a target hk _ ha ih =>
    intro _
    obtain ⟨u, hu, hs⟩ := scans_word_iff.1 hs
    obtain ⟨inner, hopen, hs⟩ := scans_mark_iff.1 hs
    obtain ⟨q, hq, hs⟩ := scans_append_iff.1 hs
    obtain ⟨v, hv, hs⟩ := scans_word_iff.1 hs
    obtain ⟨w, hw, hs⟩ := scans_word_iff.1 hs
    obtain ⟨z, hz, hs⟩ := scans_mark_iff.1 hs
    obtain ⟨q', hpath, hq'⟩ := ih hq (stops_of_identifier? hv)
    have hhead : head? (dropGap s) = some (.treat, inner) :=
      head?_eq_some_iff.2 ⟨k, u, hu, hk, hopen⟩
    have htail : tail .treat e q' = .ok (.treat e target, z) :=
      treatTarget_eq_ok_iff.2 ⟨a, v, target, w, hq' ▸ hv, ha, hw, hz, rfl⟩
    exact ⟨z, path_of_head hhead hpath htail, hs.dropGap_eq⟩
  | @part k f ts e hk _ ih =>
    intro _
    obtain ⟨u, hu, hs⟩ := scans_word_iff.1 hs
    obtain ⟨inner, hopen, hs⟩ := scans_mark_iff.1 hs
    obtain ⟨q, hq, hs⟩ := scans_append_iff.1 hs
    obtain ⟨z, hz, hs⟩ := scans_mark_iff.1 hs
    obtain ⟨q', hpath, hq'⟩ := ih hq (stops_of_closing hz)
    have hhead : head? (dropGap s) = some (.part f, inner) :=
      head?_eq_some_iff.2 ⟨k, u, hu, hk, hopen⟩
    have htail : tail (.part f) e q' = .ok (.part f e, z) :=
      close_eq_ok_iff.2 ⟨rfl, hq' ▸ hz⟩
    exact ⟨z, path_of_head hhead hpath htail, hs.dropGap_eq⟩
  | @name n =>
    intro hopen
    obtain ⟨u, hu, hs⟩ := scans_word_iff.1 hs
    have hhead := head?_eq_none hu (hs.dropGap_eq ▸ hopen)
    exact ⟨u, path_of_name hhead hu, hs.dropGap_eq⟩

end Complete

/-! ## Whole texts -/

theorem isBlank_eq_false_of_rest {c : Char} (h : isIdentifierRest c = true) :
    isBlank c = false := by
  have hn : (48 ≤ c.toNat ∧ c.toNat ≤ 57) ∨ (65 ≤ c.toNat ∧ c.toNat ≤ 90) ∨ c.toNat = 95 ∨
      (97 ≤ c.toNat ∧ c.toNat ≤ 122) := by
    have h : (decide (c.val ≥ 65 ∧ c.val ≤ 90) || (decide (c.val ≥ 97) && decide (c.val ≤ 122)) ||
        c.isDigit || c == '_') = true := h
    simp only [Char.isDigit, Bool.or_eq_true, Bool.and_eq_true, decide_eq_true_eq,
      UInt32.le_iff_toNat_le, ge_iff_le, beq_iff_eq] at h
    rcases h with ((h | h) | h) | rfl
    · exact .inr (.inl h)
    · exact .inr (.inr (.inr h))
    · exact .inl h
    · exact .inr (.inr (.inl rfl))
  simp only [isBlank, Bool.or_eq_false_iff, Bool.and_eq_false_iff, decide_eq_false_iff_not,
    beq_eq_false_iff_ne]
  omega

section Blank

variable {b : List Char} (hb : ∀ c ∈ b, isBlank c = true)

include hb

theorem endsWord_of_isBlank : EndsWord b := by
  intro c hc
  cases hrest : isIdentifierRest c with
  | false => rfl
  | true =>
    have hblank := hb c (List.mem_of_mem_head? hc)
    rw [isBlank_eq_false_of_rest hrest] at hblank
    cases hblank

theorem stops_of_isBlank : Stops b := by
  constructor <;>
    · intro u hu
      have hmem := (List.dropWhile_sublist isGap).subset (hu ▸ List.mem_cons_self)
      exact absurd (hb _ hmem) (by decide)

/-- A gap before white space is white space. -/
theorem isBlank_of_dropGap_eq {r : List Char} (h : dropGap r = dropGap b) :
    ∀ c ∈ r, isBlank c = true := by
  intro c hc
  rw [← List.takeWhile_append_dropWhile (p := isGap) (l := r), List.mem_append] at hc
  rcases hc with hc | hc
  · exact isBlank_of_isGap (List.all_eq_true.1 List.all_takeWhile c hc)
  · have hmem : c ∈ dropGap b := h ▸ hc
    exact hb c ((List.dropWhile_sublist isGap).subset hmem)

end Blank

/-- The text begins with the tokens of the expression, and white space is all that follows. -/
theorem written_iff_scans {text : String} {e : Expr} : Written text e ↔
    ∃ ts r, Derives .path ts e ∧ Scans text.toList ts r ∧ ∀ c ∈ r, isBlank c = true := by
  constructor
  · rintro ⟨t, b, ts, htext, hb, hsplits, hderives⟩
    exact ⟨ts, b, hderives, htext ▸ hsplits.scans_append (endsWord_of_isBlank hb), hb⟩
  · rintro ⟨ts, r, hderives, hscans, hr⟩
    obtain ⟨t, htext, hsplits⟩ := hscans.exists_splits
    exact ⟨t, r, ts, htext, hr, hsplits, hderives⟩

theorem written_iff {text : String} {e : Expr} : Written text e ↔
    ∃ r, path text.toList = .ok (e, r) ∧ ∀ c ∈ r, isBlank c = true := by
  rw [written_iff_scans]
  constructor
  · rintro ⟨ts, b, hderives, hscans, hb⟩
    obtain ⟨r, hr, hdrop⟩ := hderives.reads hscans (stops_of_isBlank hb)
    exact ⟨r, hr, isBlank_of_dropGap_eq hb hdrop⟩
  · rintro ⟨r, hr, hblank⟩
    obtain ⟨ts, hderives, hscans⟩ := exists_derives_of_path hr
    exact ⟨ts, r, hderives, hscans, hblank⟩

theorem Written.unique {text : String} {e e' : Expr} (h : Written text e) (h' : Written text e') :
    e = e' := by
  obtain ⟨r, hr, -⟩ := written_iff.1 h
  obtain ⟨r', hr', -⟩ := written_iff.1 h'
  rw [hr, Except.ok.injEq, Prod.mk.injEq] at hr'
  exact hr'.1

/-- A path expression is not all white space. -/
theorem not_isBlank_of_path {s r : List Char} {e : Expr} (h : path s = .ok (e, r)) :
    s.all isBlank = false := by
  obtain ⟨ts, hderives, hscans⟩ := exists_derives_of_path h
  obtain ⟨n, us, rfl⟩ := hderives.begins
  obtain ⟨u, hu, -⟩ := scans_word_iff.1 hscans
  obtain ⟨c, t, hc, hstart⟩ := exists_start_of_identifier? hu
  have hmem := (List.dropWhile_sublist isGap).subset (hc ▸ List.mem_cons_self)
  refine List.all_eq_false.2 ⟨c, hmem, ?_⟩
  rw [isBlank_eq_false_of_rest (isIdentifierRest_of_start hstart)]
  exact Bool.false_ne_true

theorem read_eq_ok_iff {text : String} {e : Expr} :
    read text = .ok e ↔ text.toList.countP isStep ≤ maxSteps ∧ Written text e := by
  rw [written_iff]
  constructor
  · intro h
    simp only [read] at h
    split at h
    · cases h
    split at h
    · cases h
    rename_i hsteps
    split at h
    · cases h
    rename_i e' rest hpath
    split at h
    · rename_i hrest
      cases h
      exact ⟨Nat.not_lt.1 hsteps, rest, hpath, List.dropWhile_eq_nil_iff.1 hrest⟩
    · cases h
  · rintro ⟨hsteps, r, hr, hblank⟩
    have hrest : dropBlank r = [] := List.dropWhile_eq_nil_iff.2 hblank
    simp only [read, not_isBlank_of_path hr, Nat.not_lt.2 hsteps, hr, hrest, if_false,
      Bool.false_eq_true]

theorem countP_isStep (s : List Char) : s.countP isStep = s.count '.' + s.count '(' := by
  induction s with
  | nil => rfl
  | cons c s ih =>
    rw [List.countP_cons, List.count_cons, List.count_cons, ih]
    by_cases hdot : c = '.'
    · simp [isStep, hdot]
      omega
    · by_cases hopen : c = '('
      · simp [isStep, hopen]
        omega
      · simp [isStep, hdot, hopen]

/-- The reader accepts the texts with no more than 256 dots and opening parentheses that are path
expressions, and no text is two of them. -/
theorem read_eq_ok_iff_written :
    (∀ text e, read text = .ok e ↔
      text.toList.count '.' + text.toList.count '(' ≤ 256 ∧ Written text e) ∧
    ∀ text e e', Written text e → Written text e' → e = e' := by
  refine ⟨fun text e => ?_, fun text e e' h h' => h.unique h'⟩
  rw [read_eq_ok_iff, countP_isStep]
  rfl

end QueryPath.Expr
