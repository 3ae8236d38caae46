import QueryPath.Proofs.Expr.Reading

/-!
# The text of an expression

The written form of an expression splits into its tokens (`scans_text`), from which the grammar
derives the expression again. So writing and reading are inverse as long as names are identifiers,
whether or not they are keywords elsewhere. Each step stands in the text as one dot or one opening
parenthesis, whichever way the expression is written (`steps_eq`), so the bound on characters is
the bound on steps.
-/

namespace QueryPath.Expr

open Text
open Reader (isIdentifierRest)

/-- All names in the expression are identifiers. -/
def Spellable : Expr → Prop
  | root n => IsIdentifier n
  | member base n | treat base n => base.Spellable ∧ IsIdentifier n
  | part _ base => base.Spellable

instance decidableSpellable : (e : Expr) → Decidable e.Spellable
  | root n => inferInstanceAs (Decidable (IsIdentifier n))
  | member base _ | treat base _ =>
      have := decidableSpellable base
      inferInstanceAs (Decidable (_ ∧ _))
  | part _ base => decidableSpellable base

/-- The tokens of the written form. -/
def tokens : Expr → List Token
  | root n => [.word n]
  | member base n => base.tokens ++ [.mark .dot, .word n]
  | treat base target => .word "treat" :: .mark .opening ::
      (base.tokens ++ [.word "as", .word target, .mark .closing])
  | part f base => .word f.name :: .mark .opening :: (base.tokens ++ [.mark .closing])

/-! ## Writing -/

/-- An attribute may follow any path. -/
theorem Derives.member {ts : List Token} {e : Expr} (h : Derives .path ts e) (n : String) :
    Derives .path (ts ++ [.mark .dot, .word n]) (e.member n) := by
  cases h with
  | @path ts e names h =>
    have hpath := Derives.path (names ++ [n]) h
    rwa [List.flatMap_append, List.flatMap_singleton, ← List.append_assoc,
      List.foldl_append] at hpath

theorem Derives.of_primary {ts : List Token} {e : Expr} (h : Derives .primary ts e) :
    Derives .path ts e := by
  have hpath := Derives.path [] h
  rwa [List.flatMap_nil, List.append_nil] at hpath

theorem derives_tokens (e : Expr) : Derives .path e.tokens e := by
  induction e with
  | root n => exact .of_primary .name
  | member base n ih => exact ih.member n
  | treat base target ih =>
    have htreat : Spells "treat" "treat" := by decide
    have has : Spells "as" "as" := by decide
    exact .of_primary (.treat htreat ih has)
  | part f base ih =>
    have hf : Spells f.name f.name := by cases f <;> decide
    exact .of_primary (.part hf ih)

/-- An identifier is a token of its own before anything but a character of a word. -/
theorem Scans.identifier {n : String} (hn : IsIdentifier n) {s r : List Char} {ts : List Token}
    (hs : EndsWord s) (h : Scans s ts r) : Scans (n.toList ++ s) (.word n :: ts) r := by
  have hword := Scans.word (isIdentifier_iff.1 hn) hs h
  rwa [String.ofList_toList] at hword

theorem endsWord_mark (m : Mark) (s : List Char) : EndsWord (m.char :: s) := by
  intro c hc
  cases hc
  cases m <;> decide

theorem isIdentifier_functionName (f : PartFunction) : IsIdentifier f.name := by
  cases f <;> decide

/-- The text of an expression splits into its tokens. -/
theorem scans_text {e : Expr} (he : e.Spellable) {r : List Char} (hr : EndsWord r) :
    Scans (e.text.toList ++ r) e.tokens r := by
  induction e generalizing r with
  | root n => exact .identifier he hr .done
  | member base n ih =>
    have htext : (member base n).text.toList ++ r =
        base.text.toList ++ (Mark.dot.char :: (n.toList ++ r)) := by
      simp [text, String.toList_append, toString, Mark.char]
    rw [htext]
    exact (ih he.1 (endsWord_mark _ _)).append (.mark (.identifier he.2 hr .done))
  | treat base target ih =>
    have htext : (treat base target).text.toList ++ r = "treat".toList ++ (Mark.opening.char ::
        (base.text.toList ++ (' ' :: ("as".toList ++ (' ' ::
          (target.toList ++ (Mark.closing.char :: r))))))) := by
      simp [text, String.toList_append, toString, Mark.char]
    rw [htext]
    have hgap : isGap ' ' = true := by decide
    refine .identifier (by decide) (endsWord_mark _ _) (.mark ?_)
    refine (ih he.1 (endsWord_of_isGap hgap _)).append (.gap hgap ?_)
    refine .identifier (by decide) (endsWord_of_isGap hgap _) (.gap hgap ?_)
    exact .identifier he.2 (endsWord_mark _ _) (.mark .done)
  | part f base ih =>
    have htext : (part f base).text.toList ++ r = f.name.toList ++ (Mark.opening.char ::
        (base.text.toList ++ (Mark.closing.char :: r))) := by
      simp [text, String.toList_append, toString, Mark.char]
    rw [htext]
    refine .identifier (isIdentifier_functionName f) (endsWord_mark _ _) (.mark ?_)
    exact (ih he (endsWord_mark _ _)).append (.mark .done)

theorem written_text {e : Expr} (he : e.Spellable) : Written e.text e := by
  have hends : EndsWord [] := nofun
  refine ⟨e.text.toList, [], e.tokens, (List.append_nil _).symm, nofun, ?_, derives_tokens e⟩
  have hscans := scans_text he hends
  rwa [List.append_nil] at hscans

/-! ## Counting steps -/

/-- Whether the token begins a step. -/
def Token.isStep : Token → Bool
  | mark .dot | mark .opening => true
  | mark .closing | word _ => false

section NoStep

variable {p : Char → Bool} (hdot : p '.' = false) (hopen : p '(' = false)

include hdot hopen

theorem isStep_eq_false {c : Char} (h : p c = true) : isStep c = false := by
  rw [isStep, Bool.or_eq_false_iff, beq_eq_false_iff_ne, beq_eq_false_iff_ne]
  constructor
  · rintro rfl
    exact absurd h (Bool.eq_false_iff.1 hdot)
  · rintro rfl
    exact absurd h (Bool.eq_false_iff.1 hopen)

/-- No step begins among characters of which neither a dot nor an opening parenthesis is one. -/
theorem countP_isStep_eq_zero {s : List Char} (h : ∀ c ∈ s, p c = true) :
    s.countP isStep = 0 :=
  List.countP_eq_zero.2 fun c hc => Bool.eq_false_iff.1 (isStep_eq_false hdot hopen (h c hc))

end NoStep

/-- A text has as many characters that begin steps as its tokens and its rest have. -/
theorem Scans.countP_eq {s r : List Char} {ts : List Token} (h : Scans s ts r) :
    s.countP isStep = ts.countP Token.isStep + r.countP isStep := by
  induction h with
  | done => simp
  | gap hc _ ih =>
    rw [List.countP_cons, isStep_eq_false (by decide) (by decide) hc, ih]
    rfl
  | word hw _ _ ih =>
    have hword := countP_isStep_eq_zero (by decide) (by decide) hw.isIdentifierRest
    rw [List.countP_append, hword, ih, List.countP_cons]
    simp [Token.isStep]
  | @mark m _ _ _ _ ih =>
    rw [List.countP_cons, List.countP_cons, ih]
    cases m <;> simp [isStep, Mark.char, Token.isStep] <;> omega

theorem steps_foldl_member (names : List String) (e : Expr) :
    (names.foldl .member e).steps = e.steps + names.length := by
  induction names generalizing e with
  | nil => rfl
  | cons n names ih =>
    rw [List.foldl_cons, ih, steps, List.length_cons]
    omega

/-- A derived expression has as many steps as its tokens begin. -/
theorem Derives.steps_eq {x : Nonterminal} {ts : List Token} {e : Expr} (h : Derives x ts e) :
    e.steps = ts.countP Token.isStep := by
  induction h with
  | path names _ ih =>
    have hnames : (names.flatMap fun n => [Token.mark .dot, .word n]).countP Token.isStep =
        names.length := by
      induction names with
      | nil => rfl
      | cons n names ih =>
        rw [List.flatMap_cons, List.countP_append, ih, List.length_cons, Nat.add_comm]
        rfl
    rw [steps_foldl_member, List.countP_append, hnames, ih]
  | treat _ _ _ ih | part _ _ ih =>
    simp [steps, List.countP_cons, List.countP_append, Token.isStep, ih]
  | name => rfl

theorem Written.steps_eq {text : String} {e : Expr} (h : Written text e) :
    e.steps = text.toList.countP isStep := by
  obtain ⟨t, b, ts, htext, hb, hsplits, hderives⟩ := h
  have hblank := countP_isStep_eq_zero (by decide) (by decide) hb
  rw [hderives.steps_eq, htext, List.countP_append, hblank, hsplits.countP_eq]
  rfl

/-! ## Names -/

theorem Scans.isIdentifier {s r : List Char} {ts : List Token} (h : Scans s ts r) {n : String}
    (hn : .word n ∈ ts) : IsIdentifier n := by
  induction h with
  | done => cases hn
  | gap _ _ ih => exact ih hn
  | word hw _ _ ih =>
    rcases List.mem_cons.1 hn with hn | hn
    · cases hn
      exact isIdentifier_iff.2 (by rwa [String.toList_ofList])
    · exact ih hn
  | mark _ ih =>
    rcases List.mem_cons.1 hn with hn | hn
    · cases hn
    · exact ih hn

theorem spellable_foldl_member {names : List String} {e : Expr} (he : e.Spellable)
    (hnames : ∀ n ∈ names, IsIdentifier n) : (names.foldl .member e).Spellable := by
  induction names generalizing e with
  | nil => exact he
  | cons n names ih =>
    obtain ⟨hn, hnames⟩ := List.forall_mem_cons.1 hnames
    exact ih ⟨he, hn⟩ hnames

/-- The names in a derived expression are words of its tokens. -/
theorem Derives.spellable {x : Nonterminal} {ts : List Token} {e : Expr} (h : Derives x ts e)
    (hts : ∀ n, .word n ∈ ts → IsIdentifier n) : e.Spellable := by
  induction h with
  | path names _ ih =>
    refine spellable_foldl_member (ih fun n hn => hts n (List.mem_append_left _ hn)) fun n hn => ?_
    exact hts n (List.mem_append_right _ (List.mem_flatMap.2 ⟨n, hn, .tail _ List.mem_cons_self⟩))
  | treat _ _ _ ih =>
    exact ⟨ih fun n hn => hts n (by simp [hn]), hts _ (by simp)⟩
  | part _ _ ih => exact ih fun n hn => hts n (by simp [hn])
  | name => exact hts _ List.mem_cons_self

theorem Written.spellable {text : String} {e : Expr} (h : Written text e) : e.Spellable := by
  obtain ⟨t, b, ts, -, -, hsplits, hderives⟩ := h
  exact hderives.spellable fun _ hn => Scans.isIdentifier hsplits hn

/-! ## Reading what was written -/

/-- Only the number of its steps keeps a path expression from being read. -/
theorem Written.read_eq {text : String} {e : Expr} (h : Written text e) :
    read text = if e.steps ≤ maxSteps then .ok e else .error .tooManySteps := by
  split
  · rename_i hsteps
    exact read_eq_ok_iff.2 ⟨h.steps_eq ▸ hsteps, h⟩
  · rename_i hsteps
    rw [h.steps_eq, Nat.not_le] at hsteps
    obtain ⟨r, hr, -⟩ := written_iff.1 h
    simp only [read, not_isBlank_of_path hr, hsteps, if_true, Bool.false_eq_true, if_false]

/-- The written form of an expression is read as that expression, up to the bound on steps. What
was read has as many steps as its text has dots and opening parentheses, so its written form can
be read again. -/
theorem read_text :
    (∀ e : Expr, e.Spellable →
      read e.text = if e.steps ≤ 256 then .ok e else .error .tooManySteps) ∧
    ∀ text e, read text = .ok e →
      e.steps = text.toList.count '.' + text.toList.count '(' ∧ read e.text = .ok e := by
  refine ⟨fun e he => (written_text he).read_eq, fun text e h => ?_⟩
  obtain ⟨hsteps, hwritten⟩ := read_eq_ok_iff.1 h
  rw [← hwritten.steps_eq] at hsteps
  constructor
  · rw [hwritten.steps_eq, countP_isStep]
  · rw [(written_text hwritten.spellable).read_eq, if_pos hsteps]

/-- Keywords are read back where they stand as names. -/
theorem read_text_keywords :
    let e : Expr := .treat (.part .key (.member (.root "treat") "as")) "key"
    e.Spellable ∧ e.text = "treat(key(treat.as) as key)" ∧ read e.text = .ok e ∧
      e.steps = e.text.toList.count '.' + e.text.toList.count '(' := by
  intro e
  have he : e.Spellable := by decide
  have hread : read e.text = .ok e := (read_text.1 e he).trans (if_pos (by decide))
  exact ⟨he, by decide, hread, (read_text.2 e.text e hread).1⟩

end QueryPath.Expr
