import QueryPath.Proofs.Expr.Text

/-!
# Where reading stops

The reader stops at the first character that no path expression can go on with. What stands before
can be completed, and a space followed by a few words and closing parentheses is always enough
(`Continues`): no words run into each other, and no step is added that could exceed the bound.
Input behind an expression is reported from its first character that is not white space.
-/

namespace QueryPath.Expr

open Text
open Reader

/-! ## What stands before a rest -/

/-- A space prolongs no word. -/
theorem endsWord_append_space {p r : List Char} (b : List Char) (h : EndsWord (p ++ r)) :
    EndsWord (p ++ ' ' :: b) := by
  cases p with
  | nil => exact endsWord_of_isGap (by decide) b
  | cons c p => exact h

theorem scans_dropGap (s : List Char) : Scans s [] (dropGap s) := .of_dropGap .done

/-- What stands before the rest becomes a text whose tokens have the property, once a space and
something without steps is put in place of the rest. -/
def Continues (s rest : List Char) (P : List Token → Prop) : Prop :=
  ∃ before more ts, s = before ++ rest ∧ more.countP isStep = 0 ∧
    Splits (before ++ ' ' :: more) ts ∧ P ts

namespace Continues

variable {s r : List Char} {ts us : List Token} {P Q : List Token → Prop}

theorem here {more : List Char} (hmore : Splits (' ' :: more) us) (hsteps : more.countP isStep = 0)
    (h : P us) : Continues r r P :=
  ⟨[], more, us, rfl, hsteps, hmore, h⟩

theorem mono (h : Continues s r P) (hPQ : ∀ ts, P ts → Q ts) : Continues s r Q := by
  obtain ⟨before, more, ts, hs, hsteps, hsplits, hP⟩ := h
  exact ⟨before, more, ts, hs, hsteps, hsplits, hPQ ts hP⟩

/-- Tokens stand in front. -/
theorem behind {q : List Char} (hs : Scans s ts q) (h : Continues q r fun us => P (ts ++ us)) :
    Continues s r P := by
  obtain ⟨before, more, us, rfl, hsteps, hsplits, hP⟩ := h
  obtain ⟨t, rfl, ht⟩ := hs.exists_append
  refine ⟨t ++ before, more, ts ++ us, (List.append_assoc _ _ _).symm, hsteps, ?_, hP⟩
  rw [List.append_assoc]
  exact (ht _ (endsWord_append_space more)).append hsplits

/-- More is put at the end. -/
theorem before {more : List Char} (h : Continues s r P) (hmore : Splits (' ' :: more) us)
    (hsteps : more.countP isStep = 0) (hPQ : ∀ ts, P ts → Q (ts ++ us)) : Continues s r Q := by
  obtain ⟨before, more', ts, rfl, hsteps', hsplits, hP⟩ := h
  refine ⟨before, more' ++ ' ' :: more, ts ++ us, rfl, ?_, ?_, hPQ ts hP⟩
  · rw [List.countP_append, hsteps', List.countP_cons, hsteps]
    rfl
  · rw [← List.cons_append, ← List.append_assoc]
    have hscans := hsplits.scans_append (endsWord_of_isGap (c := ' ') (by decide) more)
    exact hscans.append hmore

end Continues

/-- The grammar derives an expression from the tokens. -/
def IsPath (ts : List Token) : Prop := ∃ e, Derives .path ts e

/-! ## Completions -/

theorem splits_closing : Splits [' ', Mark.closing.char] [.mark .closing] :=
  .gap (by decide) (.mark .done)

theorem splits_name : Splits [' ', 'x'] [.word "x"] :=
  .gap (by decide) (Scans.identifier (n := "x") (by decide) nofun .done)

theorem splits_target : Splits [' ', 'x', Mark.closing.char] [.word "x", .mark .closing] :=
  .gap (by decide)
    (Scans.identifier (n := "x") (by decide) (endsWord_mark .closing []) (.mark .done))

theorem splits_as : Splits [' ', 'a', 's', ' ', 'x', Mark.closing.char]
    [.word "as", .word "x", .mark .closing] :=
  .gap (by decide)
    (Scans.identifier (n := "as") (by decide) (endsWord_of_isGap (by decide) _) splits_target)

/-- What may stand behind the path in a function. -/
def Reader.Head.Ends (head : Head) (us : List Token) : Prop :=
  ∀ n ts e, Spells n head.name → Derives .path ts e →
    IsPath (.word n :: .mark .opening :: (ts ++ us))

theorem Reader.Head.ends_treat {a : String} (ha : Spells a "as") (target : String) :
    Head.treat.Ends [.word a, .word target, .mark .closing] :=
  fun _ _ _ hn h => ⟨_, .of_primary (.treat hn h ha)⟩

theorem Reader.Head.ends_part (f : PartFunction) : (Head.part f).Ends [.mark .closing] :=
  fun _ _ _ hn h => ⟨_, .of_primary (.part hn h)⟩

/-- Any function can be completed behind its path. -/
theorem Reader.Head.exists_ends (head : Head) : ∃ more us, Splits (' ' :: more) us ∧
    more.countP isStep = 0 ∧ head.Ends us := by
  cases head with
  | treat => exact ⟨_, _, splits_as, rfl, ends_treat (by decide) "x"⟩
  | part f => exact ⟨_, _, splits_closing, rfl, ends_part f⟩

/-! ## Failures of the parts -/

section Parts

variable {s r : List Char} {base : Expr} {f : Failure}

/-- Behind a dot a name may stand. -/
theorem continues_of_members {q : List Char} {ts : List Token} (hderives : Derives .path ts base)
    (hscans : Scans s ts q) (h : members base q = .error f) : Continues s f.rest IsPath := by
  fun_induction members base q generalizing ts with
  | case1 base q u hq n v hn ih =>
    refine ih (hderives.member n) (hscans.append ?_) h
    exact scans_mark_iff.2 ⟨u, hq, scans_word_iff.2 ⟨v, hn, .done⟩⟩
  | case2 base q u hq hn =>
    cases h
    have hdot : Scans q [.mark .dot] (dropGap u) :=
      scans_mark_iff.2 ⟨u, hq, scans_dropGap u⟩
    refine .behind (hscans.append hdot) (.here splits_name rfl ?_)
    rw [List.append_assoc]
    exact ⟨_, hderives.member "x"⟩
  | case3 base q hne => cases h

theorem continues_of_close {P : List Token → Prop} {e : Expr} (h : close e s = .error f)
    (hP : P [.mark .closing]) : Continues s f.rest P := by
  unfold close at h
  split at h
  · cases h
  · cases h
    exact .behind (scans_dropGap s) (.here splits_closing rfl hP)

/-- Behind the path of a narrowing may stand the keyword, the name of the target and the closing
parenthesis, and whatever has begun of them may be completed. -/
theorem continues_of_treatTarget (h : treatTarget base s = .error f) :
    Continues s f.rest Head.treat.Ends := by
  have isKeyword : IsKeyword "as" := by decide
  unfold treatTarget at h
  split at h
  · cases h
    exact .behind (scans_dropGap s) (.here splits_as rfl (Head.ends_treat (by decide) "x"))
  · rename_i u hu
    split at h
    · rename_i hgap
      have hends : EndsWord u := by
        cases u with
        | nil => cases hgap
        | cons c u => exact endsWord_of_isGap hgap u
      obtain ⟨a, ha, hspells⟩ := exists_identifier?_of_dropWord? isKeyword hu hends
      split at h
      · cases h
        refine .behind (scans_word_iff.2 ⟨u, ha, scans_dropGap u⟩) (.here splits_target rfl ?_)
        exact Head.ends_treat hspells "x"
      · rename_i target v hv
        have hscans : Scans s [.word a, .word target] v :=
          scans_word_iff.2 ⟨u, ha, scans_word_iff.2 ⟨v, hv, .done⟩⟩
        exact .behind hscans (continues_of_close h (Head.ends_treat hspells target))
    · cases h
      -- the keyword may be the beginning of a longer word, which is no token of this text
      obtain ⟨w, hw, hs⟩ := dropWord?_eq_some_iff.1 hu
      have hsplits : Splits (w ++ [' ', 'x', Mark.closing.char])
          [.word (String.ofList w), .word "x", .mark .closing] :=
        .word (isWord_of_map_toLower isKeyword hw) (endsWord_of_isGap (by decide) _) splits_target
      have has : Spells (String.ofList w) "as" := by rwa [Spells, String.toList_ofList]
      exact .behind (scans_dropGap s)
        ⟨w, ['x', Mark.closing.char], _, hs, rfl, hsplits, Head.ends_treat has "x"⟩

theorem continues_of_tail {head : Head} (h : tail head base s = .error f) :
    Continues s f.rest head.Ends := by
  cases head with
  | treat => exact continues_of_treatTarget h
  | part g => exact continues_of_close h (Head.ends_part g)

end Parts

/-! ## Failures of the reader -/

theorem within_eq_error {α : Type} {c : Construct} {x : Result α} {f : Failure}
    (h : within c x = .error f) : ∃ g, x = .error g ∧ f.rest = g.rest := by
  cases x with
  | ok a => cases h
  | error g =>
    cases h
    exact ⟨g, rfl, rfl⟩

/-- Wherever the reader stops, a path expression can go on from there. -/
theorem continues_of_path {s : List Char} {f : Failure} (h : path s = .error f) :
    Continues s f.rest IsPath := by
  fun_induction path s generalizing f with
  | case1 s head inner hs g hg ih =>
    cases h
    obtain ⟨g', hpath, hrest⟩ := within_eq_error hg
    obtain ⟨n, u, hn, hspells, hopen⟩ := head?_eq_some_iff.1 hs
    have hbegins : Scans s [.word n, .mark .opening] inner :=
      scans_word_iff.2 ⟨u, hn, scans_mark_iff.2 ⟨inner, hopen, .done⟩⟩
    obtain ⟨more, us, hmore, hsteps, hends⟩ := head.exists_ends
    rw [hrest]
    refine .behind hbegins ((ih hpath).before hmore hsteps ?_)
    rintro ts ⟨e, hderives⟩
    exact hends n ts e hspells hderives
  | case2 s head inner hs base rest hbase g hg ih =>
    cases h
    obtain ⟨n, u, hn, hspells, hopen⟩ := head?_eq_some_iff.1 hs
    obtain ⟨ts, hderives, hscans⟩ := exists_derives_of_path (within_eq_ok_iff.1 hbase)
    have hbegins : Scans s (.word n :: .mark .opening :: ts) rest :=
      scans_word_iff.2 ⟨u, hn, scans_mark_iff.2 ⟨inner, hopen, hscans⟩⟩
    exact .behind hbegins ((continues_of_tail hg).mono fun us hends =>
      hends n ts base hspells hderives)
  | case3 s head inner hs base rest hbase e rest' htail ih =>
    obtain ⟨n, u, hn, hspells, hopen⟩ := head?_eq_some_iff.1 hs
    obtain ⟨ts, hderives, hscans⟩ := exists_derives_of_path (within_eq_ok_iff.1 hbase)
    obtain ⟨us, hprimary, hus⟩ := exists_derives_of_tail hn hspells hopen hderives hscans htail
    exact continues_of_members (.of_primary hprimary) hus h
  | case4 s hs n rest hn =>
    exact continues_of_members (.of_primary .name) (scans_word_iff.2 ⟨rest, hn, .done⟩) h
  | case5 s hs hn =>
    cases h
    exact .behind (scans_dropGap s) (.here splits_name rfl ⟨_, .of_primary .name⟩)

/-! ## Errors -/

theorem byteLength_eq (s : List Char) : byteLength s = (String.ofList s).utf8ByteSize := by
  induction s with
  | nil => rfl
  | cons c s ih =>
    rw [byteLength, String.ofList_cons, String.utf8ByteSize_append, String.utf8ByteSize_singleton,
      ih]

/-- The rest of a text stands at its position in bytes. -/
theorem exists_before {text : String} {before rest : List Char}
    (h : text.toList = before ++ rest) :
    text = String.ofList before ++ String.ofList rest ∧
      offsetOf text.toList rest = (String.ofList before).utf8ByteSize := by
  constructor
  · rw [← String.ofList_append, ← h, String.ofList_toList]
  · rw [h, offsetOf_append, byteLength_eq]

/-- An error comes from where the reader stopped, in a text within the bound on steps. -/
theorem read_eq_error {text : String} {error : Error} (h : read text = .error error)
    (hempty : error ≠ .empty) (hsteps : error ≠ .tooManySteps) :
    text.toList.countP isStep ≤ maxSteps ∧
      ((∃ f, path text.toList = .error f ∧ error = .invalid (offsetOf text.toList f.rest)
          f.construct (String.ofList (f.rest.take nearLength))) ∨
        ∃ e r c t, path text.toList = .ok (e, r) ∧ dropBlank r = c :: t ∧
          error = .trailing (offsetOf text.toList (c :: t)) (String.ofList (c :: t))) := by
  simp only [read] at h
  split at h
  · cases h
    exact absurd rfl hempty
  split at h
  · cases h
    exact absurd rfl hsteps
  rename_i hbound
  refine ⟨Nat.not_lt.1 hbound, ?_⟩
  split at h
  · rename_i f hf
    cases h
    exact .inl ⟨f, hf, rfl⟩
  · rename_i e r hpath
    split at h
    · cases h
    · rename_i hne
      cases h
      cases hr : dropBlank r with
      | nil => exact absurd hr hne
      | cons c t => exact .inr ⟨e, r, c, t, hpath, hr, rfl⟩

/-- A text that splits into the tokens of a path is read, if no more steps begin in it than in one
within the bound. -/
theorem exists_read {before after : List Char} {text : String} {ts : List Token} {e : Expr}
    (hbound : text.toList.countP isStep ≤ maxSteps)
    (hle : (before ++ after).countP isStep ≤ text.toList.countP isStep)
    (hblank : ∀ c ∈ after, isBlank c = true) (hsplits : Splits before ts)
    (hderives : Derives .path ts e) : read (String.ofList (before ++ after)) = .ok e := by
  rw [read_eq_ok_iff, String.toList_ofList]
  exact ⟨hle.trans hbound, before, after, ts, String.toList_ofList, hblank, hsplits, hderives⟩

/-- Input behind an expression is reported from its first character that is not white space, and the
text before it is read. -/
theorem read_eq_trailing {text remaining : String} {position : Nat}
    (h : read text = .error (.trailing position remaining)) :
    ∃ before, text = before ++ remaining ∧ position = before.utf8ByteSize ∧
      (∃ c, remaining.toList.head? = some c ∧ isBlank c = false) ∧ ∃ e, read before = .ok e := by
  obtain ⟨hbound, ⟨f, -, hf⟩ | ⟨e, r, c, t, hpath, hdrop, heq⟩⟩ := read_eq_error h nofun nofun
  · cases hf
  · cases heq
    obtain ⟨ts, hderives, hscans⟩ := exists_derives_of_path hpath
    obtain ⟨p, htext, hsplits⟩ := hscans.exists_splits
    have hr : r = r.takeWhile isBlank ++ c :: t := by
      rw [← hdrop, dropBlank, List.takeWhile_append_dropWhile]
    rw [hr, ← List.append_assoc] at htext
    obtain ⟨hsplit, hposition⟩ := exists_before htext
    refine ⟨_, hsplit, hposition, ⟨c, ?_, ?_⟩, e, exists_read hbound ?_ ?_ hsplits hderives⟩
    · rw [String.toList_ofList, List.head?_cons]
    · have hnot := List.head?_dropWhile_not isBlank r
      rwa [← dropBlank, hdrop] at hnot
    · rw [htext]
      exact (List.sublist_append_left _ _).countP_le
    · exact fun x hx => List.all_eq_true.1 List.all_takeWhile x hx

/-- Where no expression can be read, the text before the position goes on to be one. -/
theorem read_eq_invalid {text near : String} {position : Nat} {construct : Construct}
    (h : read text = .error (.invalid position construct near)) :
    ∃ before rest, text = before ++ rest ∧ position = before.utf8ByteSize ∧
      near = String.ofList (rest.toList.take 24) ∧ ∃ more e, read (before ++ more) = .ok e := by
  obtain ⟨hbound, ⟨f, hpath, heq⟩ | ⟨e, r, c, t, -, -, heq⟩⟩ := read_eq_error h nofun nofun
  · cases heq
    obtain ⟨p, more, ts, htext, hsteps, hsplits, e, hderives⟩ := continues_of_path hpath
    obtain ⟨hsplit, hposition⟩ := exists_before htext
    refine ⟨_, _, hsplit, hposition, ?_, String.ofList (' ' :: more), e, ?_⟩
    · rw [String.toList_ofList]
      rfl
    · rw [← String.ofList_append, ← List.append_nil (p ++ _)]
      refine exists_read hbound ?_ nofun hsplits hderives
      rw [htext, List.append_nil, List.countP_append, List.countP_append, List.countP_cons, hsteps]
      exact Nat.le_add_right _ _
  · cases heq

/-- Errors point at the place where a text ceases to be a path expression. Input that is left over
begins behind a text that is one; where reading stopped, the text before is the beginning of one. -/
theorem read_error_position :
    (∀ text position remaining, read text = .error (.trailing position remaining) →
      ∃ before, text = before ++ remaining ∧ position = before.utf8ByteSize ∧
        (∃ c, remaining.toList.head? = some c ∧ isBlank c = false) ∧ ∃ e, read before = .ok e) ∧
    ∀ text position construct near, read text = .error (.invalid position construct near) →
      ∃ before rest, text = before ++ rest ∧ position = before.utf8ByteSize ∧
        near = String.ofList (rest.toList.take 24) ∧ ∃ more e, read (before ++ more) = .ok e :=
  ⟨fun _ _ _ => read_eq_trailing, fun _ _ _ _ => read_eq_invalid⟩

/-- White space that is no gap may stand behind an expression, but no more input; `as` may not
begin a longer word, though it can be completed to the keyword. -/
theorem read_error_position_asset :
    (∃ before, "a.bids\u3000 é" = before ++ "é" ∧ 10 = before.utf8ByteSize ∧
      ∃ e, read before = .ok e) ∧
    ∃ before rest, "treat(a asset)" = before ++ rest ∧ 10 = before.utf8ByteSize ∧
      "set)" = String.ofList (rest.toList.take 24) ∧ ∃ more e, read (before ++ more) = .ok e := by
  have htrailing : read "a.bids\u3000 é" = .error (.trailing 10 "é") := by decide +kernel
  have hinvalid : read "treat(a asset)" = .error (.invalid 10 .treat "set)") := by decide +kernel
  obtain ⟨before, htext, hposition, -, hread⟩ := read_error_position.1 _ _ _ htrailing
  exact ⟨⟨before, htext, hposition, hread⟩, read_error_position.2 _ _ _ _ hinvalid⟩

end QueryPath.Expr
