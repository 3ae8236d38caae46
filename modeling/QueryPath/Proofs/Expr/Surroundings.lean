import QueryPath.Proofs.Expr.Text

/-!
# White space around an expression

White space of any kind may stand behind an expression, but only gaps may stand in front of it:
the reader looks for the first token behind a gap, and for the end behind white space. So a text
keeps its reading if white space is put behind it (`written_append_isBlank_iff`), and loses it if
anything but a gap is put in front (`isBlank_append_written_iff`). Whether a text is empty is the
same with any white space around it.
-/

namespace QueryPath.Expr

open Text
open Reader

/-! ## White space behind -/

section Behind

variable {s v r : List Char} {ts : List Token}

theorem EndsWord.of_append (h : EndsWord (s ++ v)) : EndsWord s := by
  cases s with
  | nil => nofun
  | cons c s => exact h

theorem Mark.isBlank_char (m : Mark) : isBlank m.char = false := by
  cases m <;> decide

/-- A word ends before white space. -/
theorem IsWord.exists_eq_append {w x : List Char} (hw : IsWord w)
    (hv : ∀ c ∈ v, isBlank c = true) (h : s ++ v = w ++ x) :
    ∃ t, s = w ++ t ∧ x = t ++ v := by
  rcases List.append_eq_append_iff.1 h with ⟨a, rfl, rfl⟩ | ⟨t, rfl, rfl⟩
  · have ha : a = [] := List.eq_nil_iff_forall_not_mem.2 fun c hc => by
      have hblank := hv c (List.mem_append_left x hc)
      rw [isBlank_eq_false_of_rest (hw.isIdentifierRest c (List.mem_append_right s hc))] at hblank
      cases hblank
    subst ha
    exact ⟨[], by rw [List.append_nil, List.append_nil], rfl⟩
  · exact ⟨t, rfl, rfl⟩

/-- White space behind a text is no part of its tokens. The induction is on the tokens; none of
them has a blank character, so each lies either in the text or in front of its end. -/
theorem Scans.of_append_isBlank (h : Scans (s ++ v) ts r) (hv : ∀ c ∈ v, isBlank c = true)
    (hr : ∀ c ∈ r, isBlank c = true) : ∃ q, Scans s ts q ∧ ∀ c ∈ q, isBlank c = true := by
  generalize hx : s ++ v = x at h
  induction h generalizing s v with
  | done =>
    subst hx
    exact ⟨s, .done, fun c hc => hr c (List.mem_append_left v hc)⟩
  | gap hc _ ih =>
    rcases List.append_eq_cons_iff.1 hx with ⟨rfl, rfl⟩ | ⟨t, rfl, rfl⟩
    · exact ih (s := []) (List.forall_mem_cons.1 hv).2 hr rfl
    · obtain ⟨q, hq, hblank⟩ := ih hv hr rfl
      exact ⟨q, .gap hc hq, hblank⟩
  | word hw hends _ ih =>
    obtain ⟨t, rfl, rfl⟩ := hw.exists_eq_append hv hx
    obtain ⟨q, hq, hblank⟩ := ih hv hr rfl
    exact ⟨q, .word hw hends.of_append hq, hblank⟩
  | @mark m _ _ _ _ ih =>
    rcases List.append_eq_cons_iff.1 hx with ⟨rfl, rfl⟩ | ⟨t, rfl, rfl⟩
    · have hm := hv m.char List.mem_cons_self
      rw [m.isBlank_char] at hm
      cases hm
    · obtain ⟨q, hq, hblank⟩ := ih hv hr rfl
      exact ⟨q, .mark hq, hblank⟩

theorem Scans.append_isBlank (h : Scans s ts r) (hb : ∀ c ∈ r ++ v, isBlank c = true) :
    Scans (s ++ v) ts (r ++ v) := by
  obtain ⟨t, rfl, ht⟩ := h.exists_append
  rw [List.append_assoc]
  exact ht _ fun _ => endsWord_of_isBlank hb

end Behind

theorem written_append_isBlank_iff {s v : String} {e : Expr}
    (hv : ∀ c ∈ v.toList, isBlank c = true) : Written (s ++ v) e ↔ Written s e := by
  simp only [written_iff_scans, String.toList_append]
  constructor
  · rintro ⟨ts, r, hderives, hscans, hr⟩
    obtain ⟨q, hq, hblank⟩ := hscans.of_append_isBlank hv hr
    exact ⟨ts, q, hderives, hq, hblank⟩
  · rintro ⟨ts, r, hderives, hscans, hr⟩
    have hb := List.forall_mem_append.2 ⟨hr, hv⟩
    exact ⟨ts, r ++ v.toList, hderives, hscans.append_isBlank hb, hb⟩

/-! ## White space in front -/

section Front

variable {u s r : List Char} {n : String} {ts : List Token}

/-- In front of a word there is no white space but gaps. -/
theorem Scans.isGap_of_isBlank (h : Scans (u ++ s) (.word n :: ts) r)
    (hu : ∀ c ∈ u, isBlank c = true) : ∀ c ∈ u, isGap c = true := by
  obtain ⟨w, hw, -⟩ := scans_word_iff.1 h
  obtain ⟨c, t, hc, hstart⟩ := exists_start_of_identifier? hw
  refine List.dropWhile_eq_nil_iff.1 ?_
  rw [dropGap, List.dropWhile_append] at hc
  cases hdrop : u.dropWhile isGap with
  | nil => rfl
  | cons x y =>
    simp only [hdrop, List.isEmpty_cons, Bool.false_eq_true, if_false, List.cons_append,
      List.cons.injEq] at hc
    have hx : x ∈ u := (List.dropWhile_sublist isGap).subset (hdrop ▸ List.mem_cons_self)
    have hblank := hu x hx
    rw [hc.1, isBlank_eq_false_of_rest (isIdentifierRest_of_start hstart)] at hblank
    cases hblank

theorem scans_append_isGap_iff (hu : ∀ c ∈ u, isGap c = true) :
    Scans (u ++ s) (.word n :: ts) r ↔ Scans s (.word n :: ts) r := by
  have hdrop : dropGap (u ++ s) = dropGap s := List.dropWhile_append_of_pos hu
  rw [scans_word_iff, scans_word_iff, hdrop]

end Front

theorem isBlank_append_written_iff {u s : String} {e : Expr}
    (hu : ∀ c ∈ u.toList, isBlank c = true) :
    Written (u ++ s) e ↔ (∀ c ∈ u.toList, isGap c = true) ∧ Written s e := by
  simp only [written_iff_scans, String.toList_append]
  constructor
  · rintro ⟨ts, r, hderives, hscans, hr⟩
    obtain ⟨n, us, rfl⟩ := hderives.begins
    have hgap := hscans.isGap_of_isBlank hu
    exact ⟨hgap, _, r, hderives, (scans_append_isGap_iff hgap).1 hscans, hr⟩
  · rintro ⟨hgap, ts, r, hderives, hscans, hr⟩
    obtain ⟨n, us, rfl⟩ := hderives.begins
    exact ⟨_, r, hderives, (scans_append_isGap_iff hgap).2 hscans, hr⟩

/-! ## Reading -/

theorem read_eq_empty_iff {text : String} :
    read text = .error .empty ↔ ∀ c ∈ text.toList, isBlank c = true := by
  rw [← List.all_eq_true, read]
  split
  · rename_i hblank
    exact iff_of_true rfl hblank
  · rename_i hblank
    refine iff_of_false (fun h => ?_) hblank
    split at h
    · cases h
    · split at h
      · cases h
      · split at h <;> cases h

/-- White space around a text leaves its reading as it is, unless something other than a gap stands
in front: then the text is no path expression. A text is empty with white space around it if it is
empty without. -/
theorem read_surrounded {u v : String} (hu : ∀ c ∈ u.toList, isBlank c = true)
    (hv : ∀ c ∈ v.toList, isBlank c = true) (s : String) :
    (∀ e, read (u ++ s ++ v) = .ok e ↔
      (∀ c ∈ u.toList, isGap c = true) ∧ read s = .ok e) ∧
    (read (u ++ s ++ v) = .error .empty ↔ read s = .error .empty) := by
  have hsteps : (u ++ s ++ v).toList.countP isStep = s.toList.countP isStep := by
    have hu' := countP_isStep_eq_zero (by decide) (by decide) hu
    have hv' := countP_isStep_eq_zero (by decide) (by decide) hv
    rw [String.toList_append, String.toList_append, List.countP_append, List.countP_append, hu',
      hv', Nat.zero_add, Nat.add_zero]
  constructor
  · intro e
    rw [read_eq_ok_iff, read_eq_ok_iff, hsteps, written_append_isBlank_iff hv,
      isBlank_append_written_iff hu]
    exact and_left_comm
  · rw [read_eq_empty_iff, read_eq_empty_iff, String.toList_append, String.toList_append,
      List.forall_mem_append, List.forall_mem_append]
    exact ⟨fun h => h.1.2, fun h => ⟨⟨hu, h⟩, hv⟩⟩

/-- A line break in front and a no-break space behind are as good as nothing. -/
theorem read_surrounded_auction :
    (∀ c ∈ "\n".toList, isBlank c = true) ∧ (∀ c ∈ "\u00a0".toList, isBlank c = true) ∧
    read ("\n" ++ "a.lot" ++ "\u00a0") = .ok (.member (.root "a") "lot") ∧
    read ("\n" ++ "" ++ "\u00a0") = .error .empty := by
  have hu : ∀ c ∈ "\n".toList, isBlank c = true := List.all_eq_true.1 (by decide)
  have hv : ∀ c ∈ "\u00a0".toList, isBlank c = true := List.all_eq_true.1 (by decide)
  have hread : read "a.lot" = .ok (.member (.root "a") "lot") := by decide +kernel
  have hgap : ∀ c ∈ "\n".toList, isGap c = true := List.all_eq_true.1 (by decide)
  refine ⟨hu, hv, ((read_surrounded hu hv "a.lot").1 _).2 ⟨hgap, hread⟩, ?_⟩
  exact (read_surrounded hu hv "").2.2 (by decide)

/-- A no-break space in front of a variable is white space, but no gap. -/
theorem read_noBreakSpace :
    ¬∀ u s v : String, (∀ c ∈ u.toList, isBlank c = true) → (∀ c ∈ v.toList, isBlank c = true) →
      (∀ e, read (u ++ s ++ v) = .ok e ↔ read s = .ok e) ∧
      (read (u ++ s ++ v) = .error .empty ↔ read s = .error .empty) := by
  intro h
  have hu : ∀ c ∈ "\u00a0".toList, isBlank c = true := List.all_eq_true.1 (by decide)
  have hread : read "a" = .ok (.root "a") := by decide +kernel
  have hne : read ("\u00a0" ++ "a" ++ "") ≠ .ok (.root "a") := by decide +kernel
  exact hne (((h "\u00a0" "a" "" hu nofun).1 _).2 hread)

end QueryPath.Expr
