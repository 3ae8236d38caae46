import QueryPath.Proofs.Query.TableGroups

/-!
# Variables of table groups

A query tells the tables of its groups apart by their variables. The groups of a stem are numbered
from one on, in the order in which they are added and without gaps, so that the next number is one
more than the groups of the stem (`FromClause.Numbered`); stem and number can be read off a variable
again, so no two groups have the same.

Gaps would come from a call that fails after it has taken a number. Calls that work on one
from-clause in place take the number between two looks at the path (`Call.inPlace`). As the second
look finds nothing that the first did not, they fail before they change anything, and end like the
calls that return a new from-clause (`Call.inPlace_eq`).
-/

namespace QueryPath

open Physical (Metamodel Part)

/-- The path on whose group a join over this base stands: the path that the base narrows to an
entity, or else the base itself. -/
def Path.anchor (base : Path) : Path :=
  match base.treatEntity? with
  | some _ => base.base?.getD base
  | none => base

/-- The letter that a group is numbered under. -/
def TableGroup.stem (g : TableGroup) : Char := FromClause.stemOf g.part.name

namespace FromClause

/-! ## Numbers of variables -/

/-- The variable of a stem with a number. -/
def numbered (stem : Char) (n : Nat) : String := s!"{stem}{n}_0"

theorem toList_numbered (stem : Char) (n : Nat) :
    (numbered stem n).toList = stem :: (Nat.toDigits 10 n ++ ['_', '0']) := by
  simp [numbered, toString, String.toList_append]

theorem numbered_inj {c c' : Char} {n n' : Nat} :
    numbered c n = numbered c' n' ↔ c = c' ∧ n = n' := by
  constructor
  · intro h
    have h := congrArg String.toList h
    rw [toList_numbered, toList_numbered, List.cons.injEq] at h
    have hdigits := congrArg (Nat.ofDigitChars 10 · 0) (List.append_cancel_right h.2)
    exact ⟨h.1, by simpa using hdigits⟩
  · rintro ⟨rfl, rfl⟩
    rfl

/-! ## Calls in two steps -/

section Calls

variable {m : Metamodel} {f f' : FromClause} {g : TableGroup}

/-- The part for which a call adds a group. -/
def Call.part (m : Metamodel) (f : FromClause) : Call → Except FromClauseError Part
  | root (.root s v) =>
      match s.entity? with
      | none => .error (.unresolvedJoin (Path.root s v).text .notEntityRoot)
      | some entity =>
          match m.entity? entity with
          | none => .error (.unresolvedJoin (Path.root s v).text (.noDescriptor entity))
          | some e => .ok (.entity e)
  | root p => .error (.unresolvedJoin p.text .notEntityRoot)
  | join p =>
      match p.base? with
      | none => .error (.unresolvedJoin p.text .root)
      | some base => do
          match ← f.joinedPart m p base with
          | none => throw (.unresolvedJoin p.text .noSuchMapping)
          | some part =>
              if part.isContainer then return part
              else throw (.unresolvedJoin p.text .basicValue)

theorem Call.apply_eq (m : Metamodel) (f : FromClause) (call : Call) :
    call.apply m f = call.part m f >>= f.materialize m call.path := by
  cases call with
  | root p =>
    cases p with
    | root s v =>
      simp only [apply, addRoot, part]
      cases s.entity? with
      | none => rfl
      | some entity =>
        dsimp only
        cases m.entity? entity <;> rfl
    | _ => rfl
  | join p =>
    simp only [apply, addJoin, part]
    cases p.base? with
    | none => rfl
    | some base =>
      dsimp only
      cases f.joinedPart m p base with
      | error e => rfl
      | ok x =>
        cases x with
        | none => rfl
        | some part =>
          dsimp only [bind, Except.bind]
          cases part.isContainer <;> rfl

/-- A group is added under a path without one, with the next number of its stem. -/
theorem materialize_spec {p : Path} {part : Part} (h : f.materialize m p part = .ok (g, f')) :
    f.find? p.navigable = none ∧ g.path = p.navigable ∧
      g.identification = numbered g.stem (f.stems.count g.stem + 1) ∧
      f' = { groups := f.groups ++ [g], stems := f.stems ++ [g.stem] } := by
  simp only [materialize, register] at h
  split at h
  · cases h
  · rename_i hfind
    cases h
    exact ⟨hfind, rfl, rfl, rfl⟩

/-- A call adds the group of its path, or it fails. -/
theorem Call.apply_eq_ok {call : Call} (h : call.apply m f = .ok (g, f')) :
    ∃ part, call.part m f = .ok part ∧ f.materialize m call.path part = .ok (g, f') := by
  rw [apply_eq] at h
  exact bind_eq_ok.1 h

/-- The part of a join comes from a group that is there. -/
theorem exists_find?_of_joinedPart {p base : Path} {x : Option Part}
    (h : f.joinedPart m p base = .ok x) : ∃ g, f.find? base.anchor.navigable = some g := by
  have found : ∀ {q : Path} {y : Except FromClauseError (Option Part)} {k : TableGroup → _},
      (f.get q.navigable >>= k) = y → y = .ok x → ∃ g, f.find? q.navigable = some g := by
    rintro q y k rfl hk
    obtain ⟨g, hg, -⟩ := bind_eq_ok.1 hk
    exact ⟨g, get_eq_ok hg⟩
  unfold joinedPart at h
  split at h
  · rename_i b t
    split at h
    · rename_i entity hentity
      rw [show (Path.treat b t).anchor = b by simp [Path.anchor, Path.treatEntity?, hentity,
        Path.base?]]
      exact found rfl h
    · rename_i hentity
      rw [show (Path.treat b t).anchor = .treat b t by
        simp [Path.anchor, Path.treatEntity?, hentity]]
      exact found rfl h
  · rename_i htreat
    have hanchor : base.anchor = base := by
      cases base with
      | treat b t => exact absurd rfl (htreat b t)
      | _ => rfl
    rw [hanchor]
    exact found rfl h

theorem Call.anchor_of_part {p : Path} {part : Part}
    (h : (Call.join p).part m f = .ok part) :
    ∃ base, p.base? = some base ∧ ∃ g, f.find? base.anchor.navigable = some g := by
  simp only [Call.part] at h
  split at h
  · cases h
  · rename_i base hbase
    obtain ⟨x, hx, -⟩ := bind_eq_ok.1 h
    exact ⟨base, hbase, exists_find?_of_joinedPart hx⟩

end Calls

/-! ## Calls in place -/

section InPlace

/-- Work on one from-clause; what is changed before a failure stays changed. -/
abbrev InPlace := ExceptT FromClauseError (StateM FromClause)

/-- Takes the next variable of a stem. -/
def takeVariable (stem : Char) : InPlace String := do
  let f ← getThe FromClause
  set { f with stems := f.stems ++ [stem] }
  return f.nextIdentification stem

/-- Adds a group unless its path has one. -/
def registerInPlace (g : TableGroup) : InPlace TableGroup := do
  let f ← getThe FromClause
  match f.find? g.path with
  | some _ => throw (.duplicateGroup g.path.full)
  | none =>
      set { f with groups := f.groups ++ [g] }
      return g

/-- Adds a group for a path and its part, under a new variable. -/
def materializeInPlace (m : Metamodel) (p : Path) (part : Part) : InPlace TableGroup := do
  match (← getThe FromClause).find? p.navigable with
  | some _ => throw (.duplicateGroup p.navigable.full)
  | none =>
      let identification ← takeVariable (stemOf part.name)
      registerInPlace ⟨p.navigable, part, p.aliasName?, m.partTable part, identification⟩

def Call.inPlace (m : Metamodel) (call : Call) : InPlace TableGroup := do
  match call.part m (← getThe FromClause) with
  | .error e => throw e
  | .ok part => materializeInPlace m call.path part

variable (m : Metamodel) (f : FromClause)

/-- The second look finds no group either, as no group is added between the two. -/
theorem materializeInPlace_eq (p : Path) (part : Part) :
    (materializeInPlace m p part).run.run f =
      match f.materialize m p part with
      | .ok (g, f') => (.ok g, f')
      | .error e => (.error e, f) := by
  have hstems : ∀ stems, ({ f with stems := stems } : FromClause).find? p.navigable =
      f.find? p.navigable := fun _ => rfl
  simp only [materializeInPlace, takeVariable, registerInPlace, materialize, register, hstems,
    run_get, bind_assoc, pure_bind]
  cases hfind : f.find? p.navigable with
  | some g => rfl
  | none => simp only [run_get, run_set, hstems, hfind, run_pure]

/-- In place, a call that succeeds ends in the from-clause that it returns otherwise, and a call
that fails leaves groups and numbers as they were. -/
theorem Call.inPlace_eq (call : Call) :
    (call.inPlace m).run.run f = ((call.apply m f).map (·.1), f.next m call) := by
  simp only [next, apply_eq, inPlace, run_get]
  cases call.part m f with
  | error e => rfl
  | ok part =>
    simp only [materializeInPlace_eq]
    cases hp : f.materialize m call.path part with
    | error e => simp [hp, bind, Except.bind, Except.map]
    | ok x => simp [hp, bind, Except.bind, Except.map]

end InPlace

/-! ## Numbered groups -/

/-- Groups are known by their paths and by their variables, and they are counted by their stems. -/
structure Numbered (f : FromClause) : Prop where
  stems : f.stems = f.groups.map TableGroup.stem
  nodup_paths : (f.groups.map (·.path.full)).Nodup
  numbers : ∀ c, (f.groups.filter (·.stem == c)).map (·.identification) =
    (List.range' 1 (f.stems.count c)).map (numbered c)
  nodup_identifications : (f.groups.map (·.identification)).Nodup

namespace Numbered

variable {m : Metamodel} {f f' : FromClause} {g : TableGroup}

theorem empty : Numbered {} := ⟨rfl, List.nodup_nil, fun _ => rfl, List.nodup_nil⟩

/-- No group has a number that its stem has not come to. -/
theorem le_count (h : f.Numbered) {c : Char} {n : Nat}
    (hn : numbered c n ∈ f.groups.map (·.identification)) : n ≤ f.stems.count c := by
  obtain ⟨g, hg, hid⟩ := List.mem_map.1 hn
  have hmem : g.identification ∈ (f.groups.filter (·.stem == g.stem)).map (·.identification) :=
    List.mem_map_of_mem (List.mem_filter.2 ⟨hg, beq_self_eq_true _⟩)
  rw [h.numbers, List.mem_map] at hmem
  obtain ⟨k, hk, hkid⟩ := hmem
  obtain ⟨rfl, rfl⟩ := numbered_inj.1 (hkid.trans hid)
  have := (List.mem_range'_1.1 hk).2
  omega

theorem find?_of_mem (h : f.Numbered) (hg : g ∈ f.groups) : f.find? g.path = some g :=
  Definition.find?_of_mem h.nodup_paths hg

/-- A new group keeps the groups numbered. -/
theorem materialize (h : f.Numbered) {p : Path} {part : Part}
    (hm : f.materialize m p part = .ok (g, f')) : f'.Numbered := by
  obtain ⟨hfind, hpath, hid, rfl⟩ := materialize_spec hm
  have newPath : g.path.full ∉ f.groups.map (·.path.full) := by
    intro hmem
    obtain ⟨x, hx, hfull⟩ := List.mem_map.1 hmem
    refine List.find?_eq_none.1 hfind x hx (beq_iff_eq.2 ?_)
    rw [hfull, hpath]
  have newIdentification : g.identification ∉ f.groups.map (·.identification) := by
    intro hmem
    rw [hid] at hmem
    exact absurd (h.le_count hmem) (Nat.not_succ_le_self _)
  refine ⟨?_, ?_, fun c => ?_, ?_⟩
  · rw [List.map_append, ← h.stems, List.map_singleton]
  · simpa using h.nodup_paths.concat newPath
  · by_cases hc : g.stem = c
    · subst hc
      have hcount : (f.stems ++ [g.stem]).count g.stem = f.stems.count g.stem + 1 := by simp
      rw [hcount, List.range'_1_concat, List.map_append, ← h.numbers, Nat.add_comm 1]
      simp [hid]
    · simp [h.numbers, hc]
  · simpa using h.nodup_identifications.concat newIdentification

theorem next (h : f.Numbered) (call : Call) : (f.next m call).Numbered := by
  unfold FromClause.next
  cases happly : call.apply m f with
  | error e => exact h
  | ok x =>
    obtain ⟨part, -, hm⟩ := Call.apply_eq_ok happly
    exact h.materialize hm

theorem run (h : f.Numbered) (calls : List Call) : (f.run m calls).Numbered := by
  induction calls generalizing f with
  | nil => exact h
  | cons call calls ih => exact ih (h.next call)

end Numbered

/-! ## Calls and their groups -/

variable {m : Metamodel} {f : FromClause}

/-- The calls that succeed, with the groups that they add. -/
def log (m : Metamodel) : FromClause → List Call → List (Call × TableGroup)
  | _, [] => []
  | f, call :: calls =>
      match call.apply m f with
      | .ok (g, f') => (call, g) :: log m f' calls
      | .error _ => log m f calls

theorem run_append (m : Metamodel) (f : FromClause) (before after : List Call) :
    f.run m (before ++ after) = (f.run m before).run m after :=
  List.foldl_append

theorem groups_run (m : Metamodel) (f : FromClause) (calls : List Call) :
    (f.run m calls).groups = f.groups ++ (f.log m calls).map (·.2) := by
  induction calls generalizing f with
  | nil => exact (List.append_nil _).symm
  | cons call calls ih =>
    rw [run, List.foldl_cons, ← run, ih, log, next]
    cases happly : call.apply m f with
    | error e => rfl
    | ok x =>
      obtain ⟨part, -, hm⟩ := Call.apply_eq_ok happly
      obtain ⟨-, -, -, hf⟩ := materialize_spec hm
      simp [hf]

/-- Each added group has the path of its call. -/
theorem path_of_mem_log {calls : List Call} {x : Call × TableGroup} (hx : x ∈ f.log m calls) :
    x.2.path = x.1.path.navigable := by
  induction calls generalizing f with
  | nil => cases hx
  | cons call calls ih =>
    rw [log] at hx
    cases happly : call.apply m f with
    | error e =>
      rw [happly] at hx
      exact ih hx
    | ok y =>
      rw [happly] at hx
      rcases List.mem_cons.1 hx with rfl | hx
      · obtain ⟨part, -, hm⟩ := Call.apply_eq_ok happly
        exact (materialize_spec hm).2.1
      · exact ih hx

/-- What is in the log was added behind the calls before it. -/
theorem exists_apply_of_log {calls : List Call} {before after : List (Call × TableGroup)}
    {call : Call} {g : TableGroup} (h : f.log m calls = before ++ (call, g) :: after) :
    ∃ earlier f', earlier ++ [call] <+: calls ∧ f.log m earlier = before ∧
      call.apply m (f.run m earlier) = .ok (g, f') := by
  induction calls generalizing f before with
  | nil => simp [log] at h
  | cons c calls ih =>
    rw [log] at h
    cases happly : c.apply m f with
    | error e =>
      rw [happly] at h
      obtain ⟨earlier, f', hle, hlog, hcall⟩ := ih h
      refine ⟨c :: earlier, f', List.cons_prefix_cons.2 ⟨rfl, hle⟩, ?_, ?_⟩
      · rw [log, happly, hlog]
      · rwa [run, List.foldl_cons, next, happly]
    | ok y =>
      rw [happly] at h
      cases before with
      | nil =>
        cases h
        exact ⟨[], y.2, ⟨calls, rfl⟩, rfl, happly⟩
      | cons x before =>
        rw [List.cons_append, List.cons.injEq] at h
        obtain ⟨rfl, h⟩ := h
        obtain ⟨earlier, f', hle, hlog, hcall⟩ := ih h
        refine ⟨c :: earlier, f', List.cons_prefix_cons.2 ⟨rfl, hle⟩, ?_, ?_⟩
        · rw [log, happly, ← hlog]
        · rwa [run, List.foldl_cons, next, happly]

/-- The group of a join stands on one that was there at the start or was added before. -/
theorem anchor_of_log {calls : List Call} {before after : List (Call × TableGroup)} {p : Path}
    {g : TableGroup} (h : f.log m calls = before ++ (.join p, g) :: after) :
    ∃ base, p.base? = some base ∧
      ∃ g' ∈ f.groups ++ before.map (·.2), g'.path.full = base.anchor.text := by
  obtain ⟨earlier, f', -, rfl, happly⟩ := exists_apply_of_log h
  obtain ⟨part, hpart, -⟩ := Call.apply_eq_ok happly
  obtain ⟨base, hbase, g', hg'⟩ := Call.anchor_of_part hpart
  obtain ⟨hmem, hfull⟩ := find?_eq_some hg'
  rw [groups_run] at hmem
  exact ⟨base, hbase, g', hmem, hfull⟩

/-! ## From-clauses behind any calls -/

/-- What is true of the groups behind calls that start without groups. -/
structure InOrder (m : Metamodel) (calls : List Call) : Prop where
  groups : (run m {} calls).groups = (log m {} calls).map (·.2)
  path : ∀ x ∈ log m {} calls, x.2.path = x.1.path.navigable
  /-- A group is found under its path, under which there is no other. -/
  find? : ∀ g ∈ (run m {} calls).groups, (run m {} calls).find? g.path = some g
  nodup_paths : ((run m {} calls).groups.map (·.path.full)).Nodup
  nodup_identifications : ((run m {} calls).groups.map (·.identification)).Nodup
  /-- In order, the groups of a stem have the numbers from one on. -/
  numbers : ∀ c, ((run m {} calls).groups.filter (·.stem == c)).map (·.identification) =
    (List.range' 1 ((run m {} calls).groups.countP (·.stem == c))).map (numbered c)
  counters : ∀ c, (run m {} calls).stems.count c = (run m {} calls).groups.countP (·.stem == c)
  /-- A call that fails leaves groups and counters as they were, also in place. -/
  failed : ∀ before call after e, calls = before ++ call :: after →
    call.apply m (run m {} before) = .error e →
    (call.inPlace m).run.run (run m {} before) = (.error e, run m {} before) ∧
      run m {} calls = run m {} (before ++ after)
  anchored : ∀ before p g after, log m {} calls = before ++ (.join p, g) :: after →
    ∃ base, p.base? = some base ∧ ∃ x ∈ before, x.2.path.full = base.anchor.text

theorem inOrder_run (m : Metamodel) (calls : List Call) : InOrder m calls := by
  have numbered : (run m {} calls).Numbered := Numbered.empty.run calls
  have counters : ∀ c, (run m {} calls).stems.count c =
      (run m {} calls).groups.countP (·.stem == c) := by
    intro c
    rw [numbered.stems, List.count_eq_countP, List.countP_map]
    rfl
  refine {
    groups := groups_run m {} calls
    path := fun x hx => path_of_mem_log hx
    find? := fun g hg => numbered.find?_of_mem hg
    nodup_paths := numbered.nodup_paths
    nodup_identifications := numbered.nodup_identifications
    numbers := fun c => counters c ▸ numbered.numbers c
    counters := counters
    failed := ?_
    anchored := ?_ }
  · rintro before call after e rfl he
    have hnext : (run m {} before).next m call = run m {} before := by rw [next, he]
    refine ⟨?_, ?_⟩
    · rw [Call.inPlace_eq, he, hnext]
      rfl
    · rw [run_append, run_append]
      exact congrArg (run m · after) hnext
  · intro before p g after h
    obtain ⟨base, hbase, g', hg', hfull⟩ := anchor_of_log h
    rw [List.nil_append] at hg'
    obtain ⟨x, hx, rfl⟩ := List.mem_map.1 hg'
    exact ⟨base, hbase, x, hx, hfull⟩

end FromClause

end QueryPath
