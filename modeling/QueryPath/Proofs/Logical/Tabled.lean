import Mathlib.Data.List.AList
import QueryPath.Proofs.Logical.Keys

/-!
# Drafts with tables

A draft may keep tables of the positions of its types, one for each sort of key, and calls may work
on it in place: each type is entered into the table of its key as it is added. As a type is only
added under a key that no other type has, the tables lead to the same positions as a search among
the types (`Tabled.Indexed`).

In place, a call could fail after it has changed something. No call does: each finds out whether it
fails before it changes anything, and so it ends like the call that returns a new draft
(`Tabled.EndsAs`). What can be relied on behind calls of any kind is put together in
`Draft.Upheld`.
-/

namespace QueryPath.Logical

/-- A draft with tables of the positions of its types. -/
structure Tabled extends Draft where
  names : AList fun _ : String => TypeId := ∅
  basics : AList fun _ : Kind => TypeId := ∅
  anys : AList fun _ : Kind × Kind => TypeId := ∅

namespace Tabled

/-! ## Tables -/

/-- The position that the table of a key leads to. -/
def lookup (b : Tabled) : TypeKey → Option TypeId
  | .kind k => b.basics.lookup k
  | .kinds x y => b.anys.lookup (x, y)
  | .name n => b.names.lookup n

/-- Enters a position into the table of a key. -/
def enter (b : Tabled) (key : TypeKey) (id : TypeId) : Tabled :=
  match key with
  | .kind k => { b with basics := b.basics.insert k id }
  | .kinds x y => { b with anys := b.anys.insert (x, y) id }
  | .name n => { b with names := b.names.insert n id }

@[simp] theorem toDraft_enter (b : Tabled) (key : TypeKey) (id : TypeId) :
    (b.enter key id).toDraft = b.toDraft := by
  cases key <;> rfl

theorem lookup_enter (b : Tabled) (key key' : TypeKey) (id : TypeId) :
    (b.enter key id).lookup key' = if key' = key then some id else b.lookup key' := by
  split
  · rename_i h
    subst h
    cases key' <;> exact AList.lookup_insert _
  · rename_i h
    cases key <;> cases key' <;> first
      | rfl
      | exact AList.lookup_insert_ne (by simpa using h)

/-- The tables lead to the first type with a key. -/
def Indexed (b : Tabled) : Prop := ∀ key, b.lookup key = b.keys.findIdx? (· == key)

theorem Indexed.empty : Indexed {} := by
  intro key
  cases key <;> rfl

/-- The draft with one more type, which is entered into the table of its key. -/
def added (b : Tabled) (t : DomainType) : Tabled :=
  { b with types := b.types ++ [t] }.enter t.key b.types.length

theorem toDraft_added (b : Tabled) (t : DomainType) :
    (b.added t).toDraft = (b.toDraft.push t).2 := by
  rw [added, toDraft_enter, Draft.push]

theorem Indexed.added {b : Tabled} (h : b.Indexed) {t : DomainType} (ht : b.lookup t.key = none) :
    (b.added t).Indexed := by
  intro key
  have hold : (b.added t).lookup key = if key = t.key then some b.types.length else b.lookup key :=
    lookup_enter _ _ _ _
  have hlength : b.keys.length = b.types.length := List.length_map _
  rw [hold, toDraft_added, Draft.keys_push, List.findIdx?_append, ← h key, hlength]
  split
  · rename_i heq
    subst heq
    simp [ht]
  · rename_i hne
    simp [Ne.symm hne]

end Tabled

/-! ## Calls in place -/

namespace Draft

/-- Work on one draft with tables; what is changed before a failure stays changed. -/
abbrev InPlace := ExceptT Error (StateM Tabled)

/-- Adds a type, then enters it into the table of its key. -/
def addInPlace (t : DomainType) : InPlace TypeId := do
  let b ← getThe Tabled
  set { b with types := b.types ++ [t] }
  let b' ← getThe Tabled
  set (b'.enter t.key b.types.length)
  return b.types.length

/-- Goes on with the position that the table of a key leads to, or without. -/
def findInPlace (key : TypeKey) (found : TypeId → InPlace TypeId) (missing : InPlace TypeId) :
    InPlace TypeId := do
  match (← getThe Tabled).lookup key with
  | some id => found id
  | none => missing

def declareInPlace (t : DomainType) : InPlace TypeId :=
  findInPlace (.name t.name) (fun _ => throw (.duplicateType t.name)) (addInPlace t)

def basicInPlace (kind : Kind) : InPlace TypeId :=
  findInPlace (.kind kind) pure (addInPlace (.basic kind))

def anyInPlace (discriminator key : Kind) : InPlace TypeId :=
  findInPlace (.kinds discriminator key) pure do
    let _ ← basicInPlace discriminator
    let _ ← basicInPlace key
    addInPlace (.any discriminator key)

def setSupertypeInPlace (id supertype : TypeId) : InPlace Unit := do
  let b ← getThe Tabled
  if b.check supertype DomainType.isExtensible then
    if b.check id DomainType.isExtensible then
      set { b with toDraft := b.modify id (·.setSupertype supertype) }
    else throw (.invalidSupertype (b.nameOf id) (b.nameOf supertype))
  else throw (.invalidSupertype (b.nameOf id) (b.nameOf supertype))

def addAttributeInPlace (owner : TypeId) (a : Attribute) : InPlace Unit := do
  let b ← getThe Tabled
  if lacksIndex a then throw (.missingIndexType (b.nameOf owner) a.name)
  else if !b.check owner DomainType.isManaged then throw (.notManaged (b.nameOf owner))
  else if (b.declaredBy owner).any (·.name == a.name) then
    throw (.duplicateAttribute (b.nameOf owner) a.name)
  else set { b with toDraft := b.modify owner (·.addAttribute a) }

/-- A call in place, with the position that it gives out. -/
def Call.inPlace : Call → InPlace (Option TypeId)
  | basic k => some <$> basicInPlace k
  | any x y => some <$> anyInPlace x y
  | entity n isAbstract => some <$> declareInPlace (.entity n [] none isAbstract)
  | embeddable n => some <$> declareInPlace (.embeddable n [])
  | mappedSupertype n => some <$> declareInPlace (.mappedSupertype n [] none)
  | tuple n components => some <$> declareInPlace (.tuple n components)
  | setSupertype id s => (fun _ => none) <$> setSupertypeInPlace id s
  | addAttribute owner a => (fun _ => none) <$> addAttributeInPlace owner a

end Draft

namespace Tabled

open Draft (InPlace find?_eq_keys findBasic?_eq_keys findAny?_eq_keys findAny?_basic)

/-- Work in place fails like the computation, and then nothing is changed, or else it comes to the
same value and the same types, and to tables that lead to them. -/
def EndsAs {α : Type} (b : Tabled) (w : InPlace α) : Except Error (α × Draft) → Prop
  | .error e => w.run.run b = (.error e, b)
  | .ok r => ∃ b', w.run.run b = (.ok r.1, b') ∧ b'.toDraft = r.2 ∧ b'.Indexed

namespace EndsAs

variable {α β : Type} {b : Tabled}

theorem congr {w w' : InPlace α} (h : w.run.run b = w'.run.run b) : b.EndsAs w = b.EndsAs w' := by
  funext r
  cases r <;> simp only [EndsAs, h]

theorem get {k : Tabled → InPlace α} {r : Except Error (α × Draft)} (h : b.EndsAs (k b) r) :
    b.EndsAs (getThe Tabled >>= k) r := by
  rwa [congr (run_get b k)]

theorem map {w : InPlace α} {r : Except Error (α × Draft)} (h : b.EndsAs w r) (f : α → β) :
    b.EndsAs (f <$> w) (r.map fun x => (f x.1, x.2)) := by
  cases r with
  | error e =>
    have hrun : w.run.run b = (.error e, b) := h
    rw [Except.map, EndsAs, ExceptT.run_map, StateT.run_map, hrun]
    rfl
  | ok x =>
    obtain ⟨b', hrun, hd, hb'⟩ := h
    refine ⟨b', ?_, hd, hb'⟩
    rw [ExceptT.run_map, StateT.run_map, hrun]
    rfl

/-- Work that succeeds may be followed by more work that does. -/
theorem followed {w : InPlace α} {k : α → InPlace β} {r : α × Draft} {r' : β × Draft}
    (h : b.EndsAs w (.ok r))
    (hk : ∀ b' : Tabled, b'.toDraft = r.2 → b'.Indexed → b'.EndsAs (k r.1) (.ok r')) :
    b.EndsAs (w >>= k) (.ok r') := by
  obtain ⟨b', hw, hd, hb'⟩ := h
  obtain ⟨b'', hk, hd'', hb''⟩ := hk b' hd hb'
  exact ⟨b'', (run_bind_of_ok hw).trans hk, hd'', hb''⟩

theorem addInPlace (h : b.Indexed) {t : DomainType} (ht : b.lookup t.key = none) :
    b.EndsAs (Draft.addInPlace t) (.ok (b.push t)) :=
  ⟨b.added t, rfl, b.toDraft_added t, h.added ht⟩

theorem findInPlace {key : TypeKey} {found : TypeId → InPlace TypeId} {missing : InPlace TypeId}
    {r : Except Error (TypeId × Draft)}
    (hfound : ∀ id, b.lookup key = some id → b.EndsAs (found id) r)
    (hmissing : b.lookup key = none → b.EndsAs missing r) :
    b.EndsAs (Draft.findInPlace key found missing) r := by
  refine get ?_
  cases hkey : b.lookup key with
  | some id => exact hfound id hkey
  | none => exact hmissing hkey

theorem declareInPlace (h : b.Indexed) {t : DomainType} (hkey : t.key = .name t.name) :
    b.EndsAs (Draft.declareInPlace t) (b.declare t) := by
  rw [Draft.declare, find?_eq_keys, ← h]
  refine findInPlace (fun id hid => ?_) fun hnone => ?_
  · rw [hid]
    exact run_throw b _
  · rw [hnone]
    exact addInPlace h (hkey ▸ hnone)

theorem basicInPlace (h : b.Indexed) (k : Kind) :
    b.EndsAs (Draft.basicInPlace k) (.ok (b.basic k)) := by
  rw [Draft.basic, findBasic?_eq_keys, ← h]
  refine findInPlace (fun id hid => ?_) fun hnone => ?_
  · rw [hid]
    exact ⟨b, run_pure b id, rfl, h⟩
  · rw [hnone]
    exact addInPlace h hnone

theorem anyInPlace (h : b.Indexed) (x y : Kind) :
    b.EndsAs (Draft.anyInPlace x y) (.ok (b.any x y)) := by
  rw [Draft.any, findAny?_eq_keys, ← h]
  refine findInPlace (fun id hid => ?_) fun hnone => ?_
  · rw [hid]
    exact ⟨b, run_pure b id, rfl, h⟩
  · rw [hnone]
    refine (basicInPlace h x).followed fun b₁ hb₁ h₁ => ?_
    refine (basicInPlace h₁ y).followed fun b₂ hb₂ h₂ => ?_
    rw [hb₁] at hb₂
    rw [← hb₂]
    refine addInPlace h₂ ?_
    rw [h₂, DomainType.key, ← findAny?_eq_keys, hb₂, findAny?_basic, findAny?_basic,
      findAny?_eq_keys, ← h, hnone]

/-- A change to a type that keeps its key keeps tables up to date. -/
theorem setInPlace (h : b.Indexed) {d : Draft} (hbare : d.bareTypes = b.bareTypes) :
    b.EndsAs (set { b with toDraft := d } : InPlace Unit) (.ok ((), d)) := by
  refine ⟨{ b with toDraft := d }, rfl, rfl, fun key => ?_⟩
  rw [Draft.keys_eq_of_bareTypes hbare, ← h]
  cases key <;> rfl

theorem setSupertypeInPlace (h : b.Indexed) (id s : TypeId) :
    b.EndsAs (Draft.setSupertypeInPlace id s) ((b.setSupertype id s).map fun d => ((), d)) := by
  refine get ?_
  rw [Draft.setSupertype]
  by_cases hs : b.check s DomainType.isExtensible = true
  · rw [if_pos hs, hs, Bool.true_and]
    split
    · exact setInPlace h (Draft.bareTypes_modify _ id (DomainType.bare_setSupertype · s))
    · exact run_throw b _
  · rw [if_neg hs, Bool.eq_false_iff.2 hs]
    exact run_throw b _

theorem addAttributeInPlace (h : b.Indexed) (owner : TypeId) (a : Attribute) :
    b.EndsAs (Draft.addAttributeInPlace owner a)
      ((b.addAttribute owner a).map fun d => ((), d)) := by
  refine get ?_
  rw [Draft.addAttribute]
  split
  · exact run_throw b _
  · split
    · exact run_throw b _
    · split
      · exact run_throw b _
      · exact setInPlace h (Draft.bareTypes_modify _ owner (DomainType.bare_addAttribute · a))

/-- A call in place ends like the call, with the position that is given out. -/
theorem inPlace (h : b.Indexed) (c : Draft.Call) :
    b.EndsAs c.inPlace ((c.apply b.toDraft).map fun d => ((c.gives? b.toDraft).map (·.1), d)) := by
  have declared : ∀ {t : DomainType}, t.key = .name t.name →
      b.EndsAs (some <$> Draft.declareInPlace t)
        (((b.declare t).map (·.2)).map fun d =>
          ((Draft.Call.gives?.declared? b.toDraft t).map (·.1), d)) := by
    intro t hkey
    have hmap := (declareInPlace h hkey).map some
    rw [Draft.Call.gives?.declared?]
    cases ht : b.declare t <;> rwa [ht] at hmap
  cases c with
  | basic k => exact (basicInPlace h k).map some
  | any x y => exact (anyInPlace h x y).map some
  | entity n isAbstract => exact declared rfl
  | embeddable n => exact declared rfl
  | mappedSupertype n => exact declared rfl
  | tuple n components => exact declared rfl
  | setSupertype id s =>
    have hmap := (setSupertypeInPlace h id s).map fun _ => (none : Option TypeId)
    rw [Draft.Call.apply]
    cases hr : b.setSupertype id s <;> rwa [hr] at hmap
  | addAttribute owner a =>
    have hmap := (addAttributeInPlace h owner a).map fun _ => (none : Option TypeId)
    rw [Draft.Call.apply]
    cases hr : b.addAttribute owner a <;> rwa [hr] at hmap

end EndsAs

/-- The draft behind calls in place, with its tables. -/
def run (b : Tabled) (calls : List Draft.Call) : Tabled :=
  calls.foldl (fun b c => (c.inPlace.run.run b).2) b

variable {b : Tabled}

theorem next_spec (h : b.Indexed) (c : Draft.Call) :
    (c.inPlace.run.run b).2.toDraft = b.toDraft.next c ∧ (c.inPlace.run.run b).2.Indexed := by
  have hends := EndsAs.inPlace h c
  rw [Draft.next]
  cases hc : c.apply b.toDraft with
  | error e =>
    rw [hc] at hends
    have hrun : c.inPlace.run.run b = (.error e, b) := hends
    rw [hrun]
    exact ⟨rfl, h⟩
  | ok d =>
    rw [hc] at hends
    obtain ⟨b', hrun, hd, hb'⟩ := hends
    rw [hrun]
    exact ⟨hd, hb'⟩

theorem run_spec (h : b.Indexed) (calls : List Draft.Call) :
    (b.run calls).toDraft = b.toDraft.run calls ∧ (b.run calls).Indexed := by
  induction calls generalizing b with
  | nil => exact ⟨rfl, h⟩
  | cons c calls ih =>
    obtain ⟨hd, hb⟩ := next_spec h c
    obtain ⟨hrun, hindexed⟩ := ih hb
    rw [hd] at hrun
    exact ⟨hrun, hindexed⟩

end Tabled

namespace Draft

/-! ## Drafts behind any calls -/

theorem run_append (d : Draft) (before after : List Call) :
    d.run (before ++ after) = (d.run before).run after :=
  List.foldl_append

/-- What can be relied on behind calls that start with an empty draft. -/
structure Upheld (calls : List Call) : Prop where
  nodup_keys : (run {} calls).keys.Nodup
  find? : ∀ n id, (run {} calls).find? n = some id ↔
    ∃ t, (run {} calls).typeAt? id = some t ∧ t.declaredName? = some n
  findBasic? : ∀ k id, (run {} calls).findBasic? k = some id ↔
    (run {} calls).typeAt? id = some (.basic k)
  findAny? : ∀ x y id, (run {} calls).findAny? x y = some id ↔
    (run {} calls).typeAt? id = some (.any x y)
  /-- Calls in place come to the same types. -/
  inPlace : (Tabled.run {} calls).toDraft = run {} calls
  /-- Tables lead to what is found among the types, and to nothing else. -/
  names : ∀ n, (Tabled.run {} calls).names.lookup n = (run {} calls).find? n
  basics : ∀ k, (Tabled.run {} calls).basics.lookup k = (run {} calls).findBasic? k
  anys : ∀ x y, (Tabled.run {} calls).anys.lookup (x, y) = (run {} calls).findAny? x y
  kinds : ∀ x y id, (run {} calls).typeAt? id = some (.any x y) →
    (∃ i, (run {} calls).findBasic? x = some i) ∧ ∃ j, (run {} calls).findBasic? y = some j
  /-- In place, each call fails with the same error or gives out the same position. -/
  results : ∀ before c after, calls = before ++ c :: after →
    (c.inPlace.run.run (Tabled.run {} before)).1 =
      (c.apply (run {} before)).map fun _ => (c.gives? (run {} before)).map (·.1)
  /-- A position that was given out at any time stands for what was asked for then. -/
  given : ∀ before c after id t, calls = before ++ c :: after →
    c.gives? (run {} before) = some (id, t) →
    ∃ t', (run {} calls).typeAt? id = some t' ∧ t'.bare = t
  supertypes : ∀ id s, (run {} calls).supertypeOf? id = some s →
    (∃ t, (run {} calls).typeAt? id = some t ∧ t.isExtensible = true) ∧
      ∃ t, (run {} calls).typeAt? s = some t ∧ t.isExtensible = true
  nodup_names : ∀ id, (((run {} calls).declaredBy id).map (·.name)).Nodup
  /-- A call that fails changes neither types nor tables, and what follows it is as if there had been
  no such call. -/
  failed : ∀ before c after e, calls = before ++ c :: after →
    c.apply (run {} before) = .error e →
    c.inPlace.run.run (Tabled.run {} before) = (.error e, Tabled.run {} before) ∧
      run {} calls = run {} (before ++ after)

/-- Calls of any kind and in any order, with any positions and whether they succeed or fail, make
drafts that can be relied on. -/
theorem upheld_run (calls : List Call) : Upheld calls := by
  have orderly := Orderly.empty.run calls
  have ends : ∀ (before : List Call) (c : Call), (Tabled.run {} before).EndsAs c.inPlace
      ((c.apply (run {} before)).map fun d => ((c.gives? (run {} before)).map (·.1), d)) := by
    intro before c
    obtain ⟨hd, hindexed⟩ := Tabled.run_spec Tabled.Indexed.empty before
    have hends := Tabled.EndsAs.inPlace hindexed c
    rwa [hd] at hends
  obtain ⟨hd, indexed⟩ := Tabled.run_spec Tabled.Indexed.empty calls
  refine {
    nodup_keys := orderly.nodup_keys
    find? := fun n id => ?_
    findBasic? := fun k id => ?_
    findAny? := fun x y id => ?_
    inPlace := hd
    names := fun n => ?_
    basics := fun k => ?_
    anys := fun x y => ?_
    kinds := fun x y id ht => ?_
    results := fun before c _ _ => ?_
    given := ?_
    supertypes := fun id s hs => ?_
    nodup_names := orderly.nodup_names
    failed := ?_ }
  · rw [find?_eq_keys, findIdx?_keys orderly.nodup_keys]
    simp only [DomainType.key_eq_name]
  · rw [findBasic?_eq_keys, findIdx?_keys orderly.nodup_keys]
    simp [DomainType.key_eq_kind]
  · rw [findAny?_eq_keys, findIdx?_keys orderly.nodup_keys]
    simp [DomainType.key_eq_kinds]
  · rw [find?_eq_keys, ← hd]
    exact indexed (.name n)
  · rw [findBasic?_eq_keys, ← hd]
    exact indexed (.kind k)
  · rw [findAny?_eq_keys, ← hd]
    exact indexed (.kinds x y)
  · have hmem : DomainType.any x y ∈ (run {} calls).bareTypes :=
      List.mem_map.2 ⟨_, List.mem_of_getElem? ht, rfl⟩
    exact (orderly.knowsKinds x y hmem).imp Option.isSome_iff_exists.1 Option.isSome_iff_exists.1
  · have hends := ends before c
    cases hc : c.apply (run {} before) with
    | error e =>
      rw [hc] at hends
      exact congrArg Prod.fst hends
    | ok d =>
      rw [hc] at hends
      obtain ⟨b', hrun, -⟩ := hends
      exact congrArg Prod.fst hrun
  · rintro before c after id t rfl hgives
    obtain ⟨t', ht', rfl⟩ := typeAt?_of_gives? hgives
    rw [run_append]
    exact (grows_run _ after).typeAt? ht'
  · exact (orderly.extensible id s hs).imp check_eq_true.1 check_eq_true.1
  · rintro before c after e rfl he
    have hends := ends before c
    rw [he] at hends
    refine ⟨hends, ?_⟩
    have hnext : (run {} before).next c = run {} before := by rw [next, he]
    rw [run_append, run_append]
    exact congrArg (run · after) hnext

/-- An association makes its kinds known, each of them once; calls that fail leave no trace. -/
example : (run {} [.any .string .string, .entity "Bid" false, .entity "Bid" true,
    .setSupertype 2 0]).keys = [.kind .string, .kinds .string .string, .name "Bid"] := by
  decide

end Draft

end QueryPath.Logical
