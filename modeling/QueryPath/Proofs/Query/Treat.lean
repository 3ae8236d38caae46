import QueryPath.Proofs.Catalog.Hierarchy
import QueryPath.Proofs.Path.Over
import QueryPath.Proofs.Query.Bound

/-!
# Checking narrowing steps

A resolver that checks narrowing steps refuses a path exactly if one of its steps does not fit the
domain model (`Path.Misfit`): it narrows to what is no entity, or from what is none, or to an
entity that is not below the one it narrows. The check itself looks at descriptors; these are
always found, and have the hierarchy of the domain model (`validateTreat_spec`). The error is about
the last step that does not fit, and a path whose steps all fit has the part that it has without
the check.
-/

namespace QueryPath

open Logical (Model Source SourceKind TypeId)

/-! ## Steps that do not fit -/

/-- The last step of the path narrows to what it should not, for this reason. -/
inductive Path.Misfit (m : Model) : Path → TreatFault → Prop
  | notEntity {b t} : (∀ n, t.kind ≠ .entity n) → Misfit m (.treat b t) (.notEntity t.typeName)
  | baseNotEntity {b t n} : t.kind = .entity n →
      (∀ s n', b.source? = some s → s.kind ≠ .entity n') → Misfit m (.treat b t) .baseNotEntity
  | notSubtype {b t s n n'} : t.kind = .entity n → b.source? = some s → s.kind = .entity n' →
      m.isSubtype t.type s.type = false → Misfit m (.treat b t) (.notSubtype n n')

/-- Within `p`, the path `q` is the longest one whose last step does not fit. -/
def Path.LastMisfit (m : Model) (p q : Path) (f : TreatFault) : Prop :=
  ∃ before after, p :: p.bases = before ++ q :: after ∧
    (∀ x ∈ before, ∀ f, ¬ x.Misfit m f) ∧ q.Misfit m f

/-- The outcome of a check of all steps of a path: an error about the last one that does not fit, if
there is one. -/
def Path.ChecksTo (m : Model) (p : Path) (outcome : Except ResolutionError Unit) : Prop :=
  Ensures outcome (fun _ => ∀ q ∈ p :: p.bases, ∀ f, ¬ q.Misfit m f)
    fun e => ∃ q f, p.LastMisfit m q f ∧ e = .invalidTreat q.text q.name f

section Steps

variable {m : Model} {p b q : Path} {f : TreatFault}

theorem Path.LastMisfit.here (h : p.Misfit m f) : p.LastMisfit m p f :=
  ⟨[], p.bases, rfl, by simp, h⟩

/-- Behind a step that fits, the last one that does not is that of the base. -/
theorem Path.LastMisfit.step (hp : ∀ f, ¬ p.Misfit m f) (hb : p.base? = some b)
    (h : b.LastMisfit m q f) : p.LastMisfit m q f := by
  obtain ⟨before, after, hsplit, hbefore, hq⟩ := h
  refine ⟨p :: before, after, by rw [Path.bases_eq hb, hsplit, List.cons_append], ?_, hq⟩
  exact List.forall_mem_cons.2 ⟨hp, hbefore⟩

theorem Path.LastMisfit.mem (h : p.LastMisfit m q f) : q ∈ p :: p.bases := by
  obtain ⟨before, after, hsplit, -⟩ := h
  rw [hsplit]
  exact List.mem_append_right _ List.mem_cons_self

theorem Path.LastMisfit.misfit (h : p.LastMisfit m q f) : q.Misfit m f := by
  obtain ⟨-, -, -, -, hq⟩ := h
  exact hq

/-- If the last step of a path fits, the outcome for its base is that for the path. -/
theorem Path.ChecksTo.step {outcome : Except ResolutionError Unit} (hp : ∀ f, ¬ p.Misfit m f)
    (hb : p.base? = some b) (h : b.ChecksTo m outcome) : p.ChecksTo m outcome := by
  refine Ensures.mono h (fun _ hfits => ?_) fun e ⟨q, f, hq, he⟩ => ⟨q, f, hq.step hp hb, he⟩
  rw [Path.bases_eq hb]
  exact List.forall_mem_cons.2 ⟨hp, hfits⟩

end Steps

/-! ## The check -/

namespace Catalog.MadeFrom

variable {c : Catalog} {d : Definition Definition.Attribute} {uses : Definition.Uses}
  (made : c.MadeFrom d uses)

include made

/-- A source of an entity has the descriptor of that entity. -/
theorem exists_describes_of_hasKind {type : TypeId} {stored : Option Kind} {n : String}
    (h : c.logical.HasKind type stored (.entity n)) :
    ∃ x, x.name = n ∧ c.Describes x type ∧ c.metamodel.entity n = .ok x := by
  obtain ⟨x, rfl, hx⟩ :=
    made.exists_describes (Logical.Draft.entityName?_eq_some.2 h.entity)
  exact ⟨x, rfl, hx, Physical.Metamodel.entity_eq_ok.2 hx.found⟩

/-- The check of one step finds what does not fit, and nothing else. -/
theorem validateTreat_spec {b : Path} {t : Source} (hp : (Path.treat b t).Over c.registry) :
    Ensures (validateTreat c.metamodel (.treat b t))
      (fun _ => ∀ f, ¬ (Path.treat b t).Misfit c.logical f)
      (fun e => ∃ f, (Path.treat b t).Misfit c.logical f ∧
        e = .invalidTreat (Path.treat b t).text t.name f) := by
  have entity? : ∀ {s : Source} {n}, s.entity? = some n ↔ s.kind = .entity n :=
    SourceKind.entity?_eq_some
  unfold validateTreat
  dsimp only
  cases ht : t.entity? with
  | none =>
    refine ensures_error.2 ⟨_, .notEntity fun n hn => ?_, rfl⟩
    rw [entity?.2 hn] at ht
    cases ht
  | some n =>
    have htkind := entity?.1 ht
    cases hbase : b.source?.bind Source.entity? with
    | none =>
      refine ensures_error.2 ⟨_, .baseNotEntity htkind fun s n' hs hn => ?_, rfl⟩
      rw [hs, Option.bind_some, entity?.2 hn] at hbase
      cases hbase
    | some n' =>
      obtain ⟨s, hs, hskind⟩ := Option.bind_eq_some_iff.1 hbase
      replace hskind := entity?.1 hskind
      obtain ⟨stored, hthas⟩ := hp.hasKind made.regular made.registry rfl
      obtain ⟨stored', hshas⟩ := (hp.base rfl).hasKind made.regular made.registry hs
      obtain ⟨x, rfl, hx, hxok⟩ := made.exists_describes_of_hasKind (htkind ▸ hthas)
      obtain ⟨y, rfl, hy, hyok⟩ := made.exists_describes_of_hasKind (hskind ▸ hshas)
      simp only [hxok, hyok, ofPhysical, bind, Except.bind, made.isSubtype_eq hx hy]
      cases hsub : c.logical.isSubtype t.type s.type with
      | false => exact ensures_error.2 ⟨_, .notSubtype htkind hs hskind hsub, rfl⟩
      | true =>
        refine ensures_ok.2 fun f hf => ?_
        cases hf with
        | notEntity h => exact h _ htkind
        | baseNotEntity _ h => exact h s _ hs hskind
        | notSubtype _ hs' _ hsub' =>
          rw [hs, Option.some.injEq] at hs'
          rw [← hs', hsub] at hsub'
          cases hsub'

/-- The check of a path finds the last step that does not fit, if there is one. -/
theorem validateTreats_spec {p : Path} (hp : p.Over c.registry) :
    p.ChecksTo c.logical (validateTreats c.metamodel p) := by
  induction p with
  | root s v =>
    refine ensures_ok.2 (List.forall_mem_singleton.2 fun f hf => ?_)
    cases hf
  | cteRoot t v =>
    refine ensures_ok.2 (List.forall_mem_singleton.2 fun f hf => ?_)
    cases hf
  | cteColumn b _ _ ih | member b _ _ _ ih | part b _ _ ih =>
    exact .step (b := b) (fun f hf => by cases hf) rfl (ih (hp.base rfl))
  | treat b t ih =>
    refine Ensures.bind ((made.validateTreat_spec hp).mono (fun _ hfits => hfits) ?_)
      fun _ hfits => Path.ChecksTo.step hfits rfl (ih (hp.base rfl))
    rintro e ⟨f, hf, rfl⟩
    exact ⟨_, f, .here hf, rfl⟩

end Catalog.MadeFrom

/-! ## Resolution -/

namespace Resolver

/-- The same resolver without the check of narrowing steps. -/
def lenient (r : Resolver) : Resolver := { r with validatesTreats := false }

/-- The check is no part of the resolution itself. -/
theorem resolveAt_lenient (r : Resolver) (p : Path) (depth : Nat) :
    r.lenient.resolveAt p depth = r.resolveAt p depth := by
  have within : r.Within r.lenient := ⟨rfl, rfl, Nat.le_refl _⟩
  have within' : r.lenient.Within r := ⟨rfl, rfl, Nat.le_refl _⟩
  exact Option.ext fun _ => ⟨resolveAt_mono within', resolveAt_mono within⟩

theorem resolve_lenient (r : Resolver) (p : Path) : r.lenient.resolve p = .ok (r.resolve? p) :=
  congrArg Except.ok (r.resolveAt_lenient p 0)

/-- With the check a path has the part that it has without, unless the check fails. -/
theorem resolve_eq_bind {r : Resolver} (hr : r.validatesTreats = true) (p : Path) :
    r.resolve p = validateTreats r.metamodel p >>= fun _ => r.lenient.resolve p := by
  rw [resolve_lenient, resolve, if_pos hr]
  rfl

end Resolver

namespace Catalog

open Definition (RawAttribute)

/-- The check of narrowing steps is exact: it refuses the paths with a step that does not fit, in
the name of the last such step, and leaves all others the part that they have without it. -/
theorem resolve_strict {raw : Definition RawAttribute} {c : Catalog} (h : ofDefinition raw = .ok c)
    {r : Resolver} (hm : r.metamodel = c.metamodel) (hr : r.validatesTreats = true) {p : Path}
    (hp : p.Over c.registry) :
    ((∃ e, r.resolve p = .error e) ↔ ∃ q ∈ p :: p.bases, ∃ f, q.Misfit c.logical f) ∧
    (∀ e, r.resolve p = .error e →
      ∃ q f, p.LastMisfit c.logical q f ∧ e = .invalidTreat q.text q.name f) ∧
    ((∀ q ∈ p :: p.bases, ∀ f, ¬ q.Misfit c.logical f) →
      ∃ part, r.resolve p = .ok part ∧ r.lenient.resolve p = .ok part) := by
  obtain ⟨d, uses, -, -, made⟩ := exists_madeFrom h
  obtain ⟨hok, herror⟩ := made.validateTreats_spec hp
  rw [Resolver.resolve_eq_bind hr, Resolver.resolve_lenient, hm]
  cases hv : validateTreats c.metamodel p with
  | error e =>
    obtain ⟨q, f, hq, rfl⟩ := herror e hv
    refine ⟨⟨fun _ => ⟨q, hq.mem, f, hq.misfit⟩, fun _ => ⟨_, rfl⟩⟩, ?_, fun hfits => ?_⟩
    · rintro e ⟨⟩
      exact ⟨q, f, hq, rfl⟩
    · exact absurd hq.misfit (hfits q hq.mem f)
  | ok _ =>
    refine ⟨⟨?_, ?_⟩, ?_, fun _ => ⟨_, rfl, rfl⟩⟩
    · rintro ⟨e, ⟨⟩⟩
    · rintro ⟨q, hq, f, hf⟩
      exact absurd hf (hok _ hv q hq f)
    · rintro e ⟨⟩

set_option maxRecDepth 100000 in
/-- Silent auctions are not narrowed to auctions, not even where they were narrowed from those. -/
theorem resolve_sealedAuctions : ∃ c s p q x f, ofDefinition sealedAuctions = .ok c ∧
    Path.ofEntity c.registry "Auction" (some "a") = .ok s ∧
    s.treatAs c.registry "SilentAuction" = .ok p ∧ p.treatAs c.registry "Auction" = .ok q ∧
    q.LastMisfit c.logical x f ∧ x.text = "Auction(a)#SilentAuction#Auction" ∧
    f = .notSubtype "Auction" "SilentAuction" := by
  let strict := fun c : Catalog => Resolver.mk c.metamodel Resolver.noGroups 64 true
  let refused : ResolutionError := .invalidTreat "Auction(a)#SilentAuction#Auction" "Auction"
    (.notSubtype "Auction" "SilentAuction")
  let P := fun c : Catalog => (Path.ofEntity c.registry "Auction" (some "a")).toOption.any fun s =>
    (s.treatAs c.registry "SilentAuction").toOption.any fun p =>
      (p.treatAs c.registry "Auction").toOption.any fun q =>
        decide ((strict c).resolve q = .error refused)
  obtain ⟨c, hc, hP⟩ : ∃ c, ofDefinition sealedAuctions = .ok c ∧ P c = true :=
    exists_ok_of_any (by decide +kernel)
  obtain ⟨s, hs, hP⟩ := exists_ok_of_any hP
  obtain ⟨p, hp, hP⟩ := exists_ok_of_any hP
  obtain ⟨q, hq, hP⟩ := exists_ok_of_any hP
  obtain ⟨root, hroot, hs'⟩ := Path.ofEntity_eq_ok hs
  have hover : q.Over c.registry := ((hs' ▸ Path.Over.root hroot).treatAs hp).treatAs hq
  obtain ⟨x, f, hx, he⟩ := (resolve_strict hc rfl rfl hover).2.1 _ (of_decide_eq_true hP)
  injection he with htext _ hf
  exact ⟨c, s, p, q, x, f, hc, hs, hp, hq, hx, htext.symm, hf.symm⟩

end Catalog

end QueryPath
