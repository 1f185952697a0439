import Metamodel.Proofs.Facade
import Metamodel.Proofs.Steady

/-!
# Metamodel.Proofs.Representation -- every operation keeps a repository well formed

`Sound r₀ r` says that `r` is well formed and that what was there in `r₀`, its datatypes and their
canonical templates above all, has not turned into something else. Every operation keeps it, for
arbitrary arguments and also where it stops half way; the one that removes objects passes templates
by. Main statement: in every state of every run models, objects, registries and templates fit
together, and no template is ever given up.
-/

namespace Metamodel

variable {κ : Type} {ts : TypeSystem κ} {r₀ r r' : Repository ts}

/-! ## The invariant -/

namespace Repository

/-- `r` is well formed, and what was there in `r₀` has not turned into something else. -/
structure Sound (r₀ r : Repository ts) : Prop where
  wellFormed : r.WellFormed
  steady : r₀.Steady r

theorem WellFormed.sound (h : r.WellFormed) : r.Sound r := ⟨h, .refl r⟩

/-- A property that new elements, overwritten elements and releases alone can break. -/
structure Firm (P : Repository ts → Prop) : Prop extends Declarative P, Growing P where
  annotate : ∀ {r} m {f}, r.Annotating f → P r → P (r.mapEntries m f)
  writeField : ∀ {r} id role value, P r → P (r.writeField id role value)

/-- A property that members and fields cannot break either. -/
structure Robust (P : Repository ts → Prop) : Prop extends Closed P where
  annotate : ∀ {r} m {f}, r.Annotating f → P r → P (r.mapEntries m f)
  writeField : ∀ {r} id role value, P r → P (r.writeField id role value)

theorem Robust.firm {P : Repository ts → Prop} (hP : Robust P) : Firm P :=
  { hP with }

theorem Sound.mapEntries (h : r₀.Sound r) (m : ModelId) (f : List Entry → List Entry) :
    r₀.Sound (r.mapEntries m f) :=
  ⟨h.wellFormed.mapEntries m f, h.steady.trans (steady_mapDatatype fun _ => ⟨rfl, rfl⟩)⟩

theorem sound_robust : Robust r₀.Sound where
  wellFormed := Sound.wellFormed
  grew h hr' := ⟨hr'.1, h.steady.trans hr'.2.steady⟩
  addTemplate name kind h :=
    ⟨h.wellFormed.addTemplate name kind, h.steady.trans (steady_addTemplate name kind)⟩
  mapEntries m f _ h := h.mapEntries m f
  annotate m f _ h := h.mapEntries m f
  putQualifiers m qs h :=
    ⟨h.wellFormed.putQualifiers m qs, h.steady.trans (steady_mapDatatype fun _ => ⟨rfl, rfl⟩)⟩
  putScope m _ h hs :=
    ⟨h.wellFormed.putScope m hs, h.steady.trans (steady_mapDatatype fun _ => ⟨rfl, rfl⟩)⟩
  writeElement id index value h :=
    ⟨h.wellFormed.writeElement id index value, h.steady.trans (steady_writeElement id index value)⟩
  writeField id role value h :=
    ⟨h.wellFormed.writeField id role value, h.steady.trans (steady_writeField id role value)⟩
  free h hid := ⟨h.wellFormed.free hid, h.steady.trans (steady_free _)⟩

/-- No identifier of a model that is read without a check leads out of the repository. -/
structure InRange (r : Repository ts) : Prop where
  object : ∀ {id o}, r.object? id = some o → o.model.index < r.models.size
  scope : ∀ {m n}, r.scopeOf? m = some n → n.index < r.models.size
  /-- The model of a canonical template, through which a datatype is edited. -/
  canonical : ∀ {id m}, r.canonicalModel id = .ok m → m.index < r.models.size
  /-- A shape is the model of a collection and has no registry to look into. -/
  shape : ∀ {m s}, r.model? m = some (.shape s) → r.registryOf? m = none

theorem WellFormed.inRange (h : r.WellFormed) : r.InRange where
  object ho := h.model_lt ho
  scope := by
    intro m n hn
    unfold scopeOf? at hn
    obtain ⟨model, hm, hscope⟩ := Option.bind_eq_some_iff.mp hn
    cases model with
    | shape s => simp [Model.scope?, Model.datatype?] at hscope
    | datatype d => exact h.scope_lt hm hscope
  canonical := by
    intro id m hm
    obtain ⟨-, d, hd, -⟩ := canonicalModel_eq_ok_iff.mp hm
    exact index_lt_of_model? hd
  shape hs := by simp [registryOf?, hs, Model.registry?, Model.datatype?]

end Repository

namespace Step

open Repository (Firm Robust sound_robust)

/-! ## Operations that write fields -/

section Fields

variable {P : Repository ts → Prop} (hP : Firm P)

include hP

theorem keeps_setField (id : ObjectId) (role : String) (value : Option Value) :
    Keeps P (setField id role value) :=
  ⟨fun _ h => ensures_setField h fun _ _ _ => hP.writeField id role value h⟩

theorem keeps_updateInstances (m : ModelId) (role : String) (value : Option Value) :
    Keeps P (updateInstances m role value) := by
  refine (keeps_query _).bind fun model => ?_
  split
  · exact keeps_fail _
  · next template _ =>
    refine (keeps_setField hP template role value).bind fun _ => ?_
    exact (keeps_propagate_of_setField hP.toGrowing value fun target _ copy =>
      keeps_setField hP target.1 role copy).bind fun _ => keeps_note _

theorem keeps_defineMember (template : ObjectId) (member : Member) :
    Keeps P (defineMember template member) := by
  refine (keeps_query _).bind fun m => ?_
  split
  · refine (keeps_query _).bind fun _ => (keeps_checkContainment m member).bind fun _ => ?_
    refine (keeps_createRoleInstance hP.toGrowing _ _ _).bind fun value => ?_
    refine (keeps_edit fun _ h => hP.annotate m (Repository.annotating_define member) h).bind
      fun _ => ?_
    exact (keeps_note _).bind fun _ => keeps_updateInstances hP m member.role (some value)
  · exact keeps_fail _

theorem keeps_installInherited (m : ModelId) (fields : Table String Value) :
    Keeps P (installInherited m fields) :=
  keeps_forEach fields.entries fun field _ =>
    (keeps_cloneValue hP.toGrowing field.2 "" true).bind fun value =>
      keeps_updateInstances hP m field.1 (some value)

theorem keeps_joinBase (m : ModelId) (baseModel : Option ModelId) :
    Keeps P (joinBase m baseModel) := by
  cases baseModel with
  | none => exact keeps_pure ()
  | some bm =>
    exact (keeps_query _).bind fun _ => (keeps_query _).bind fun fields =>
      keeps_installInherited hP m fields

theorem keeps_setBase (template : ObjectId) (base : Option ObjectId) :
    Keeps P (setBase template base) := by
  refine (keeps_query _).bind fun m => (keeps_checkBase m base).bind fun baseModel => ?_
  refine (keeps_leaveBase m fun role => keeps_updateInstances hP m role none).bind fun _ => ?_
  refine (keeps_mapEntries hP.toDeclarative m fun _ => Repository.harmless_rebase base).bind
    fun _ => ?_
  exact keeps_joinBase hP m baseModel

end Fields

/-- A datatype stays one. -/
theorem updateInstances_datatype (h : r.WellFormed) {m : ModelId} {d : Datatype κ}
    (hd : r.model? m = some (.datatype d)) (role : String) (value : Option Value) :
    (updateInstances m role value).Ensures r (fun _ r' => ∃ d', r'.model? m = some (.datatype d'))
      fun _ r' => ∃ d', r'.model? m = some (.datatype d') := by
  have hdatatype : ∀ r', r.Sound r' → ∃ d', r'.model? m = some (.datatype d') := fun r' h' => by
    obtain ⟨d', hd', -⟩ := h'.steady.datatype hd
    exact ⟨d', hd'⟩
  exact ((keeps_updateInstances sound_robust.firm m role value).ensures r h.sound).imp
    (fun _ => hdatatype) fun _ => hdatatype

end Step

/-! ## Runs -/

open Repository (Firm Robust sound_robust)

section Runs

variable {P : Repository ts → Prop}

/-- An operation keeps a firm property, unless it is one of the three that can break it. -/
theorem Operation.perform_firm (hP : Firm P) {operation : Operation κ}
    (helement : ∀ id index, operation = .element id index → P (operation.perform r))
    (hset : ∀ id index value, operation = .setElement id index value → P (operation.perform r))
    (hrelease : ∀ id, operation = .releaseInstance id → P (operation.perform r)) (h : P r) :
    P (operation.perform r) := by
  refine operation.perform_keeps hP.toDeclarative hP.toGrowing (Step.keeps_defineMember hP)
    (fun template role => Step.keeps_removeMember hP.toDeclarative template role fun m =>
      Step.keeps_updateInstances hP m role none) ?_ ?_ helement hset hrelease h
  · rintro template base rfl
    exact (Step.keeps_setBase hP template base).repo h
  · rintro m role value rfl
    exact (Step.keeps_updateInstances hP m role value).repo h

variable (hP : Robust P)

include hP

theorem Operation.perform_robust (h : P r) (operation : Operation κ) : P (operation.perform r) := by
  refine operation.perform_firm hP.firm ?_ ?_ ?_ h
  · rintro id index rfl
    exact (Step.keeps_element hP.toGrowing hP.writeNew id index).repo h
  · rintro id index value rfl
    exact (Step.keeps_setElement hP.toClosed id index value).repo h
  · rintro id rfl
    exact (Step.keeps_releaseInstance hP.toClosed id).repo h

theorem Operation.run_robust (h : P r) (operations : List (Operation κ)) :
    P (run r operations) := by
  induction operations generalizing r with
  | nil => exact h
  | cons operation rest ih => exact ih (operation.perform_robust hP h)

end Runs

namespace Idl

variable {limits : Limits} {r₀ r : Repository (system limits)}
  {P : Repository (system limits) → Prop}

theorem editable_of_firm (hP : Firm P) : Editable P where
  toDeclarative := hP.toDeclarative
  leaf m role v _ := by
    refine ⟨fun r h => ?_⟩
    obtain ⟨h, d, hd⟩ := h
    exact ((Step.keeps_updateInstances hP m role (some v)).ensures r h).and
      (Step.updateInstances_datatype (hP.toDeclarative.wellFormed h) hd role (some v))
  member := Step.keeps_defineMember hP
  base template base r h _ := (Step.keeps_setBase hP template base).ensures r h

variable (hP : Robust P)

include hP

theorem Operation.perform_robust (h : P r) (operation : Operation) : P (operation.perform r) :=
  operation.perform_editable (editable_of_firm hP.firm)
    (fun inner _ => inner.perform_robust hP h) h

theorem Operation.run_robust (h : P r) (operations : List Operation) : P (run r operations) := by
  induction operations generalizing r with
  | nil => exact h
  | cons operation rest ih => exact ih (operation.perform_robust hP h)

omit hP in
/-- Every operation keeps a repository well formed and every template in its place. -/
theorem Operation.perform_sound (h : r₀.Sound r) (operation : Operation) :
    r₀.Sound (operation.perform r) :=
  operation.perform_robust sound_robust h

end Idl

/-- Every state of a run is well formed. -/
theorem Operation.wellFormed_run (ts : TypeSystem κ) (operations : List (Operation κ)) :
    (run (Repository.empty ts) operations).WellFormed :=
  (run_robust sound_robust Repository.wellFormed_empty.sound operations).wellFormed

/-- Every state of a run of the facade is well formed. -/
theorem Idl.Operation.wellFormed_run (limits : Limits) (operations : List Operation) :
    (run (initial limits) operations).WellFormed := by
  have hinitial : (initial limits).WellFormed :=
    (initial_of_empty sound_robust.toDeclarative Repository.wellFormed_empty.sound).wellFormed
  exact (run_robust sound_robust hinitial.sound operations).wellFormed

/-- In every state of every run from the empty repository, and of every run of the facade, models,
objects, registries and templates fit together, and no unchecked access is out of range. However a
run goes on, every datatype keeps its kind and its canonical template, which stays alive. -/
theorem runs_wellFormed (ts : TypeSystem κ) (limits : Limits) :
    (∀ operations more : List (Operation κ),
      let r := Operation.run (Repository.empty ts) operations
      r.WellFormed ∧ r.InRange ∧ r.Sound (Operation.run r more)) ∧
    (∀ operations more : List Idl.Operation,
      let r := Idl.Operation.run (Idl.initial limits) operations
      r.WellFormed ∧ r.InRange ∧ r.Sound (Idl.Operation.run r more)) := by
  constructor
  · intro operations more r
    have h : r.WellFormed := Operation.wellFormed_run ts operations
    exact ⟨h, h.inRange, Operation.run_robust sound_robust h.sound more⟩
  · intro operations more r
    have h : r.WellFormed := Idl.Operation.wellFormed_run limits operations
    exact ⟨h, h.inRange, Idl.Operation.run_robust sound_robust h.sound more⟩

end Metamodel
