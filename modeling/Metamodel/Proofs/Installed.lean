import Metamodel.Proofs.Guarding
import Metamodel.Proofs.Obtaining

/-!
# Metamodel.Proofs.Installed -- what is installed in a template stays

A release passes canonical templates by, but not what is installed in them: that goes when it is
released itself, and with whatever else holds it. Nothing else does unless it is put into a
collection. Main statement: as long as nothing that is installed is released itself or becomes an
element, releases break no template, and every datatype of which instances can be made stays one.
-/

namespace Metamodel

variable {κ : Type} {ts : TypeSystem κ} {r : Repository ts}

namespace Step

open Repository (Guarded GuardedApart guarded_declarative guarded_growing guardedApart_growing)

variable {α : Type}

/-! ## Operations -/

theorem setField_guarded (h : r.Guarded) (id : ObjectId) (role : String) {value : Option Value}
    (hvalue : r.Installable value) :
    (setField id role value).Ensures r (fun _ => Guarded) fun _ => Guarded :=
  ensures_setField h fun _ _ _ => h.writeField id role hvalue

/-- A value is made for a template and then used, as one that may be installed. -/
theorem guarded_install {x : Step ts Value} (hx : ∀ r, r.WellFormed → MakesOwned x r)
    {f : Value → Step ts α} (hf : ∀ v r, r.Guarded → r.Installable (some v) →
      (f v).Ensures r (fun _ => Guarded) fun _ => Guarded) :
    Keeps (Guarded : Repository ts → Prop) (x >>= f) := by
  refine ⟨fun r h => ?_⟩
  rw [ensures_bind]
  refine Ensures.imp (hx r h.wellFormed) ?_ fun _ _ hgrew => h.grew hgrew
  rintro v r' ⟨hgrew, hloose, hsymbolic⟩
  exact hf v r' (h.grew hgrew) (h.installable hgrew hloose hsymbolic)

theorem updateInstances_guarded (h : r.Guarded) (m : ModelId) (role : String)
    {value : Option Value} (hvalue : r.Installable value) :
    (updateInstances m role value).Ensures r (fun _ => Guarded) fun _ => Guarded := by
  simp only [updateInstances, ensures_bind, ensures_query]
  refine ⟨fun model _ => ?_, fun _ _ => h⟩
  split
  · exact h
  · next template _ =>
    rw [ensures_bind]
    refine (setField_guarded h template role hvalue).imp ?_ fun _ _ h' => h'
    -- Instances get copies, each of them made for the purpose.
    have hpropagate : Keeps (Guarded : Repository ts → Prop)
        (propagate role value (otherInstances model template)) := by
      refine keeps_propagate (fun target _ => ⟨fun r h => ?_⟩) fun v target _ => ?_
      · exact setField_guarded h target.1 role (h.installable_of_leaf rfl)
      · refine guarded_install (fun r hr => cloneValue_makesOwned hr v target.2) ?_
        exact fun copy r h hcopy => setField_guarded h target.1 role hcopy
    exact fun _ r' h' => (hpropagate.bind fun _ => keeps_note _).ensures r' h'

theorem guarded_remove (m : ModelId) (role : String) :
    Keeps (Guarded : Repository ts → Prop) (updateInstances m role none) :=
  ⟨fun _ h => updateInstances_guarded h m role (h.installable_of_leaf rfl)⟩

theorem guarded_defineMember (template : ObjectId) (member : Member) :
    Keeps (Guarded : Repository ts → Prop) (defineMember template member) := by
  refine (keeps_query _).bind fun m => ?_
  split
  · refine (keeps_query _).bind fun _ => (keeps_checkContainment m member).bind fun _ => ?_
    refine guarded_install (fun r hr => createRoleInstance_makesOwned hr _ _ _) fun v r h hv => ?_
    simp only [ensures_bind, ensures_edit, ensures_note]
    exact updateInstances_guarded (h.mapEntries m _) m member.role (hv.mapEntries m _)
  · exact keeps_fail _

theorem guarded_setBase (template : ObjectId) (base : Option ObjectId) :
    Keeps (Guarded : Repository ts → Prop) (setBase template base) := by
  refine (keeps_query _).bind fun m => (keeps_checkBase m base).bind fun baseModel => ?_
  refine (keeps_leaveBase m (guarded_remove m)).bind fun _ => ?_
  refine (keeps_edit fun _ h => h.mapEntries m _).bind fun _ => ?_
  cases baseModel with
  | none => exact keeps_pure ()
  | some bm =>
    refine (keeps_query _).bind fun _ => (keeps_query _).bind fun fields => ?_
    refine keeps_forEach fields.entries fun field _ => ?_
    exact guarded_install (fun r hr => cloneValue_makesOwned hr field.2 "") fun v r h hv =>
      updateInstances_guarded h m field.1 hv

theorem guarded_element (id : ObjectId) (index : Nat) :
    Keeps (Guarded : Repository ts → Prop) (element id index) :=
  keeps_element guarded_growing (fun id index _ h hgrew hv => h.writeNew hgrew hv id index) id index

/-- An element may be overwritten by what is not installed. -/
theorem guarded_setElement (id : ObjectId) (index : Nat) (value : Value) :
    Keeps (GuardedApart value : Repository ts → Prop) (setElement id index value) := by
  refine keeps_setElement_of_element (keeps_element (guardedApart_growing value) ?_ id index)
    fun r h => h.writeElement (h.guarded.writeElement id index h.outside)
  intro r r' id index v h hgrew hv
  exact ((guardedApart_growing value).grew h hgrew).writeElement
    (h.guarded.writeNew hgrew hv id index)

/-- A collection that is installed in a template cannot be released by itself. -/
theorem releaseInstance_refused (h : r.Guarded) {id : ObjectId} {m : ModelId} {es : Table Nat Value}
    (hid : r.Installed id) (ho : r.object? id = some (.collection m es)) :
    (releaseInstance id).Ensures r (fun _ _ => False)
      fun e r' => e = .scope (.canonical (r.label id)) ∧ r' = r := by
  have hm : r.modelOf id = .ok m := Repository.modelOf_of_object? ho
  simp only [releaseInstance, ensures_bind, ensures_query, ensures_ask, hm]
  refine ⟨fun k hk => ?_, fun e he => by simp at he⟩
  obtain rfl := Except.ok.inj hk
  rw [if_pos (h.template?_of_collection hid ho)]
  exact ⟨rfl, rfl⟩

/-- A release leaves templates guarded, unless it is of a composite that is installed. -/
theorem releaseInstance_guarded (h : r.Guarded) {id : ObjectId}
    (hid : ∀ m f, r.object? id = some (.composite m f) → ¬ r.Installed id) :
    (releaseInstance id).Ensures r (fun _ => Guarded) fun _ => Guarded := by
  refine releaseInstance_ensures h fun m hm hne => ?_
  refine h.release (h.wellFormed.noTemplate_of_modelOf hm hne) fun hinstalled => ?_
  obtain ⟨o, ho, rfl⟩ := Repository.modelOf?_eq_some_iff.mp (Repository.modelOf_eq_ok_iff.mp hm)
  cases o with
  | composite k f => exact hid k f ho hinstalled
  | collection k es => exact hne (h.template?_of_collection hinstalled ho)

/-- Where templates are guarded and no datatype contains itself, instances can be made of every
datatype that may have some and is no alias. -/
theorem newInstance_answers (h : r.Guarded) (hacyclic : r.Acyclic) {m : ModelId} {d : Datatype κ}
    (hd : r.model? m = some (.datatype d)) (htemplate : ts.isTemplate d.kind = true)
    (halias : ts.isAlias d.kind = false) (under : String) (owned : Bool) :
    ∃ v, ((newInstance d.template under owned).run r).answer = .ok v := by
  obtain ⟨f, ho⟩ := h.wellFormed.template hd
  have hplain : r.IsPlain d.template m := ⟨f, d, ho, hd, htemplate, halias⟩
  have hmade := newInstance_instantiable ⟨h.bounded, hacyclic⟩ h.templatesCopyable d.template under
    owned
  cases ha : ((newInstance d.template under owned).run r).answer with
  | ok v => exact ⟨v, rfl⟩
  | error e => exact (hmade.fails_of_answer ha ⟨_, hplain.seed, by simp⟩).elim

end Step

/-! ## Runs -/

open Repository (Guarded guarded_declarative guarded_growing)

/-- The rule under which releases break no template: fields are written through declarations only,
no composite that is installed in a template is released itself, and nothing that is installed is
put into a collection. -/
def Operation.KeepsInstalled (r : Repository ts) : Operation κ → Prop
  | updateInstances _ _ _ => False
  | setElement _ _ value => ∀ x, value.object? = some x → r.Outside x
  | releaseInstance id => ∀ m f, r.object? id = some (.composite m f) → ¬ r.Installed id
  | _ => True

theorem Operation.perform_guarded (h : r.Guarded) {operation : Operation κ}
    (hrule : operation.KeepsInstalled r) : (operation.perform r).Guarded := by
  refine operation.perform_keeps guarded_declarative guarded_growing Step.guarded_defineMember
    (fun template role => Step.keeps_removeMember guarded_declarative template role fun m =>
      Step.guarded_remove m role) ?_ ?_ ?_ ?_ ?_ h
  · rintro template base rfl
    exact (Step.guarded_setBase template base).repo h
  · rintro m role value rfl
    exact hrule.elim
  · rintro id index rfl
    exact (Step.guarded_element id index).repo h
  · rintro id index value rfl
    exact ((Step.guarded_setElement id index value).repo ⟨h, hrule⟩).guarded
  · rintro id rfl
    exact (Step.releaseInstance_guarded h hrule).repo

namespace Idl

variable {limits : Limits} {r : Repository (system limits)}

theorem guarded_editable : Editable (Guarded : Repository (system limits) → Prop) where
  toDeclarative := guarded_declarative
  leaf m role v hleaf := by
    refine ⟨fun r h => ?_⟩
    obtain ⟨h, d, hd⟩ := h
    have hinstallable : r.Installable (some v) :=
      h.installable_of_leaf (by simpa using hleaf.object?_eq_none)
    exact (Step.updateInstances_guarded h m role hinstallable).and
      (Step.updateInstances_datatype h.wellFormed hd role (some v))
  member := Step.guarded_defineMember
  base template base r h _ := (Step.guarded_setBase template base).ensures r h

/-- The facade keeps to the rule by itself. -/
def Operation.KeepsInstalled (r : Repository (system limits)) : Operation → Prop
  | repository operation => operation.KeepsInstalled r
  | _ => True

theorem Operation.perform_guarded (h : r.Guarded) {operation : Operation}
    (hrule : operation.KeepsInstalled r) : (operation.perform r).Guarded := by
  refine operation.perform_editable guarded_editable ?_ h
  rintro inner rfl
  exact inner.perform_guarded h hrule

/-- As long as no composite that is installed in a template is released itself, and nothing that is
installed is put into a collection: whatever else is released, all that is installed is live. A
release of a collection that is installed is refused, and unless a datatype contains itself,
instances can be made of every datatype that may have some, aliases apart. -/
theorem installed_of_reached
    (h : Reached Operation.perform Operation.KeepsInstalled (initial limits) r) :
    (∀ x, r.Installed x → r.isLive x = true) ∧
      (∀ x m es, r.Installed x → r.object? x = some (.collection m es) →
        ((Step.releaseInstance x).run r).answer = .error (.scope (.canonical (r.label x))) ∧
          ((Step.releaseInstance x).run r).repo = r) ∧
      (r.Acyclic → ∀ m d under owned, r.model? m = some (.datatype d) →
        (system limits).isTemplate d.kind = true → (system limits).isAlias d.kind = false →
        ∃ v, ((Step.newInstance d.template under owned).run r).answer = .ok v) := by
  have hr : r.Guarded := h.invariant
    (initial_of_empty guarded_declarative Repository.guarded_empty) fun _ _ hr hrule =>
      Operation.perform_guarded hr hrule
  refine ⟨fun x hx => hr.isLive_of_installed hx, fun x m es hx ho => ?_,
    fun hacyclic m d under owned hd ht ha => ?_⟩
  · have hrefused := Step.releaseInstance_refused hr hx ho
    cases he : ((Step.releaseInstance x).run r).answer with
    | ok n => exact (hrefused.ok_of_answer he).elim
    | error e =>
      obtain ⟨rfl, hrepo⟩ := hrefused.fails_of_answer he
      exact ⟨rfl, hrepo⟩
  · exact Step.newInstance_answers hr hacyclic hd ht ha under owned

/-- A collection that is installed in a template is written into another one. By itself it is not
released, but it goes with the other one, and then there is nothing to make instances from. -/
theorem freed_installed :
    let made := Operation.run (initial ⟨4, 4⟩)
      [.newStruct "Box" [.member ⟨"v", Atom.long.template, [sequence .unbounded], []⟩],
        .repository (.newCollection Atom.long.template .unbounded "c" false),
        .repository (.setElement ⟨23⟩ 1 (.collection ⟨22⟩))]
    let r := Operation.perform made (.repository (.releaseInstance ⟨23⟩))
    ((Step.releaseInstance ⟨22⟩).run made).answer = .error (.scope (.canonical "v")) ∧
      r.Installed ⟨22⟩ ∧ r.isLive ⟨22⟩ = false ∧
      ((Step.newInstance ⟨21⟩ "" false).run r).answer = .error (.unknownObject ⟨22⟩) := by
  intro made r
  have hcanonical : r.canonicalModel ⟨21⟩ = .ok ⟨21⟩ := by decide +kernel
  have hfield : r.field? ⟨21⟩ "v" = some (.collection ⟨22⟩) := by decide +kernel
  refine ⟨by decide +kernel, ?_, by decide +kernel, by decide +kernel⟩
  exact ⟨_, _, .root (Repository.canonical_of_canonicalModel hcanonical),
    Repository.hasField_of_field? hfield, rfl⟩

/-- A box that is no template is put into a collection and released with it, and another one by
itself; what is installed in the template stays, and a third box can be made. -/
theorem installed_box :
    let r₀ := Operation.run (initial ⟨4, 4⟩)
      [.newStruct "Point" [.member ⟨"x", Atom.long.template, [], []⟩],
        .newStruct "Box" [.member ⟨"v", Atom.long.template, [sequence .unbounded], []⟩,
          .member ⟨"p", ⟨21⟩, [], []⟩],
        .repository (.newInstance ⟨22⟩ "b" false), .repository (.newInstance ⟨22⟩ "d" false),
        .repository (.newCollection Atom.long.template .unbounded "c" false)]
    let r₁ := Operation.perform r₀ (.repository (.setElement ⟨31⟩ 1 (.composite ⟨27⟩)))
    let r₂ := Operation.perform r₁ (.repository (.releaseInstance ⟨31⟩))
    let r := Operation.perform r₂ (.repository (.releaseInstance ⟨30⟩))
    (r₀.liveCount = 32 ∧ r.liveCount = 25) ∧ (∀ x, r.Installed x → r.isLive x = true) ∧
      ∃ v, ((Step.newInstance ⟨22⟩ "e" false).run r).answer = .ok v := by
  intro r₀ r₁ r₂ r
  have hcount : r₀.liveCount = 32 ∧ r.liveCount = 25 := by decide +kernel
  have hindex : (27 : Nat) < r₀.objects.size := by decide +kernel
  have hvalue : r₀.Unheld ⟨27⟩ := by decide +kernel
  have hcollection : r₁.isCollection ⟨31⟩ = true := by decide +kernel
  have hreleased : r₂.Unheld ⟨30⟩ := by decide +kernel
  have hcanonical : r.canonicalModel ⟨22⟩ = .ok ⟨22⟩ := by decide +kernel
  have hkind : r.kindOf? ⟨22⟩ = some Kind.struct := by decide +kernel
  have h₀ : Reached Operation.perform Operation.KeepsInstalled (initial ⟨4, 4⟩) r₀ := by
    simp only [r₀, Operation.run, List.foldl_cons, List.foldl_nil]
    exact .next (.next (.next (.next (.next .start trivial) trivial) trivial) trivial) trivial
  have hbases₀ : Reached Operation.perform Operation.KeepsBases (initial ⟨4, 4⟩) r₀ := by
    simp only [r₀, Operation.run, List.foldl_cons, List.foldl_nil]
    exact .next (.next (.next (.next (.next .start trivial) trivial) trivial) trivial) trivial
  clear_value r₀
  have hset : Operation.KeepsInstalled r₀ (.repository (.setElement ⟨31⟩ 1 (.composite ⟨27⟩))) := by
    intro x hx
    obtain rfl : ⟨27⟩ = x := by simpa [Value.object?] using hx
    exact ⟨hindex, Repository.not_installedIn_of_unheld hvalue⟩
  have hwith : Operation.KeepsInstalled r₁ (.repository (.releaseInstance ⟨31⟩)) := by
    intro m f ho
    simp [Repository.isCollection, Repository.elements?, ho] at hcollection
  have halone : Operation.KeepsInstalled r₂ (.repository (.releaseInstance ⟨30⟩)) := fun _ _ _ =>
    Repository.not_installedIn_of_unheld hreleased
  have h : Reached Operation.perform Operation.KeepsInstalled (initial ⟨4, 4⟩) r :=
    .next (.next (.next h₀ hset) hwith) halone
  have hbases : Reached Operation.perform Operation.KeepsBases (initial ⟨4, 4⟩) r :=
    .next (.next (.next hbases₀ trivial) trivial) trivial
  obtain ⟨-, d, hd, ht⟩ := Repository.canonicalModel_eq_ok_iff.mp hcanonical
  obtain ⟨e, he, hstruct⟩ := Repository.kindOf?_eq_some_iff.mp hkind
  obtain rfl := Repository.datatype_unique hd he
  obtain ⟨hlive, -, hanswers⟩ := installed_of_reached h
  refine ⟨hcount, hlive, ?_⟩
  rw [← ht]
  exact hanswers (orderly_of_reached hbases).acyclic ⟨22⟩ d "e" false hd (by rw [hstruct]; rfl)
    (by rw [hstruct]; rfl)

end Idl

end Metamodel
