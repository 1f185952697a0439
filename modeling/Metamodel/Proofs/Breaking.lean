import Metamodel.Proofs.Spreading

/-!
# Metamodel.Proofs.Breaking -- what an update that fails has done

An update writes the value into the canonical template before the first copy for an instance is
made, so that a value that cannot be copied leaves the template changed and the instances behind.
Main statement: in every state of every run, an update that fails either changes nothing, or its
very first copy fails. Then the template has the value, and no other object that was there has
changed; for a value that was copied once is copied for all instances, however many there are.
-/

namespace Metamodel

variable {κ : Type} {ts : TypeSystem κ} {r r₁ r' : Repository ts} {m : ModelId} {role : String}
  {value copy : Option Value} {since : Nat} {e : Error} {targets : List (ObjectId × String)}

namespace Step

open Repository (Annotated Later annotated_robust)

/-! ## Propagations -/

/-- What has been copied once is copied for every target, so that none of them is left out. By
induction on the targets: what was copied goes on to be a copy while instances are written. -/
theorem propagate_answers {path : String} (h : Targets r m since targets) (hr : r.Annotated)
    (hcopied : r.ReproducesField since path value copy) :
    (propagate role value targets).Ensures r (fun _ _ => True) fun _ _ => False := by
  induction targets generalizing r with
  | nil => exact trivial
  | cons target rest ih =>
    obtain ⟨f, ho⟩ := h.composite target List.mem_cons_self
    apply ensures_propagate_cons (Q := fun _ r₁ => Grew r r₁)
    case hlive => exact Repository.isLive_iff.mpr ⟨_, ho⟩
    case hnone => exact fun _ => grew_refl hr.wellFormed
    case hsome =>
      rintro v rfl
      obtain ⟨w, rfl⟩ : ∃ w, copy = some w := by
        cases hcopied with
        | some _ => exact ⟨_, rfl⟩
      obtain ⟨depth, hdepth, hvw⟩ := Option.rel_some_some.mp hcopied
      exact ((cloneValue_makes hr.wellFormed v target.2 true).and
        (cloneValue_answers hr hdepth hvw target.2 true)).imp (fun _ _ h => h.1.1) fun _ _ h => h.2
    case hrest =>
      intro copy' r₁ hgrew
      have hmade : Later since r r₁ := .of_extends hr.wellFormed hgrew.2
      have hno := hmade.noTemplate (h.noTemplate target List.mem_cons_self)
      have hlater : Later since r (r₁.writeField target.1 role copy') :=
        hmade.trans (.writeField (h.old target List.mem_cons_self) hno role copy')
      refine ⟨m, f, hgrew.2.object?_some ho, ih (h.next hr.wellFormed hgrew.2) ?_ ?_⟩
      · exact annotated_robust.writeField _ _ _ (annotated_robust.grew hr hgrew)
      · exact hcopied.later hr hlater

/-- The copy for the first of some targets fails, and nothing has been done besides. -/
def FirstCopyFails (value : Option Value) (targets : List (ObjectId × String))
    (r : Repository ts) (e : Error) (r' : Repository ts) : Prop :=
  ∃ v target, value = some v ∧ target ∈ targets.head? ∧
    ((cloneValue v target.2 true).run r).answer = .error e ∧
    ((cloneValue v target.2 true).run r).repo = r'

/-- A propagation fails at the first target or not at all. -/
theorem propagate_firstCopyFails (h : Targets r m since targets) (hr : r.Annotated)
    (hsince : since ≤ r.objects.size) :
    (propagate role value targets).Ensures r (fun _ _ => True)
      (FirstCopyFails value targets r) := by
  cases targets with
  | nil => exact trivial
  | cons target rest =>
    obtain ⟨f, ho⟩ := h.composite target List.mem_cons_self
    apply ensures_propagate_cons (Q := fun copy r₁ => Grew r r₁ ∧
      r₁.ReproducesField since target.2 value copy)
    case hlive => exact Repository.isLive_iff.mpr ⟨_, ho⟩
    case hnone =>
      rintro rfl
      exact ⟨grew_refl hr.wellFormed, .none⟩
    case hsome =>
      rintro v rfl
      have hmade := cloneValue_reproduces hr hsince v target.2 true
      refine ensures_of_answer (fun w hw => ?_) fun e he => ⟨v, target, rfl, rfl, he, rfl⟩
      obtain ⟨hgrew, hvw⟩ := hmade.ok_of_answer hw
      exact ⟨hgrew, .some ⟨_, Nat.succ_le_succ hgrew.2.models_le, hvw⟩⟩
    case hrest =>
      rintro copy r₁ ⟨hgrew, hcopy⟩
      have hold := h.old target List.mem_cons_self
      have hmade : Later since r r₁ := .of_extends hr.wellFormed hgrew.2
      have hno := hmade.noTemplate (h.noTemplate target List.mem_cons_self)
      have hr₁ : r₁.Annotated := annotated_robust.grew hr hgrew
      refine ⟨m, f, hgrew.2.object?_some ho, ?_⟩
      have htargets : Targets (r₁.writeField target.1 role copy) m since rest :=
        h.next hr.wellFormed hgrew.2
      have hrest : (propagate role value rest).Ensures (r₁.writeField target.1 role copy)
          (fun _ _ => True) fun _ _ => False :=
        propagate_answers htargets (annotated_robust.writeField _ _ _ hr₁)
          (hcopy.later hr₁ (.writeField hold hno role copy))
      exact hrest.imp (fun _ _ h => h) fun _ _ h => h.elim

/-! ## Updates -/

/-- What an update leaves that fails once it has begun. -/
structure BreaksOff (m : ModelId) (role : String) (value : Option Value) (r : Repository ts)
    (e : Error) (r' : Repository ts) : Prop where
  /-- The template has got the value, of which the copy for one instance has failed then. -/
  template : ∃ v t f id name, value = some v ∧ r.template? m = some t ∧
    r.object? t = some (.composite m f) ∧ r'.object? t = some (.composite m (f.insert role v)) ∧
    (r.registryOf? m).bind (·.get? id) = some name ∧ id ≠ t ∧
    ((cloneValue v name true).run (r.writeField t role (some v))).answer = .error e
  /-- Every other object is as it was, the instances of the model among them. -/
  others : ∀ {id}, id.index < r.objects.size → r.template? m ≠ some id →
    r'.object? id = r.object? id
  shapes : ∀ {n s}, r.model? n = some (.shape s) → r'.model? n = some (.shape s)
  /-- Kind, name, namespace, declarations, annotations and template of a datatype are as before. -/
  datatypes : ∀ {n d}, r.model? n = some (.datatype d) →
    ∃ g, r'.model? n = some (.datatype { d with registry := g })
  names : ∀ {n id}, id.index < r.objects.size →
    (r'.registryOf? n).bind (·.get? id) = (r.registryOf? n).bind (·.get? id)

theorem FirstCopyFails.breaksOff (hr : r.WellFormed) {d : Datatype κ}
    (hd : r.model? m = some (.datatype d))
    (h : FirstCopyFails value (otherInstances (.datatype d) d.template)
      (r.writeField d.template role value) e r') : BreaksOff m role value r e r' := by
  obtain ⟨v, target, rfl, htarget, hanswer, rfl⟩ := h
  obtain ⟨fT, hT⟩ := hr.template hd
  have ht : r.template? m = some d.template := Repository.template?_datatype hd
  obtain ⟨hname, hne⟩ := (hr.mem_otherInstances_iff hd).mp (List.mem_of_mem_head? htarget)
  have hwritten := hr.writeField d.template role (some v)
  -- Whatever the copy has made until it failed is new.
  obtain ⟨-, hext⟩ : Grew (r.writeField d.template role (some v)) _ :=
    (cloneValue_makes hwritten v target.2 true).fails_of_answer hanswer
  constructor
  case template =>
    refine ⟨v, d.template, fT, target.1, target.2, rfl, ht, hT, ?_, hname, hne, hanswer⟩
    exact hext.object?_some (Repository.composite_writeField.mpr ⟨fT, hT, (if_pos rfl).symm⟩)
  case others =>
    intro id hid hother
    have hne : id ≠ d.template := fun heq => hother (heq ▸ ht)
    rw [hext.object? (by simpa using hid), Repository.object?_writeField, if_neg hne]
  case shapes => exact fun hs => hext.shape (by simpa using hs)
  case datatypes => exact fun he => hext.datatype (by simpa using he)
  case names =>
    intro n id hid
    rw [hext.registered (by simpa using hid)]
    simp only [Repository.registryOf?, Repository.model?_writeField]

/-- An update of what is no datatype has no instances to go through. -/
theorem updateInstances_undone (hno : ∀ d, r.model? m ≠ some (.datatype d)) :
    (updateInstances m role value).Ensures r (fun _ _ => True) fun _ r' => r' = r := by
  simp only [updateInstances, ensures_bind, ensures_query]
  refine ⟨fun model hmodel => ?_, fun _ _ => trivial⟩
  have hm : r.model? m = some model := Repository.model_eq_ok_iff.mp hmodel
  cases model with
  | datatype d => exact (hno d hm).elim
  | shape s =>
    cases ht : (Model.shape s : Model κ).template? with
    | none => exact rfl
    | some t =>
      simp only [otherInstances, Model.registry?, Model.datatype?, Option.bind_none,
        Option.elim_none, List.filter_nil, propagate, setField, ensures_bind, ensures_query]
      refine ⟨fun object _ => ?_, fun _ _ => trivial⟩
      cases object with
      | composite n f => exact trivial
      | collection n es => exact rfl

/-- An update that fails has changed nothing, or it has broken off at the first copy. -/
theorem updateInstances_breaksOff (hr : r.Annotated) (m : ModelId) (role : String)
    (value : Option Value) :
    (updateInstances m role value).Ensures r (fun _ _ => True)
      fun e r' => r' = r ∨ BreaksOff m role value r e r' := by
  by_cases hd : ∃ d, r.model? m = some (.datatype d)
  · obtain ⟨d, hd⟩ := hd
    have hwf := hr.wellFormed
    refine ensures_updateInstances hwf hd ((propagate_firstCopyFails
      (targets_otherInstances hwf hd) (annotated_robust.writeField _ _ _ hr) (by simp)).imp
      (fun _ _ h => h) ?_)
    exact fun e r' h => .inr (h.breaksOff hwf hd)
  · exact (updateInstances_undone fun d hd' => hd ⟨d, hd'⟩).imp (fun _ _ h => h)
      fun _ _ h => .inl h

end Step

open Step

/-- In every state of every run from the empty repository, and of every run of the facade, an update
that fails has changed nothing of what was there, or it has broken off at the first copy: the value
is in the template, and no instance and nothing else has changed. So a removal that fails changes
nothing, and no update fails at a later instance. -/
theorem breaksOff_of_reached (ts : TypeSystem κ) (limits : Limits) (m : ModelId) (role : String)
    (value : Option Value) (e : Error) :
    (∀ operations : List (Operation κ),
      let r := Operation.run (Repository.empty ts) operations
      let after := (updateInstances m role value).run r
      after.answer = .error e → after.repo = r ∨ BreaksOff m role value r e after.repo) ∧
    (∀ operations : List Idl.Operation,
      let r := Idl.Operation.run (Idl.initial limits) operations
      let after := (updateInstances m role value).run r
      after.answer = .error e → after.repo = r ∨ BreaksOff m role value r e after.repo) := by
  constructor
  · intro operations r after h
    have hr : r.Annotated := Operation.annotated_run ts operations
    exact (updateInstances_breaksOff hr m role value).fails_of_answer h
  · intro operations r after h
    have hr : r.Annotated := Idl.Operation.annotated_run limits operations
    exact (updateInstances_breaksOff hr m role value).fails_of_answer h

/-- A line, and a point that has been released. -/
def brokenLine : Repository (Idl.system ⟨4, 4⟩) :=
  Idl.Operation.run (Idl.initial ⟨4, 4⟩)
    [.newStruct "Point" [], .newStruct "Line" [], .repository (.newInstance ⟨22⟩ "a" false),
      .repository (.newInstance ⟨21⟩ "q" false), .repository (.releaseInstance ⟨24⟩)]

/-- The point for an end of all lines: the update breaks off at the one line. -/
theorem breaksOff_brokenLine :
    let point := Value.composite ⟨24⟩
    let e := Error.template (.object ⟨24⟩)
    let after := (updateInstances ⟨22⟩ "end" (some point)).run brokenLine
    after.answer = .error e ∧ BreaksOff ⟨22⟩ "end" (some point) brokenLine e after.repo := by
  intro point e after
  have hanswer : after.answer = .error e := by decide +kernel
  have hchanged : after.repo.field? ⟨22⟩ "end" ≠ brokenLine.field? ⟨22⟩ "end" := by decide +kernel
  have hcases : after.repo = brokenLine ∨
      BreaksOff ⟨22⟩ "end" (some point) brokenLine e after.repo :=
    (breaksOff_of_reached (Idl.system ⟨4, 4⟩) ⟨4, 4⟩ ⟨22⟩ "end" (some point) e).2 _ hanswer
  exact ⟨hanswer, hcases.resolve_left fun heq => hchanged (by rw [heq])⟩

/-- The update fails, the template of lines has got the end, and the line has none. -/
theorem template_ahead_of_instance :
    let after := (updateInstances ⟨22⟩ "end" (some (.composite ⟨24⟩))).run brokenLine
    after.answer = .error (.template (.object ⟨24⟩)) ∧
      brokenLine.field? ⟨22⟩ "end" = none ∧
      after.repo.field? ⟨22⟩ "end" = some (.composite ⟨24⟩) ∧
      after.repo.field? ⟨23⟩ "end" = none := by
  decide +kernel

end Metamodel
