import Metamodel.Proofs.Cloning

/-!
# Metamodel.Proofs.Spreading -- what an update changes, and what it leaves alone

An update writes a field of the canonical template and then of one instance after the other, while
each copy on the way makes objects of its own and registers them. Main statement: in every state
of every run, an update that succeeds leaves in every instance what a copy would be that is made
only then, under the path of the instance; and no other field, element, declaration or registered
path is touched.
-/

namespace Metamodel

variable {κ : Type} {ts : TypeSystem κ} {r r₁ r' : Repository ts} {m : ModelId} {role : String}
  {value copy : Option Value} {since : Nat} {target : ObjectId × String}
  {targets rest : List (ObjectId × String)}

namespace Repository

/-- What is installed under a path for a field: a copy of its value, made since that number, or
nothing if the field is to be removed. -/
def ReproducesField (r : Repository ts) (since : Nat) (under : String) :
    Option Value → Option Value → Prop :=
  Option.Rel fun v w => ∃ depth ≤ r.models.size + 1, r.Reproduces since depth under v w

theorem ReproducesField.later {under : String} (hr : r.Annotated) (h : Later since r r')
    (hcopy : r.ReproducesField since under value copy) :
    r'.ReproducesField since under value copy := by
  cases hcopy with
  | none => exact .none
  | some hvw =>
    obtain ⟨depth, hdepth, hvw⟩ := hvw
    exact .some ⟨depth, Nat.le_trans hdepth (Nat.succ_le_succ h.sameBut.models_le), hvw.later hr h⟩

theorem ReproducesField.looksCloned {under : String} (hr : r.Annotated)
    (hcopy : r.ReproducesField since under value copy) :
    Option.Rel (r.LooksCloned under) value copy := by
  cases hcopy with
  | none => exact .none
  | some hvw =>
    obtain ⟨depth, hdepth, hvw⟩ := hvw
    exact .some (hvw.looksCloned hr hdepth)

end Repository

namespace Step

open Repository (Annotated Later annotated_robust)

/-! ## Propagations -/

/-- The instances of a datatype that a field is to be installed in, all of them old. -/
structure Targets (r : Repository ts) (m : ModelId) (since : Nat)
    (targets : List (ObjectId × String)) : Prop where
  nodup : (targets.map (·.1)).Nodup
  old : ∀ target ∈ targets, target.1.index < since
  noTemplate : ∀ target ∈ targets, r.NoTemplate target.1
  composite : ∀ target ∈ targets, ∃ f, r.object? target.1 = some (.composite m f)

/-- What a propagation leaves: each target has what is installed for the field, and no other old
object has changed. -/
structure Spread (m : ModelId) (role : String) (value : Option Value) (since : Nat)
    (targets : List (ObjectId × String)) (r r' : Repository ts) : Prop where
  annotated : r'.Annotated
  later : Later since r r'
  others : ∀ {id}, id.index < since → id ∉ targets.map (·.1) → r'.object? id = r.object? id
  target : ∀ target ∈ targets, ∃ f copy, r.object? target.1 = some (.composite m f) ∧
    r'.object? target.1 = some (.composite m (copy.elim (f.erase role) (f.insert role))) ∧
    r'.ReproducesField since target.2 value copy

/-- A field that has been installed in one target leaves the others to be done. -/
theorem Targets.next (h : Targets r m since (target :: rest)) (hr : r.WellFormed)
    (hext : r.Extends r₁) : Targets (r₁.writeField target.1 role copy) m since rest where
  nodup := (List.nodup_cons.mp h.nodup).2
  old other hother := h.old other (List.mem_cons_of_mem target hother)
  noTemplate other hother := by
    have hno := h.noTemplate other (List.mem_cons_of_mem target hother)
    have hlater : Later since r r₁ := .of_extends hr hext
    intro n e he
    exact hlater.noTemplate hno n e (by simpa using he)
  composite other hother := by
    obtain ⟨f, ho⟩ := h.composite other (List.mem_cons_of_mem target hother)
    have hne : other.1 ≠ target.1 := fun heq =>
      (List.nodup_cons.mp h.nodup).1 (List.mem_map.mpr ⟨other, hother, heq⟩)
    exact ⟨f, by rw [Repository.object?_writeField, if_neg hne, hext.object?_some ho]⟩

theorem spread_nil (hr : r.Annotated) : Spread m role value since [] r r where
  annotated := hr
  later := .refl r
  others _ _ := rfl
  target target h := by simp at h

/-- One target after the other: what is installed first stays, and is not in the way of the rest. -/
theorem spread_cons (h : Targets r m since (target :: rest)) (hr : r.Annotated)
    (hsince : since ≤ r.objects.size) (hgrew : Grew r r₁)
    (hcopy : r₁.ReproducesField since target.2 value copy)
    (hrest : Spread m role value since rest (r₁.writeField target.1 role copy) r') :
    Spread m role value since (target :: rest) r r' := by
  have hold := h.old target List.mem_cons_self
  have hmade : Later since r r₁ := .of_extends hr.wellFormed hgrew.2
  have hwritten : Later since r₁ (r₁.writeField target.1 role copy) :=
    .writeField hold (hmade.noTemplate (h.noTemplate target List.mem_cons_self)) role copy
  have hbefore : ∀ {id : ObjectId}, id.index < since → id ≠ target.1 →
      (r₁.writeField target.1 role copy).object? id = r.object? id := by
    intro id hid hne
    rw [Repository.object?_writeField, if_neg hne, hgrew.2.object? (Nat.lt_of_lt_of_le hid hsince)]
  obtain ⟨hnot, -⟩ := List.nodup_cons.mp h.nodup
  constructor
  case annotated => exact hrest.annotated
  case later => exact (hmade.trans hwritten).trans hrest.later
  case others =>
    intro id hid hnone
    obtain ⟨hne, hnone⟩ := not_or.mp (mt List.mem_cons.mpr hnone)
    rw [hrest.others hid hnone, hbefore hid hne]
  case target =>
    intro other hother
    rcases List.mem_cons.mp hother with rfl | hother
    · obtain ⟨f, ho⟩ := h.composite other List.mem_cons_self
      refine ⟨f, copy, ho, ?_, hcopy.later (annotated_robust.grew hr hgrew)
        (hwritten.trans hrest.later)⟩
      rw [hrest.others hold hnot]
      exact Repository.composite_writeField.mpr
        ⟨f, hgrew.2.object?_some ho, (if_pos rfl).symm⟩
    · obtain ⟨f, copy', ho, ho', hcopy'⟩ := hrest.target other hother
      have hne : other.1 ≠ target.1 := fun heq => hnot (List.mem_map.mpr ⟨other, hother, heq⟩)
      rw [hbefore (h.old other (List.mem_cons_of_mem target hother)) hne] at ho
      exact ⟨f, copy', ho, ho', hcopy'⟩

/-- A propagation that succeeds has reached all of its targets. By induction on them. -/
theorem propagate_spread (h : Targets r m since targets) (hr : r.Annotated)
    (hsince : since ≤ r.objects.size) :
    (propagate role value targets).Ensures r (fun _ => Spread m role value since targets r)
      fun _ _ => True := by
  induction targets generalizing r with
  | nil => exact spread_nil hr
  | cons target rest ih =>
    obtain ⟨f, ho⟩ := h.composite target List.mem_cons_self
    apply ensures_propagate_cons (Q := fun copy r₁ => Grew r r₁ ∧
      r₁.ReproducesField since target.2 value copy)
    case hlive => exact Repository.isLive_iff.mpr ⟨_, ho⟩
    case hnone =>
      rintro rfl
      exact ⟨grew_refl hr.wellFormed, .none⟩
    case hsome =>
      rintro v rfl
      refine (cloneValue_reproduces hr hsince v target.2 true).imp ?_ fun _ _ h => h
      rintro w r₁ ⟨hgrew, hw⟩
      exact ⟨hgrew, .some ⟨_, Nat.succ_le_succ hgrew.2.models_le, hw⟩⟩
    case hrest =>
      rintro copy r₁ ⟨hgrew, hcopy⟩
      have hr₂ : (r₁.writeField target.1 role copy).Annotated :=
        annotated_robust.writeField _ _ _ (annotated_robust.grew hr hgrew)
      have hsince₂ : since ≤ (r₁.writeField target.1 role copy).objects.size := by
        simpa using Nat.le_trans hsince hgrew.2.objects_le
      refine ⟨m, f, hgrew.2.object?_some ho, ?_⟩
      exact (ih (h.next hr.wellFormed hgrew.2) hr₂ hsince₂).imp
        (fun _ _ hrest => spread_cons h hr hsince hgrew hcopy hrest) fun _ _ h => h

/-! ## Updates -/

/-- What an update of a field leaves in a repository. -/
structure Spreads (m : ModelId) (role : String) (value : Option Value) (r r' : Repository ts) :
    Prop where
  /-- The template gets the value itself. -/
  template : ∃ t f, r.template? m = some t ∧ r.object? t = some (.composite m f) ∧
    r'.object? t = some (.composite m (value.elim (f.erase role) (f.insert role)))
  /-- A registered instance gets what looks like a copy made now, and keeps its other fields. -/
  registered : ∀ {id name}, (r.registryOf? m).bind (·.get? id) = some name →
    r.template? m ≠ some id →
      ∃ f copy, r.object? id = some (.composite m f) ∧
        r'.object? id = some (.composite m (copy.elim (f.erase role) (f.insert role))) ∧
        Option.Rel (r'.LooksCloned name) value copy
  /-- Every other object is as it was, with all fields and elements, or is as gone as it was. -/
  others : ∀ {id}, id.index < r.objects.size → r.template? m ≠ some id →
    (r.registryOf? m).bind (·.get? id) = none → r'.object? id = r.object? id
  shapes : ∀ {n s}, r.model? n = some (.shape s) → r'.model? n = some (.shape s)
  /-- Kind, name, namespace, declarations, annotations and template of a datatype are as before. -/
  datatypes : ∀ {n d}, r.model? n = some (.datatype d) →
    ∃ g, r'.model? n = some (.datatype { d with registry := g })
  noDatatype : ∀ {n d}, r'.model? n = some (.datatype d) → n.index < r.models.size
  names : ∀ {n id}, id.index < r.objects.size →
    (r'.registryOf? n).bind (·.get? id) = (r.registryOf? n).bind (·.get? id)

/-- What a registered instance has for the role afterwards. -/
theorem Spreads.field? (h : Spreads m role value r r') {id : ObjectId} {name : String}
    (hname : (r.registryOf? m).bind (·.get? id) = some name) (hne : r.template? m ≠ some id) :
    Option.Rel (r'.LooksCloned name) value (r'.field? id role) := by
  obtain ⟨f, copy, -, ho, hcopy⟩ := h.registered hname hne
  have hfields := Repository.fields?_eq_some_iff.mpr ⟨m, ho⟩
  have hfield : r'.field? id role = copy := by
    rw [Repository.field?, hfields, Option.bind_some]
    cases copy with
    | none => rw [Option.elim_none, Table.get?_erase, if_pos rfl]
    | some w => rw [Option.elim_some, Table.get?_insert, if_pos rfl]
  rwa [hfield]

/-- The instances besides the template are what a field is to be installed in, also once the
template has got it. -/
theorem targets_otherInstances (hr : r.WellFormed) {d : Datatype κ}
    (hd : r.model? m = some (.datatype d)) :
    Targets (r.writeField d.template role value) m r.objects.size
      (otherInstances (.datatype d) d.template) where
  nodup := hr.nodup_otherInstances hd
  old target htarget := by
    obtain ⟨f, ho, -⟩ := noTemplate_of_otherInstances hr hd htarget
    exact Repository.index_lt_of_object? ho
  noTemplate target htarget n e he := by
    obtain ⟨-, -, hno⟩ := noTemplate_of_otherInstances hr hd htarget
    exact hno n e (by simpa using he)
  composite target htarget := by
    obtain ⟨f, ho, -⟩ := noTemplate_of_otherInstances hr hd htarget
    exact ⟨_, Repository.composite_writeField.mpr ⟨f, ho, rfl⟩⟩

theorem Spread.spreads (hr : r.WellFormed) {d : Datatype κ}
    (hd : r.model? m = some (.datatype d))
    (h : Spread m role value r.objects.size (otherInstances (.datatype d) d.template)
      (r.writeField d.template role value) r') : Spreads m role value r r' := by
  obtain ⟨fT, hT⟩ := hr.template hd
  have ht : r.template? m = some d.template := Repository.template?_datatype hd
  have hsame : r.SameBut (fun _ => True) (fun _ => False) r' :=
    (Repository.sameBut_writeField (fun _ _ _ => trivial) role value).trans h.later.sameBut
  constructor
  case template =>
    refine ⟨d.template, fT, ht, hT, ?_⟩
    rw [h.later.template (by simpa using hd)]
    exact Repository.composite_writeField.mpr ⟨fT, hT, (if_pos rfl).symm⟩
  case registered =>
    intro id name hname hne
    have hne : id ≠ d.template := fun heq => hne (heq ▸ ht)
    obtain ⟨f, copy, ho, ho', hcopy⟩ :=
      h.target (id, name) ((hr.mem_otherInstances_iff hd).mpr ⟨hname, hne⟩)
    rw [Repository.object?_writeField, if_neg hne] at ho
    exact ⟨f, copy, ho, ho', hcopy.looksCloned h.annotated⟩
  case others =>
    intro id hid hne hnone
    have hne : id ≠ d.template := fun heq => hne (heq ▸ ht)
    have hnot : id ∉ (otherInstances (.datatype d) d.template).map (·.1) := by
      intro hmem
      obtain ⟨target, htarget, rfl⟩ := List.mem_map.mp hmem
      simp [((hr.mem_otherInstances_iff hd).mp htarget).1] at hnone
    rw [h.others hid hnot, Repository.object?_writeField, if_neg hne]
  case shapes => exact hsame.shape
  case datatypes =>
    intro n e he
    obtain ⟨e', he', -, -, hsame⟩ := hsame.datatype he
    obtain ⟨g, rfl⟩ := hsame not_false
    exact ⟨g, he'⟩
  case noDatatype => exact fun he => (hsame.datatype_old he).resolve_right not_false
  case names => exact hsame.registered

theorem updateInstances_spreads (hr : r.Annotated) {d : Datatype κ}
    (hd : r.model? m = some (.datatype d)) (role : String) (value : Option Value) :
    (updateInstances m role value).Ensures r (fun _ => Spreads m role value r)
      fun _ _ => True := by
  have hwf := hr.wellFormed
  refine ensures_updateInstances hwf hd ((propagate_spread (targets_otherInstances hwf hd)
    (annotated_robust.writeField _ _ _ hr) (by simp)).imp ?_ fun _ _ h => h)
  exact fun _ _ h => h.spreads hwf hd

end Step

open Step

/-- In every state of every run from the empty repository, and of every run of the facade, an update
of a datatype that succeeds gives the template the value itself and every registered instance what
looks like a copy made now under its path, or takes the field away from all of them. It changes no
other field of these and no other object that was there, no shape of a collection, of a datatype
nothing but the registry, and in the registries nothing that was listed. -/
theorem spreads_of_reached (ts : TypeSystem κ) (limits : Limits) (m : ModelId) (role : String)
    (value : Option Value) :
    (∀ operations : List (Operation κ), ∀ d,
      let r := Operation.run (Repository.empty ts) operations
      let after := (updateInstances m role value).run r
      r.model? m = some (.datatype d) → after.answer = .ok () →
        Spreads m role value r after.repo) ∧
    (∀ operations : List Idl.Operation, ∀ d,
      let r := Idl.Operation.run (Idl.initial limits) operations
      let after := (updateInstances m role value).run r
      r.model? m = some (.datatype d) → after.answer = .ok () →
        Spreads m role value r after.repo) := by
  constructor
  · intro operations d r after hd h
    have hr : r.Annotated := Operation.annotated_run ts operations
    exact (updateInstances_spreads hr hd role value).ok_of_answer h
  · intro operations d r after hd h
    have hr : r.Annotated := Idl.Operation.annotated_run limits operations
    exact (updateInstances_spreads hr hd role value).ok_of_answer h

/-- Each of two lines gets a point of its own for the new end, and keeps the one that it has. -/
theorem spreads_lines :
    let r := Idl.Operation.run (Idl.initial ⟨4, 4⟩)
      [.newStruct "Point" [.member ⟨"x", Idl.Atom.long.template, [], []⟩],
        .newStruct "Line" [.member ⟨"end", ⟨21⟩, [], []⟩],
        .repository (.newInstance ⟨22⟩ "a" true), .repository (.newInstance ⟨22⟩ "b" true),
        .repository (.newInstance ⟨21⟩ "start" false)]
    let point := Value.composite ⟨28⟩
    let after := (updateInstances ⟨22⟩ "start" (some point)).run r
    after.answer = .ok () ∧
      Option.Rel (after.repo.LooksCloned "a") point (after.repo.field? ⟨25⟩ "start") ∧
      Option.Rel (after.repo.LooksCloned "b") point (after.repo.field? ⟨27⟩ "start") ∧
      after.repo.object? ⟨24⟩ = r.object? ⟨24⟩ := by
  intro r point after
  have hkind : r.kindOf? ⟨22⟩ = some .struct := by decide +kernel
  have hanswer : after.answer = .ok () := by decide +kernel
  obtain ⟨d, hd, -⟩ := Repository.kindOf?_eq_some_iff.mp hkind
  have hspreads : Spreads ⟨22⟩ "start" (some point) r after.repo :=
    (spreads_of_reached (Idl.system ⟨4, 4⟩) ⟨4, 4⟩ ⟨22⟩ "start" (some point)).2 _ d hd hanswer
  refine ⟨hanswer, hspreads.field? ?_ ?_, hspreads.field? ?_ ?_, hspreads.others ?_ ?_ ?_⟩
  all_goals decide +kernel

end Metamodel
