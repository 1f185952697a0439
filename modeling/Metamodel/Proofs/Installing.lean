import Metamodel.Proofs.Editing
import Metamodel.Proofs.Facade
import Metamodel.Proofs.Making

/-!
# Metamodel.Proofs.Installing -- values are made for a template, then installed

Whatever a definition of a member or a change of the base writes into a composite has been made just
before, with all that it leads to, or it is nothing. The walk through these operations is made here
once, for every property that is kept by the making and by such writing.
-/

namespace Metamodel

variable {κ : Type} {ts : TypeSystem κ} {r r' : Repository ts}

theorem Repository.writeField_mapEntries (m : ModelId) (f : List Entry → List Entry) (id : ObjectId)
    (role : String) (value : Option Value) :
    (r.mapEntries m f).writeField id role value = (r.writeField id role value).mapEntries m f := by
  unfold writeField mapEntries
  rw [object?_mapDatatype]
  split
  · rfl
  · rfl

namespace Step

open Repository (Loose)

/-- A property that is kept by the making of values for a template, and when such a value, or
nothing, is written into a field of composites of a datatype. -/
structure Installs (P : Repository ts → Prop) (m : ModelId) (role : String) : Prop where
  wellFormed : ∀ {r}, P r → r.WellFormed
  datatype : ∀ {r}, P r → ∃ d, r.model? m = some (.datatype d)
  made : ∀ {r r'}, P r → Made true r r' → P r'
  write : ∀ {r r' x f v}, P r → Made true r r' → Loose r r' v →
    r.object? x = some (.composite m f) → P (r'.writeField x role (some v))
  erase : ∀ {r x f}, P r → r.object? x = some (.composite m f) → P (r.writeField x role none)

variable {P : Repository ts → Prop} {m : ModelId} {role : String}

/-! ## Updates -/

/-- Each instance gets a copy of its own. -/
theorem Installs.propagate (hP : Installs P m role) {r₀ : Repository ts}
    {targets : List (ObjectId × String)}
    (htargets : ∀ target ∈ targets, r₀.modelOf? target.1 = some m) (value : Option Value) :
    Keeps (fun r => P r ∧ r₀.Steady r) (propagate role value targets) := by
  have hlt : ∀ target ∈ targets, target.1.index < r₀.objects.size := fun target htarget => by
    obtain ⟨o, ho, -⟩ := Repository.modelOf?_eq_some_iff.mp (htargets target htarget)
    exact Repository.index_lt_of_object? ho
  -- An instance is still bound to the model that it was bound to at first.
  have hbound : ∀ {r k f}, r₀.Steady r → ∀ target ∈ targets,
      r.object? target.1 = some (.composite k f) → k = m := fun hsteady target htarget ho =>
    Option.some.inj ((hsteady.modelOf? (hlt target htarget)
      (Repository.modelOf?_of_object? ho)).symm.trans (htargets target htarget))
  refine keeps_propagate (fun target htarget => ⟨fun r h => ?_⟩) fun v target htarget =>
    ⟨fun r h => ?_⟩
  · refine ensures_setField (P := fun r => P r ∧ r₀.Steady r) h fun k f ho => ?_
    obtain rfl := hbound h.2 target htarget ho
    exact ⟨hP.erase h.1 ho, h.2.trans (Repository.steady_writeField ..)⟩
  · rw [ensures_bind]
    refine Ensures.imp (cloneValue_made (hP.wellFormed h.1) v target.2 true) ?_ fun _ _ hmade =>
      ⟨hP.made h.1 hmade, h.2.trans hmade.grew.2.steady⟩
    rintro copy r₁ ⟨hmade, hloose⟩
    have hsteady := h.2.trans hmade.grew.2.steady
    refine ensures_setField (P := fun r => P r ∧ r₀.Steady r) ⟨hP.made h.1 hmade, hsteady⟩
      fun k f ho => ?_
    obtain rfl := hbound hsteady target htarget ho
    rw [hmade.grew.2.object? (Nat.lt_of_lt_of_le (hlt target htarget) h.2.objects_le)] at ho
    exact ⟨hP.write h.1 hmade hloose ho, hsteady.trans (Repository.steady_writeField ..)⟩

/-- What is left to show for an update: what it does to the template. -/
theorem Installs.update (hP : Installs P m role) (hr : r.WellFormed) {d : Datatype κ}
    (hd : r.model? m = some (.datatype d)) {value : Option Value}
    (h : P (r.writeField d.template role value)) :
    (updateInstances m role value).Ensures r (fun _ => P) fun _ => P := by
  have htargets : ∀ target ∈ otherInstances (.datatype d) d.template,
      (r.writeField d.template role value).modelOf? target.1 = some m := by
    intro target htarget
    obtain ⟨f, ho, -⟩ := noTemplate_of_otherInstances hr hd htarget
    rw [Repository.modelOf?_writeField]
    exact Repository.modelOf?_of_object? ho
  refine ensures_updateInstances hr hd ?_
  exact ((hP.propagate htargets value).ensures _ ⟨h, .refl _⟩).imp (fun _ _ h => h.1)
    fun _ _ h => h.1

/-- A value that has been made is installed. -/
theorem Installs.install (hP : Installs P m role) (h : P r) (hmade : Made true r r') {v : Value}
    (hv : Loose r r' v) :
    (updateInstances m role (some v)).Ensures r' (fun _ => P) fun _ => P := by
  obtain ⟨d, hd⟩ := hP.datatype h
  obtain ⟨f, hf⟩ := (hP.wellFormed h).template hd
  obtain ⟨g, hd'⟩ := hmade.grew.2.datatype hd
  exact hP.update hmade.grew.1 hd' (hP.write h hmade hv hf)

theorem Installs.remove (hP : Installs P m role) : Keeps P (updateInstances m role none) := by
  refine ⟨fun r h => ?_⟩
  obtain ⟨d, hd⟩ := hP.datatype h
  obtain ⟨f, hf⟩ := (hP.wellFormed h).template hd
  exact hP.update (hP.wellFormed h) hd (hP.erase h hf)

/-! ## Members and bases -/

variable {template : ObjectId}

/-- What is left to show for a member: that it may be declared. -/
theorem defineMember_installs (hm : r.canonicalModel template = .ok m) {member : Member}
    (hP : Installs P m member.role)
    (hdefine : ∀ {r'}, P r' → r'.entriesOf m = r.entriesOf m →
      P (r'.mapEntries m (Entry.define member))) (h : P r) :
    (defineMember template member).Ensures r (fun _ => P) fun _ => P := by
  obtain ⟨-, d, hd, -⟩ := Repository.canonicalModel_eq_ok_iff.mp hm
  have hr := hP.wellFormed h
  simp only [defineMember, ensures_bind, ensures_query, hm]
  refine ⟨fun m' hm' => ?_, fun e he => by simp at he⟩
  obtain rfl := Except.ok.inj hm'
  split
  · simp only [ensures_bind, ensures_query, ensures_edit, ensures_note]
    refine ⟨fun _ _ => ?_, fun _ _ => h⟩
    refine (checkContainment_ensures m member r).imp ?_ fun _ _ hr' => hr'.1 ▸ h
    rintro _ r₀ ⟨rfl, -⟩
    refine Ensures.imp (createRoleInstance_made hr _ _ _) ?_ fun _ _ hmade => hP.made h hmade
    rintro v r₁ ⟨hmade, hv⟩
    obtain ⟨f, hf⟩ := hr.template hd
    obtain ⟨g, hd₁⟩ := hmade.grew.2.datatype hd
    refine hP.update (hmade.grew.1.mapEntries m _) (Repository.model?_mapEntries hd₁ _) ?_
    -- The field and the declaration are independent of each other.
    rw [Repository.writeField_mapEntries]
    refine hdefine (hP.write h hmade hv hf) ?_
    rw [← (hmade.grew.2.sameBut (F := fun _ => False) (D := fun _ => False)).entriesOf hd (by simp)]
    simp [Repository.entriesOf]
  · exact h

/-- What is left to show for a removal: that the member may be taken from the declaration. -/
theorem removeMember_installs (hm : r.canonicalModel template = .ok m)
    (hP : r.Declares m role → Installs P m role ∧ P (r.mapEntries m (Entry.remove role)))
    (h : P r) : (removeMember template role).Ensures r (fun _ => P) fun _ => P := by
  simp only [removeMember, ensures_bind, ensures_query, ensures_ask, hm]
  refine ⟨fun m' hm' => ?_, fun e he => by simp at he⟩
  obtain rfl := Except.ok.inj hm'
  split
  · next hdeclared =>
    obtain ⟨hP, hremoved⟩ := hP hdeclared
    simp only [ensures_bind, ensures_edit, ensures_note, ensures_pure]
    exact hP.remove.ensures _ hremoved
  · exact h

/-- What is left to show for a change of the base: that it may be declared. -/
theorem setBase_installs (hm : r.canonicalModel template = .ok m) (hP : ∀ role, Installs P m role)
    {base : Option ObjectId} (hrebase : ∀ {r'}, P r' → P (r'.mapEntries m (Entry.rebase base)))
    (h : P r) : (setBase template base).Ensures r (fun _ => P) fun _ => P := by
  simp only [setBase, ensures_bind, ensures_query, hm]
  refine ⟨fun m' hm' => ?_, fun e he => by simp at he⟩
  obtain rfl := Except.ok.inj hm'
  refine ((keeps_checkBase m base).ensures r h).imp ?_ fun _ _ h' => h'
  intro baseModel r₁ h₁
  refine ((keeps_leaveBase m fun role => (hP role).remove).ensures r₁ h₁).imp ?_ fun _ _ h' => h'
  intro _ r₂ h₂
  rw [ensures_edit]
  cases baseModel with
  | none => exact hrebase h₂
  | some bm =>
    have hjoin : Keeps P (joinBase m (some bm)) := by
      refine (keeps_query _).bind fun _ => (keeps_query _).bind fun fields => ?_
      refine keeps_forEach fields.entries fun field _ => ⟨fun r₃ h₃ => ?_⟩
      rw [ensures_bind]
      refine Ensures.imp (cloneValue_made ((hP field.1).wellFormed h₃) field.2 "" true) ?_
        fun _ _ hmade => (hP field.1).made h₃ hmade
      rintro v r₄ ⟨hmade, hv⟩
      exact (hP field.1).install h₃ hmade hv
    exact hjoin.ensures _ (hrebase h₂)

end Step

namespace Idl

open Step (Installs Keeps)

variable {limits : Limits} {P : Repository (system limits) → Prop}

/-! ## The facade -/

/-- What is kept by all changes of declarations, and by the making and the installing of values, is
kept by all that the facade does. -/
theorem editable_of_installs (hP : Repository.Declarative P)
    (hentries : ∀ {r} m f, P r → P (r.mapEntries m f))
    (hinstalls : ∀ m role,
      Installs (fun r => P r ∧ ∃ d, r.model? m = some (.datatype d)) m role) : Editable P where
  toDeclarative := hP
  leaf m role v hleaf := by
    refine ⟨fun r h => ?_⟩
    exact (hinstalls m role).install h (Step.made_refl (hP.wellFormed h.1))
      (.of_leaf hleaf.object?_eq_none)
  member template member := by
    refine ⟨fun r h => Step.ensures_canonical (fun _ => h) fun m hm => ?_⟩
    obtain ⟨-, d, hd, -⟩ := Repository.canonicalModel_eq_ok_iff.mp hm
    refine (Step.defineMember_installs hm (hinstalls m member.role) ?_ ⟨h, d, hd⟩).imp
      (fun _ _ h' => h'.1) fun _ _ h' => h'.1
    rintro r' ⟨h', d', hd'⟩ -
    exact ⟨hentries m _ h', _, Repository.model?_mapEntries hd' _⟩
  base template base r h _ := by
    refine Step.ensures_canonical (fun _ => h) fun m hm => ?_
    obtain ⟨-, d, hd, -⟩ := Repository.canonicalModel_eq_ok_iff.mp hm
    refine (Step.setBase_installs hm (hinstalls m) ?_ ⟨h, d, hd⟩).imp (fun _ _ h' => h'.1)
      fun _ _ h' => h'.1
    rintro r' ⟨h', d', hd'⟩
    exact ⟨hentries m _ h', _, Repository.model?_mapEntries hd' _⟩

theorem keeps_removeMember_of_installs (hentries : ∀ {r} m f, P r → P (r.mapEntries m f))
    (hinstalls : ∀ m role,
      Installs (fun r => P r ∧ ∃ d, r.model? m = some (.datatype d)) m role) (template : ObjectId)
    (role : String) : Keeps P (Step.removeMember template role) := by
  refine ⟨fun r h => Step.ensures_canonical (fun _ => h) fun m hm => ?_⟩
  obtain ⟨-, d, hd, -⟩ := Repository.canonicalModel_eq_ok_iff.mp hm
  refine (Step.removeMember_installs hm (fun _ => ⟨hinstalls m role, ?_⟩) ⟨h, d, hd⟩).imp
    (fun _ _ h' => h'.1) fun _ _ h' => h'.1
  exact ⟨hentries m _ h, _, Repository.model?_mapEntries hd _⟩

end Idl

end Metamodel
