import Metamodel.Proofs.Facade
import Metamodel.Proofs.Editing

/-!
# Metamodel.Proofs.Members -- a declared member has a field

The declaration list of a datatype and the fields of its template are changed one after the other,
and either change may be followed by one that fails. Main statement: in every state of every run in
which no field is written directly, the template has a field for each member that is declared.
-/

namespace Metamodel

variable {κ : Type} {ts : TypeSystem κ} {r r' : Repository ts}

namespace Repository

/-- Every member that a datatype declares has a field in the template. -/
structure Fielded (r : Repository ts) : Prop where
  wellFormed : r.WellFormed
  field : ∀ {m role}, r.Declares m role → ∃ v, r.templateField? m role = some v

/-- Only datatypes declare anything. -/
theorem Declares.datatype {m : ModelId} {role : String} (h : r.Declares m role) :
    ∃ d, r.model? m = some (.datatype d) := by
  cases hm : r.model? m with
  | none => simp [Declares, entriesOf, hm] at h
  | some model =>
    cases model with
    | shape s => simp [Declares, entriesOf, hm, Model.entries, Model.datatype?] at h
    | datatype d => exact ⟨d, rfl⟩

/-- What declares no more and keeps the fields keeps every member's field. -/
theorem Fielded.step (h : r.Fielded) (hr' : r'.WellFormed)
    (hdeclares : ∀ {m role}, r'.Declares m role → r.Declares m role)
    (hfield : ∀ {m d role}, r.model? m = some (.datatype d) →
      r'.templateField? m role = r.templateField? m role) : r'.Fielded := by
  refine ⟨hr', fun {m role} hdecl => ?_⟩
  have hdecl := hdeclares hdecl
  obtain ⟨d, hd⟩ := hdecl.datatype
  rw [hfield hd]
  exact h.field hdecl

theorem declares_mapDatatype {m k : ModelId} {f : Datatype κ → Datatype κ} {role : String}
    (hf : ∀ d, (f d).entries.any (Entry.declares role) = true →
      d.entries.any (Entry.declares role) = true)
    (h : (r.mapDatatype k f).Declares m role) : r.Declares m role := by
  obtain ⟨d, hd⟩ := h.datatype
  obtain ⟨d₀, hd₀, rfl⟩ := model?_mapDatatype_datatype.mp hd
  simp only [Declares, entriesOf, hd, hd₀, Option.elim_some, Model.entries, Model.datatype?] at h ⊢
  split at h
  · exact hf d₀ h
  · exact h

theorem declares_mapEntries_define {m n : ModelId} {member : Member} {role : String}
    (h : (r.mapEntries m (Entry.define member)).Declares n role) :
    n = m ∧ role = member.role ∨ r.Declares n role := by
  obtain ⟨d, hd⟩ := h.datatype
  obtain ⟨d₀, hd₀, rfl⟩ := model?_mapDatatype_datatype.mp hd
  simp only [Declares, entriesOf, hd, hd₀, Option.elim_some, Model.entries, Model.datatype?] at h ⊢
  split at h
  · next hn => exact (Entry.any_declares_define_iff.mp h).imp_left fun hrole => ⟨hn, hrole⟩
  · exact Or.inr h

theorem Fielded.mapDatatype (h : r.Fielded) {k : ModelId} {f : Datatype κ → Datatype κ}
    (hr' : (r.mapDatatype k f).WellFormed)
    (hf : ∀ d, (f d).kind = d.kind ∧ (f d).template = d.template ∧ (f d).registry = d.registry)
    (hentries : ∀ d role, (f d).entries.any (Entry.declares role) = true →
      d.entries.any (Entry.declares role) = true) : (r.mapDatatype k f).Fielded :=
  h.step hr' (fun hdecl => declares_mapDatatype (fun d => hentries d _) hdecl) fun hd =>
    (sameBut_mapDatatype (F := fun _ => False) (D := fun _ => True) trivial hf).templateField?
      h.wellFormed hd (by simp) _

theorem fielded_declarative : Declarative (Fielded : Repository ts → Prop) where
  wellFormed := Fielded.wellFormed
  addTemplate {r} name kind h := by
    refine h.step (h.wellFormed.addTemplate name kind) (fun {m role} hdecl => ?_) fun hd =>
      (sameBut_addTemplate (F := fun _ => False) (D := fun _ => True) trivial name
        kind).templateField? h.wellFormed hd (by simp) _
    -- The new datatype declares nothing.
    unfold Declares entriesOf at hdecl
    rw [model?_addTemplate] at hdecl
    split at hdecl
    · simp [freshDatatype, Model.entries, Model.datatype?] at hdecl
    · exact hdecl
  mapEntries m _ hf h := h.mapDatatype (h.wellFormed.mapEntries m _) (fun _ => ⟨rfl, rfl, rfl⟩)
    fun d role => hf.undeclaring d.entries role
  putQualifiers m qs h := h.mapDatatype (h.wellFormed.putQualifiers m qs)
    (fun _ => ⟨rfl, rfl, rfl⟩) fun _ _ => id
  putScope m _ h hs := h.mapDatatype (h.wellFormed.putScope m hs) (fun _ => ⟨rfl, rfl, rfl⟩)
    fun _ _ => id

theorem SameBut.declares {F D : ModelId → Prop} (h : r.SameBut F D r') (hD : ∀ m, ¬ D m)
    {m : ModelId} {role : String} (hdecl : r'.Declares m role) : r.Declares m role := by
  obtain ⟨d', hd'⟩ := hdecl.datatype
  have hlt := (h.datatype_old hd').resolve_right (hD m)
  obtain ⟨model, hm⟩ : ∃ model, r.model? m = some model := by simp [Repository.model?, hlt]
  cases model with
  | shape s => simp [h.shape hm] at hd'
  | datatype d => exact (h.declares_iff hm (hD m) role).mp hdecl

/-- Additions and removals touch no template. -/
theorem fielded_closed : Closed (Fielded : Repository ts → Prop) where
  toDeclarative := fielded_declarative
  grew h hr' := by
    have hsame := hr'.2.sameBut (F := fun _ => False) (D := fun _ => False)
    exact h.step hr'.1 (hsame.declares (by simp)) fun hd =>
      hsame.templateField? h.wellFormed hd (by simp) _
  writeElement {r} id index value h := by
    refine h.step (h.wellFormed.writeElement id index value) (fun {m role} hdecl => ?_)
      fun {m d role} hd => ?_
    · simpa [Declares, entriesOf] using hdecl
    · obtain ⟨f, hf⟩ := h.wellFormed.template hd
      rw [templateField?_eq hd hf, templateField?_eq (by simpa using hd)
        (composite_writeElement.mpr hf)]
  free {r id} h hno := by
    refine h.step (h.wellFormed.free hno) (fun {m role} hdecl => ?_) fun {m d role} hd => ?_
    · obtain ⟨d, hd⟩ := hdecl.datatype
      obtain ⟨d₀, g, hd₀, rfl⟩ := datatype_of_free hd
      simpa [Declares, entriesOf, hd, hd₀, Model.entries, Model.datatype?] using hdecl
    · obtain ⟨f, hf⟩ := h.wellFormed.template hd
      obtain ⟨d', hd', -, ht⟩ := (steady_free id).datatype hd
      have hf' : (r.free id).object? d'.template = some (.composite m f) := by
        rw [ht, object?_free, if_neg (hno m d hd), hf]
      rw [templateField?_eq hd hf, templateField?_eq hd' hf']

end Repository

namespace Step

open Repository (Fielded fielded_closed fielded_declarative)

/-- After an update every member has a field, if all others had one before and the one that is
updated is not declared where its field is removed. -/
theorem Updated.fielded {m : ModelId} {d : Datatype κ} {role : String} {value : Option Value}
    (h : Updated m role value r r') (hr : r.WellFormed) (hd : r.model? m = some (.datatype d))
    (hfield : ∀ {n k}, r.Declares n k → n = m ∧ k = role ∨ ∃ v, r.templateField? n k = some v)
    (hvalue : value = none → ¬ r.Declares m role) : r'.Fielded := by
  refine ⟨h.edited.wellFormed, fun {n k} hdecl => ?_⟩
  have hdecl := h.edited.sameBut.declares (by simp) hdecl
  by_cases hn : n = m
  · subst hn
    rw [h.field]
    split
    · next hk =>
      subst hk
      cases value with
      | none => exact (hvalue rfl hdecl).elim
      | some v => exact ⟨v, rfl⟩
    · next hk => exact (hfield hdecl).resolve_left fun hk' => hk hk'.2.symm
  · obtain ⟨e, he⟩ := hdecl.datatype
    rw [h.edited.sameBut.templateField? hr he hn]
    exact (hfield hdecl).resolve_left fun hn' => hn hn'.1

/-! ## Operations that write fields -/

theorem fielded_updateInstances (h : r.Fielded) {m : ModelId} {d : Datatype κ}
    (hd : r.model? m = some (.datatype d)) {role : String} {value : Option Value}
    (hvalue : value = none → ¬ r.Declares m role) :
    (updateInstances m role value).Ensures r
      (fun _ r' => r'.Fielded ∧ ∃ d', r'.model? m = some (.datatype d')) fun _ => Fielded := by
  refine (updateInstances_updated h.wellFormed hd role value).imp (fun _ r' h' => ?_) fun _ r' h' =>
    h'.fielded h.wellFormed hd (fun hdecl => Or.inr (h.field hdecl)) hvalue
  obtain ⟨d', hd', -⟩ := h'.edited.sameBut.datatype hd
  exact ⟨h'.fielded h.wellFormed hd (fun hdecl => Or.inr (h.field hdecl)) hvalue, d', hd'⟩

theorem fielded_defineMember (template : ObjectId) (member : Member) :
    Keeps (Fielded : Repository ts → Prop) (defineMember template member) := by
  refine ⟨fun r h => ?_⟩
  simp only [defineMember, ensures_bind, ensures_query]
  refine ⟨fun m hm => ?_, fun _ _ => h⟩
  obtain ⟨-, d, hd, -⟩ := Repository.canonicalModel_eq_ok_iff.mp hm
  split
  · simp only [ensures_bind, ensures_query, ensures_edit, ensures_note]
    refine ⟨fun _ _ => ?_, fun _ _ => h⟩
    refine (checkContainment_ensures m member r).imp ?_ fun _ _ hr' => hr'.1 ▸ h
    rintro _ r₀ ⟨rfl, -⟩
    refine (createRoleInstance_makes h.wellFormed _ _ _).imp ?_ fun _ _ h' =>
      fielded_closed.grew h h'
    rintro v r₁ ⟨hgrew, -⟩
    have h₁ := fielded_closed.grew h hgrew
    obtain ⟨g, hd₁⟩ := hgrew.2.datatype hd
    have hwf := h₁.wellFormed.mapEntries m (Entry.define member)
    have hd₂ := Repository.model?_mapEntries hd₁ (Entry.define member)
    -- The member is declared before it gets its field; all others have theirs.
    have hfield : ∀ {n k}, (r₁.mapEntries m (Entry.define member)).Declares n k →
        n = m ∧ k = member.role ∨
          ∃ w, (r₁.mapEntries m (Entry.define member)).templateField? n k = some w := by
      intro n k hdecl
      rcases Repository.declares_mapEntries_define hdecl with hnew | hold
      · exact Or.inl hnew
      · obtain ⟨e, he⟩ := hold.datatype
        rw [(Repository.sameBut_mapEntries (F := fun _ => False) (D := fun _ => True) trivial
          _).templateField? h₁.wellFormed he (by simp)]
        exact Or.inr (h₁.field hold)
    exact (updateInstances_updated hwf hd₂ member.role (some v)).imp
      (fun _ _ h' => h'.fielded hwf hd₂ hfield (by simp)) fun _ _ h' =>
        h'.fielded hwf hd₂ hfield (by simp)
  · exact h

theorem fielded_removeMember (template : ObjectId) (role : String) :
    Keeps (Fielded : Repository ts → Prop) (removeMember template role) := by
  refine ⟨fun r h => ?_⟩
  simp only [removeMember, ensures_bind, ensures_query, ensures_ask]
  refine ⟨fun m hm => ?_, fun _ _ => h⟩
  obtain ⟨-, d, hd, -⟩ := Repository.canonicalModel_eq_ok_iff.mp hm
  split
  · simp only [ensures_bind, ensures_edit, ensures_note, ensures_pure]
    have h₁ := fielded_declarative.mapEntries m (Repository.harmless_remove role) h
    have hd₁ := Repository.model?_mapEntries hd (Entry.remove role)
    refine (fielded_updateInstances h₁ hd₁ fun _ => ?_).imp (fun _ _ h' => h'.1) fun _ _ h' => h'
    -- The field goes after the declaration.
    simp [Repository.Declares, Repository.entriesOf_mapEntries hd, Entry.any_declares_remove]
  · exact h

theorem fielded_dropInherited (h : r.Fielded) {m : ModelId} {d : Datatype κ}
    (hd : r.model? m = some (.datatype d)) (roles : List String) :
    (dropInherited m roles).Ensures r
      (fun _ r' => r'.Fielded ∧ ∃ d', r'.model? m = some (.datatype d'))
      fun _ r' => r'.Fielded := by
  refine ensures_forEach (P := fun r => r.Fielded ∧ ∃ d, r.model? m = some (.datatype d)) roles
    (fun role _ r₁ h₁ => ?_) ⟨h, d, hd⟩
  obtain ⟨h₁, d₁, hd₁⟩ := h₁
  rw [ensures_bind, ensures_ask, Entry.isSome_find?]
  split
  · exact ⟨h₁, d₁, hd₁⟩
  · next hdeclared => exact fielded_updateInstances h₁ hd₁ fun _ => hdeclared

theorem fielded_installInherited (h : r.Fielded) {m : ModelId} {d : Datatype κ}
    (hd : r.model? m = some (.datatype d)) (fields : Table String Value) :
    (installInherited m fields).Ensures r (fun _ => Fielded) fun _ => Fielded := by
  refine (ensures_forEach (P := fun r => r.Fielded ∧ ∃ d, r.model? m = some (.datatype d))
    fields.entries (fun field _ r₁ h₁ => ?_) ⟨h, d, hd⟩).imp (fun _ _ h' => h'.1) fun _ _ h' => h'
  obtain ⟨h₁, d₁, hd₁⟩ := h₁
  rw [ensures_bind]
  refine (cloneValue_makes h₁.wellFormed field.2 "" true).imp ?_ fun _ _ h' =>
    fielded_closed.grew h₁ h'
  rintro v r₂ ⟨hgrew, -⟩
  obtain ⟨g, hd₂⟩ := hgrew.2.datatype hd₁
  exact fielded_updateInstances (fielded_closed.grew h₁ hgrew) hd₂ (by simp)

theorem fielded_setBase (template : ObjectId) (base : Option ObjectId) :
    Keeps (Fielded : Repository ts → Prop) (setBase template base) := by
  refine ⟨fun r h => ?_⟩
  simp only [setBase, ensures_bind, ensures_query]
  refine ⟨fun m hm => ?_, fun _ _ => h⟩
  obtain ⟨-, d, hd, -⟩ := Repository.canonicalModel_eq_ok_iff.mp hm
  refine ((keeps_checkBase (P := (· = r)) m base).ensures r rfl).imp ?_ fun _ _ hr' => hr' ▸ h
  rintro bm r₀ rfl
  have hleave : (leaveBase m).Ensures r₀
      (fun _ r' => r'.Fielded ∧ ∃ d', r'.model? m = some (.datatype d')) fun _ => Fielded := by
    rw [leaveBase, ensures_bind, ensures_ask]
    split
    · rw [ensures_bind, ensures_query]
      exact ⟨fun roles _ => fielded_dropInherited h hd roles, fun _ _ => h⟩
    · exact ⟨h, d, hd⟩
  refine hleave.imp ?_ fun _ _ h' => h'
  rintro _ r₁ ⟨h₁, d₁, hd₁⟩
  rw [ensures_edit]
  have h₂ := fielded_declarative.mapEntries m (Repository.harmless_rebase base) h₁
  have hd₂ := Repository.model?_mapEntries hd₁ (Entry.rebase base)
  cases bm with
  | none => exact h₂
  | some k =>
    simp only [joinBase, ensures_bind, ensures_query]
    refine ⟨fun seed _ => ⟨fun fields _ => ?_, fun _ _ => h₂⟩, fun _ _ => h₂⟩
    exact fielded_installInherited h₂ hd₂ fields

end Step

/-! ## Runs -/

open Repository (Fielded fielded_closed fielded_declarative)

theorem Repository.fielded_empty : (Repository.empty ts).Fielded :=
  ⟨wellFormed_empty, fun hdecl => by simp [Declares, entriesOf] at hdecl⟩

theorem Operation.perform_fielded (h : r.Fielded) {operation : Operation κ}
    (hupdate : ∀ m role value, operation ≠ .updateInstances m role value) :
    (operation.perform r).Fielded := by
  refine operation.perform_keeps fielded_declarative fielded_closed.toGrowing
    Step.fielded_defineMember Step.fielded_removeMember ?_ ?_ ?_ ?_ ?_ h
  · rintro template base rfl
    exact (Step.fielded_setBase template base).repo h
  · rintro m role value rfl
    exact (hupdate m role value rfl).elim
  · rintro id index rfl
    exact (Step.keeps_element fielded_closed.toGrowing fielded_closed.writeNew id index).repo h
  · rintro id index value rfl
    exact (Step.keeps_setElement fielded_closed id index value).repo h
  · rintro id rfl
    exact (Step.keeps_releaseInstance fielded_closed id).repo h

namespace Idl

variable {limits : Limits} {r : Repository (system limits)}

theorem fielded_editable : Editable (Fielded : Repository (system limits) → Prop) where
  toDeclarative := fielded_declarative
  leaf m role v _ := by
    refine ⟨fun r h => ?_⟩
    obtain ⟨h, d, hd⟩ := h
    refine (Step.updateInstances_updated h.wellFormed hd role (some v)).imp ?_ ?_
    all_goals
      intro _ r' h'
      obtain ⟨d', hd', -⟩ := h'.edited.sameBut.datatype hd
      exact ⟨h'.fielded h.wellFormed hd (fun hdecl => Or.inr (h.field hdecl)) (by simp), d', hd'⟩
  member := Step.fielded_defineMember
  base template base r h _ := (Step.fielded_setBase template base).ensures r h

/-- The rule under which fields are written through declarations only. -/
def Operation.KeepsMembers (_ : Repository (system limits)) : Operation → Prop
  | repository (.updateInstances _ _ _) => False
  | _ => True

theorem Operation.perform_fielded (h : r.Fielded) {operation : Operation}
    (hrule : operation.KeepsMembers r) : (operation.perform r).Fielded := by
  refine operation.perform_editable fielded_editable ?_ h
  rintro inner rfl
  refine inner.perform_fielded h ?_
  rintro m role value rfl
  exact hrule

theorem fielded_of_reached
    (h : Reached Operation.perform Operation.KeepsMembers (initial limits) r) : r.Fielded :=
  h.invariant (initial_of_empty fielded_declarative Repository.fielded_empty) fun _ _ hr hrule =>
    Operation.perform_fielded hr hrule

end Idl

end Metamodel
