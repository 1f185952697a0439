import Metamodel.Proofs.Entries
import Metamodel.Proofs.Locality

/-!
# Metamodel.Proofs.Editing -- what an edit does to a declaration and a template

An edit of a datatype touches this datatype only. Defining and removing a member changes one field.
Leaving a base removes the fields that the base has now, not those that it had when it was joined;
a field that the datatype declares itself stays. Joining a base installs a copy of each of its
fields. Main statements: the fields that a template has after each edit; after a change of the base
they are those of the new base, and those from before which the datatype declares or which the old
base does not have.
-/

namespace Metamodel

open Relation (ReflTransGen)

variable {κ : Type} {ts : TypeSystem κ} {r r' : Repository ts}

namespace Repository

/-- The datatype declares a member of that role. -/
def Declares (r : Repository ts) (m : ModelId) (role : String) : Prop :=
  (r.entriesOf m).any (Entry.declares role) = true

/-- The roles that an object contributes as a base. -/
def rolesOf (r : Repository ts) (base : ObjectId) : List String :=
  (r.inheritedRoles base).toOption.getD []

/-- The roles that the base of a datatype contributes, as it is now. -/
def inherited (r : Repository ts) (m : ModelId) : List String :=
  (Entry.base? (r.entriesOf m)).elim [] r.rolesOf

/-- What an object of a datatype contributes are the fields of the template. -/
theorem WellFormed.mem_rolesOf (h : r.WellFormed) {b : ObjectId} {n : ModelId} {d : Datatype κ}
    (hb : r.modelOf? b = some n) (hd : r.model? n = some (.datatype d)) {role : String} :
    role ∈ r.rolesOf b ↔ ∃ v, r.templateField? n role = some v := by
  obtain ⟨f, hf⟩ := h.template hd
  have hfields : r.fields d.template = .ok f := fields_eq_ok_iff.mpr ⟨n, hf⟩
  have hroles : r.rolesOf b = f.keys := by
    simp [rolesOf, inheritedRoles, hb, template?_datatype hd, hfields, Except.map,
      Except.toOption]
  rw [hroles, Table.mem_keys_iff, templateField?_eq hd hf]

theorem SameBut.declares_iff {F D : ModelId → Prop} (h : r.SameBut F D r') {m : ModelId}
    {d : Datatype κ} (hd : r.model? m = some (.datatype d)) (hm : ¬ D m) (role : String) :
    r'.Declares m role ↔ r.Declares m role := by
  rw [Declares, Declares, h.entriesOf hd hm]

theorem model?_mapEntries {m : ModelId} {d : Datatype κ} (hd : r.model? m = some (.datatype d))
    (f : List Entry → List Entry) :
    (r.mapEntries m f).model? m = some (.datatype { d with entries := f d.entries }) :=
  model?_mapDatatype_datatype.mpr ⟨d, hd, by rw [if_pos rfl]⟩

theorem kindOf?_mapEntries (m n : ModelId) (f : List Entry → List Entry) :
    (r.mapEntries m f).kindOf? n = r.kindOf? n := by
  unfold kindOf? mapEntries
  rw [model?_mapDatatype]
  split
  · cases r.model? n with
    | none => rfl
    | some model => cases model <;> rfl
  · rfl

theorem entriesOf_mapEntries {m : ModelId} {d : Datatype κ} (hd : r.model? m = some (.datatype d))
    (f : List Entry → List Entry) : (r.mapEntries m f).entriesOf m = f (r.entriesOf m) := by
  simp [entriesOf, model?_mapEntries hd, hd, Model.entries, Model.datatype?]

theorem entriesOf_putQualifiers (m n : ModelId) (qs : List Qualifier) :
    (r.putQualifiers m qs).entriesOf n = r.entriesOf n := by
  unfold entriesOf putQualifiers
  rw [model?_mapDatatype]
  split
  · cases r.model? n with
    | none => rfl
    | some model => cases model <;> rfl
  · rfl

theorem templateField?_mapEntries (hr : r.WellFormed) {m : ModelId} {d : Datatype κ}
    (hd : r.model? m = some (.datatype d)) (f : List Entry → List Entry) (role : String) :
    (r.mapEntries m f).templateField? m role = r.templateField? m role :=
  (sameBut_mapEntries (F := fun _ => False) (D := (· = m)) rfl f).templateField? hr hd (by simp)
    role

theorem templateFields?_mapEntries (hr : r.WellFormed) {m : ModelId} {d : Datatype κ}
    (hd : r.model? m = some (.datatype d)) (f : List Entry → List Entry) :
    (r.mapEntries m f).templateFields? m = r.templateFields? m :=
  (sameBut_mapEntries (F := fun _ => False) (D := (· = m)) rfl f).templateFields? hr hd (by simp)

/-- What changes no declaration changes some of them at most. -/
theorem Edited.weaken {F D : ModelId → Prop} (h : r.Edited F (fun _ => False) r') :
    r.Edited F D r' :=
  ⟨h.wellFormed, h.sameBut.mono (fun _ h => h) fun _ h => h.elim⟩

end Repository

namespace Step

open Repository (Edited)

/-- An edit is refused or is one of a canonical template. -/
theorem ensures_canonical {α : Type} {template : ObjectId} {f : ModelId → Step ts α}
    {ok : α → Repository ts → Prop} {fails : Error → Repository ts → Prop}
    (hrefused : ∀ e, fails e r)
    (hm : ∀ m, r.canonicalModel template = .ok m →
      (query (·.canonicalModel template) >>= f).Ensures r ok fails) :
    (query (·.canonicalModel template) >>= f).Ensures r ok fails := by
  cases hcase : r.canonicalModel template with
  | ok m => exact hm m hcase
  | error e =>
    rw [ensures_bind, ensures_query, hcase]
    exact ⟨fun m hm => by simp at hm, fun e _ => hrefused e⟩

/-! ## Members -/

/-- A member that is defined gets the value that is made for it, and all other fields stay where
they are. What is known of the value may speak of the repository, if it is kept as long as objects
last. -/
theorem defineMember_template {Q : Value → Repository ts → Prop} (hr : r.WellFormed)
    {template : ObjectId} {m : ModelId} (hm : r.canonicalModel template = .ok m) (member : Member)
    (hvalue : (createRoleInstance member.datatype member.role member.qualifiers).Ensures r Q
      fun _ _ => True)
    (hkept : ∀ {v r₁ r₂}, r₁.Preserves r₂ → Q v r₁ → Q v r₂) :
    (defineMember template member).Ensures r
      (fun _ r' => r.Edited (· = m) (· = m) r' ∧
        r'.entriesOf m = Entry.define member (r.entriesOf m) ∧
        ∃ v, Q v r' ∧ r'.templateFields? m =
          (r.templateFields? m).map (·.insert member.role v))
      fun _ => r.Edited (· = m) (· = m) := by
  obtain ⟨-, d, hd, -⟩ := Repository.canonicalModel_eq_ok_iff.mp hm
  simp only [defineMember, ensures_bind, ensures_query, hm]
  refine ⟨fun m' hm' => ?_, fun e he => by simp at he⟩
  obtain rfl := Except.ok.inj hm'
  split
  · simp only [ensures_bind, ensures_query, ensures_edit, ensures_note]
    refine ⟨fun _ _ => ?_, fun _ _ => hr.edited⟩
    refine (checkContainment_ensures m member r).imp ?_ fun _ _ hr' => hr'.1.symm ▸ hr.edited
    rintro _ r₀ ⟨rfl, -⟩
    refine (Ensures.and (createRoleInstance_makes hr _ _ _) hvalue).imp ?_
      fun _ _ h => ⟨h.1.1, h.1.2.sameBut⟩
    rintro v r₁ ⟨⟨hgrew, -⟩, hQ⟩
    have h₁ : r₀.Edited (· = m) (· = m) r₁ := ⟨hgrew.1, hgrew.2.sameBut⟩
    obtain ⟨d₁, hd₁, -⟩ := h₁.sameBut.datatype hd
    have h₂ := h₁.mapEntries (D := (· = m)) rfl (Entry.define member)
    have hsame : (r₁.mapEntries m (Entry.define member)).templateFields? m =
        r₀.templateFields? m := by
      rw [Repository.templateFields?_mapEntries hgrew.1 hd₁,
        (hgrew.2.sameBut (F := fun _ => False) (D := (· = m))).templateFields? hr hd (by simp)]
    have hentries : (r₁.mapEntries m (Entry.define member)).entriesOf m =
        Entry.define member (r₀.entriesOf m) := by
      rw [Repository.entriesOf_mapEntries hd₁,
        (hgrew.2.sameBut (F := (· = m)) (D := fun _ => False)).entriesOf hd (by simp)]
    have hd₂ := Repository.model?_mapEntries hd₁ (Entry.define member)
    refine (updateInstances_updated h₂.wellFormed hd₂ member.role (some v)).imp ?_
      fun _ _ h₃ => h₂.trans h₃.edited.weaken
    intro _ r₃ h₃
    have hdeclared : r₁.Preserves (r₁.mapEntries m (Entry.define member)) :=
      Repository.preserves_mapDatatype fun _ => rfl
    have hpreserves := hdeclared.trans h₃.edited.sameBut.preserves
    refine ⟨h₂.trans h₃.edited.weaken, ?_, v, hkept hpreserves hQ, by rw [h₃.fields, hsame]; rfl⟩
    rw [h₃.edited.sameBut.entriesOf hd₂ (by simp), hentries]
  · exact hr.edited

/-- A member that is defined gets the value that is made for it, and all other fields stay. -/
theorem defineMember_fields_of {Q : Value → Repository ts → Prop} (hr : r.WellFormed)
    {template : ObjectId} {m : ModelId} (hm : r.canonicalModel template = .ok m) (member : Member)
    (hvalue : (createRoleInstance member.datatype member.role member.qualifiers).Ensures r Q
      fun _ _ => True)
    (hkept : ∀ {v r₁ r₂}, r₁.Preserves r₂ → Q v r₁ → Q v r₂) :
    (defineMember template member).Ensures r
      (fun _ r' => r.Edited (· = m) (· = m) r' ∧
        r'.entriesOf m = Entry.define member (r.entriesOf m) ∧
        ∃ v, Q v r' ∧ ∀ k, r'.templateField? m k =
          if member.role = k then some v else r.templateField? m k)
      fun _ => r.Edited (· = m) (· = m) := by
  obtain ⟨-, d, hd, -⟩ := Repository.canonicalModel_eq_ok_iff.mp hm
  obtain ⟨f, hf⟩ := hr.template hd
  refine (defineMember_template hr hm member hvalue hkept).imp ?_ fun _ _ h => h
  rintro _ r' ⟨hedited, hentries, v, hv, hfields⟩
  refine ⟨hedited, hentries, v, hv, fun k => ?_⟩
  simp only [Repository.templateField?_eq_bind, hfields, Repository.templateFields?_eq hd hf,
    Option.map_some, Option.bind_some]
  exact Table.get?_insert f member.role k v

/-- A member that is defined gets its field, and all other fields stay. -/
theorem defineMember_fields (hr : r.WellFormed) {template : ObjectId} {m : ModelId}
    (hm : r.canonicalModel template = .ok m) (member : Member) :
    (defineMember template member).Ensures r
      (fun _ r' => r.Edited (· = m) (· = m) r' ∧
        r'.entriesOf m = Entry.define member (r.entriesOf m) ∧
        ∃ v, ∀ k, r'.templateField? m k =
          if member.role = k then some v else r.templateField? m k)
      fun _ => r.Edited (· = m) (· = m) := by
  refine (defineMember_fields_of (Q := fun _ _ => True) hr hm member
    ((ensures_true _ r).imp (fun _ _ h => h) fun _ _ h => h) fun _ h => h).imp ?_ fun _ _ h => h
  rintro _ r' ⟨hedited, hentries, v, -, hfields⟩
  exact ⟨hedited, hentries, v, hfields⟩

/-- A member that is removed loses its field, and the other fields stay where they are; where none
is declared nothing is done. -/
theorem removeMember_template (hr : r.WellFormed) {template : ObjectId} {m : ModelId}
    (hm : r.canonicalModel template = .ok m) (role : String) :
    (removeMember template role).Ensures r
      (fun _ r' => ¬ r.Declares m role ∧ r' = r ∨ r.Declares m role ∧
        r.Edited (· = m) (· = m) r' ∧
        r'.entriesOf m = Entry.remove role (r.entriesOf m) ∧
        r'.templateFields? m = (r.templateFields? m).map (·.erase role))
      fun _ => r.Edited (· = m) (· = m) := by
  obtain ⟨-, d, hd, -⟩ := Repository.canonicalModel_eq_ok_iff.mp hm
  simp only [removeMember, ensures_bind, ensures_query, ensures_ask, hm]
  refine ⟨fun m' hm' => ?_, fun e he => by simp at he⟩
  obtain rfl := Except.ok.inj hm'
  split
  · next hdeclared =>
    simp only [ensures_bind, ensures_edit, ensures_note, ensures_pure]
    have h₁ : r.Edited (· = m) (· = m) (r.mapEntries m (Entry.remove role)) :=
      hr.edited.mapEntries (D := (· = m)) rfl _
    have hd₁ := Repository.model?_mapEntries hd (Entry.remove role)
    refine (updateInstances_updated h₁.wellFormed hd₁ role none).imp ?_
      fun _ _ h₂ => h₁.trans h₂.edited.weaken
    intro _ r₂ h₂
    refine Or.inr ⟨hdeclared, h₁.trans h₂.edited.weaken, ?_, ?_⟩
    · rw [h₂.edited.sameBut.entriesOf hd₁ (by simp), Repository.entriesOf_mapEntries hd]
    · rw [h₂.fields, Repository.templateFields?_mapEntries hr hd]
      rfl
  · next hdeclared => exact Or.inl ⟨hdeclared, rfl⟩

/-- A member that is removed loses its field; where none is declared nothing is done. -/
theorem removeMember_fields (hr : r.WellFormed) {template : ObjectId} {m : ModelId}
    (hm : r.canonicalModel template = .ok m) (role : String) :
    (removeMember template role).Ensures r
      (fun _ r' => r' = r ∨ r.Declares m role ∧ r.Edited (· = m) (· = m) r' ∧
        r'.entriesOf m = Entry.remove role (r.entriesOf m) ∧
        ∀ k, r'.templateField? m k = if role = k then none else r.templateField? m k)
      fun _ => r.Edited (· = m) (· = m) := by
  obtain ⟨-, d, hd, -⟩ := Repository.canonicalModel_eq_ok_iff.mp hm
  obtain ⟨f, hf⟩ := hr.template hd
  refine (removeMember_template hr hm role).imp ?_ fun _ _ h => h
  rintro _ r' (⟨-, rfl⟩ | ⟨hdeclared, hedited, hentries, hfields⟩)
  · exact Or.inl rfl
  · refine Or.inr ⟨hdeclared, hedited, hentries, fun k => ?_⟩
    simp only [Repository.templateField?_eq_bind, hfields, Repository.templateFields?_eq hd hf,
      Option.map_some, Option.bind_some]
    exact Table.get?_erase f role k

/-! ## Leaving the old base -/

/-- The fields of some roles go, except for those that the datatype declares. -/
theorem dropInherited_fields (hr : r.WellFormed) {m : ModelId} {d : Datatype κ}
    (hd : r.model? m = some (.datatype d)) (roles : List String) :
    (dropInherited m roles).Ensures r
      (fun _ r' => r.Edited (· = m) (fun _ => False) r' ∧
        (∀ k, k ∈ roles → ¬ r.Declares m k → r'.templateField? m k = none) ∧
        ∀ k, (k ∈ roles → r.Declares m k) → r'.templateField? m k = r.templateField? m k)
      fun _ => r.Edited (· = m) fun _ => False := by
  induction roles generalizing r d with
  | nil => exact ⟨hr.edited, by simp, fun _ _ => rfl⟩
  | cons role rest ih =>
    show (do
      let declared ← ask fun r => (Entry.find? role (r.entriesOf m)).isSome
      (if declared then pure () else updateInstances m role none)
      dropInherited m rest : Step ts Unit).Ensures r _ _
    rw [ensures_bind, ensures_ask, Entry.isSome_find?]
    split
    · next hdeclared =>
      rw [ensures_bind, ensures_pure]
      refine (ih hr hd).imp ?_ fun _ _ h => h
      rintro _ r' ⟨hedited, hdropped, hkept⟩
      refine ⟨hedited, fun k hk hno => ?_, fun k hk => hkept k fun hmem => ?_⟩
      · rcases List.mem_cons.mp hk with rfl | hk
        · exact (hno hdeclared).elim
        · exact hdropped k hk hno
      · exact hk (List.mem_cons_of_mem role hmem)
    · next hdeclared =>
      rw [ensures_bind]
      refine (updateInstances_updated hr hd role none).imp ?_ fun _ _ h => h.edited
      intro _ r₁ h₁
      obtain ⟨d₁, hd₁, -⟩ := h₁.edited.sameBut.datatype hd
      have hdeclares := h₁.edited.sameBut.declares_iff hd (by simp)
      refine (ih h₁.edited.wellFormed hd₁).imp ?_ fun _ _ h => h₁.edited.trans h
      rintro _ r' ⟨hedited, hdropped, hkept⟩
      refine ⟨h₁.edited.trans hedited, fun k hk hno => ?_, fun k hk => ?_⟩
      · by_cases hrest : k ∈ rest
        · exact hdropped k hrest fun h => hno ((hdeclares k).mp h)
        · obtain rfl : k = role := (List.mem_cons.mp hk).resolve_right hrest
          rw [hkept k fun h => (hrest h).elim, h₁.field, if_pos rfl]
      · have hne : role ≠ k := by
          rintro rfl
          exact hdeclared (hk List.mem_cons_self)
        rw [hkept k fun h => (hdeclares k).mpr (hk (List.mem_cons_of_mem role h)), h₁.field,
          if_neg hne]

/-- The fields that the old base has now go, except for those that the datatype declares. -/
theorem leaveBase_fields (hr : r.WellFormed) {m : ModelId} {d : Datatype κ}
    (hd : r.model? m = some (.datatype d)) :
    (leaveBase m).Ensures r
      (fun _ r' => r.Edited (· = m) (fun _ => False) r' ∧
        (∀ k, k ∈ r.inherited m → ¬ r.Declares m k → r'.templateField? m k = none) ∧
        ∀ k, (k ∈ r.inherited m → r.Declares m k) → r'.templateField? m k = r.templateField? m k)
      fun _ => r.Edited (· = m) fun _ => False := by
  rw [leaveBase, ensures_bind, ensures_ask]
  cases hbase : Entry.base? (r.entriesOf m) with
  | none =>
    have hnone : r.inherited m = [] := by simp [Repository.inherited, hbase]
    exact ⟨hr.edited, by simp [hnone], fun _ _ => rfl⟩
  | some b =>
    simp only [ensures_bind, ensures_query]
    refine ⟨fun roles hroles => ?_, fun _ _ => hr.edited⟩
    have hinherited : r.inherited m = roles := by
      simp [Repository.inherited, hbase, Repository.rolesOf, hroles, Except.toOption]
    rw [hinherited]
    exact dropInherited_fields hr hd roles

/-! ## Joining a new base -/

/-- Each field of a table is installed and related to what it was copied from, if a single one is;
the relation may speak of the repository, if later installations keep it. -/
theorem installInherited_ensures_fields {P : Repository ts → Prop}
    {R : Repository ts → Value → Value → Prop} {fails : Error → Repository ts → Prop} {m : ModelId}
    {fields : Table String Value} (hnodup : fields.keys.Nodup)
    (hfield : ∀ field ∈ fields.entries, ∀ r, P r → (do
      let value ← cloneValue field.2 "" true
      updateInstances m field.1 (some value) : Step ts Unit).Ensures r
        (fun _ r' => P r' ∧ (∀ v w, R r v w → R r' v w) ∧
          (∃ w, r'.templateField? m field.1 = some w ∧ R r' field.2 w) ∧
          ∀ k, k ≠ field.1 → r'.templateField? m k = r.templateField? m k) fails) (h : P r) :
    (installInherited m fields).Ensures r
      (fun _ r' => P r' ∧ (∀ v w, R r v w → R r' v w) ∧
        (∀ field ∈ fields.entries, ∃ w, r'.templateField? m field.1 = some w ∧ R r' field.2 w) ∧
        ∀ k, k ∉ fields.keys → r'.templateField? m k = r.templateField? m k) fails := by
  obtain ⟨es⟩ := fields
  change (es.map (·.1)).Nodup at hnodup
  change ∀ field ∈ es, _ at hfield
  show (forEach es _).Ensures r (fun _ r' => P r' ∧ _ ∧ (∀ field ∈ es, _) ∧
    ∀ k, k ∉ es.map (·.1) → _) fails
  induction es generalizing r with
  | nil => exact ⟨h, fun _ _ hvw => hvw, by simp, fun _ _ => rfl⟩
  | cons field rest ih =>
    obtain ⟨hnew, hnodup⟩ := List.nodup_cons.mp hnodup
    rw [forEach, ensures_bind]
    refine (hfield field List.mem_cons_self r h).imp ?_ fun _ _ h => h
    rintro _ r₁ ⟨h₁, hmono₁, ⟨w, hw, hR⟩, hother⟩
    refine (ih h₁ hnodup fun f hf => hfield f (List.mem_cons_of_mem field hf)).imp ?_
      fun _ _ h => h
    rintro _ r₂ ⟨h₂, hmono₂, hrest, hkept⟩
    refine ⟨h₂, fun v w hvw => hmono₂ v w (hmono₁ v w hvw), fun f hf => ?_, fun k hk => ?_⟩
    · rcases List.mem_cons.mp hf with rfl | hf
      · -- Later fields have other roles.
        exact ⟨w, by rw [hkept f.1 hnew, hw], hmono₂ _ _ hR⟩
      · exact hrest f hf
    · simp only [List.map_cons, List.mem_cons, not_or] at hk
      rw [hkept k hk.2, hother k hk.1]

/-- A copy of a field is made and installed, whatever the copy is. -/
theorem installField_fields (hr : r.WellFormed) {m : ModelId} {d : Datatype κ}
    (hd : r.model? m = some (.datatype d)) (field : String × Value) :
    (do
      let value ← cloneValue field.2 "" true
      updateInstances m field.1 (some value) : Step ts Unit).Ensures r
        (fun _ r' => r.Edited (· = m) (fun _ => False) r' ∧
          (∃ w, r'.templateField? m field.1 = some w) ∧
          ∀ k, k ≠ field.1 → r'.templateField? m k = r.templateField? m k)
        fun _ => r.Edited (· = m) fun _ => False := by
  have hgrew : ∀ {r₁}, Grew r r₁ → r.Edited (· = m) (fun _ => False) r₁ := fun h₁ =>
    ⟨h₁.1, h₁.2.sameBut⟩
  rw [ensures_bind]
  refine (cloneValue_makes hr field.2 "" true).imp ?_ fun _ _ h₁ => hgrew h₁
  rintro v r₁ ⟨h₁, -⟩
  obtain ⟨g, hd₁⟩ := h₁.2.datatype hd
  have hsame : ∀ k, r₁.templateField? m k = r.templateField? m k :=
    (h₁.2.sameBut (F := fun _ => False) (D := fun _ => False)).templateField? hr hd (by simp)
  refine (updateInstances_updated h₁.1 hd₁ field.1 (some v)).imp ?_
    fun _ _ h₂ => (hgrew h₁).trans h₂.edited
  intro _ r₂ h₂
  refine ⟨(hgrew h₁).trans h₂.edited, ⟨v, by rw [h₂.field, if_pos rfl]⟩, fun k hk => ?_⟩
  rw [h₂.field, if_neg (Ne.symm hk), hsame]

/-- The template gets a field for each one that is installed, and keeps the others. -/
theorem installInherited_fields (hr : r.WellFormed) {m : ModelId} {d : Datatype κ}
    (hd : r.model? m = some (.datatype d)) {fields : Table String Value}
    (hnodup : fields.keys.Nodup) :
    (installInherited m fields).Ensures r
      (fun _ r' => r.Edited (· = m) (fun _ => False) r' ∧
        (∀ k, k ∈ fields.keys → ∃ v, r'.templateField? m k = some v) ∧
        ∀ k, k ∉ fields.keys → r'.templateField? m k = r.templateField? m k)
      fun _ => r.Edited (· = m) fun _ => False := by
  refine (installInherited_ensures_fields (P := r.Edited (· = m) fun _ => False)
    (R := fun _ _ _ => True) hnodup (fun field _ r₁ h₁ => ?_) hr.edited).imp ?_ fun _ _ h => h
  · obtain ⟨d₁, hd₁, -⟩ := h₁.sameBut.datatype hd
    refine (installField_fields h₁.wellFormed hd₁ field).imp ?_ fun _ _ h₂ => h₁.trans h₂
    rintro _ r₂ ⟨h₂, ⟨w, hw⟩, hother⟩
    exact ⟨h₁.trans h₂, fun _ _ h => h, ⟨w, hw, trivial⟩, hother⟩
  · rintro _ r' ⟨h', -, hinstalled, hkept⟩
    refine ⟨h', fun k hk => ?_, hkept⟩
    obtain ⟨field, hfield, rfl⟩ := List.mem_map.mp hk
    obtain ⟨w, hw, -⟩ := hinstalled field hfield
    exact ⟨w, hw⟩

/-! ## Changing the base -/

/-- The repository after a datatype has got another base, or none. -/
structure Rebased (m : ModelId) (base : Option ObjectId) (r r' : Repository ts) : Prop where
  edited : r.Edited (· = m) (· = m) r'
  entries : r'.entriesOf m = Entry.rebase base (r.entriesOf m)
  /-- What the new base has is there. -/
  joined : ∀ {k}, k ∈ base.elim [] r.rolesOf → ∃ v, r'.templateField? m k = some v
  /-- What the old base has is gone, unless it is declared. -/
  left : ∀ {k}, k ∉ base.elim [] r.rolesOf → k ∈ r.inherited m → ¬ r.Declares m k →
    r'.templateField? m k = none
  kept : ∀ {k}, k ∉ base.elim [] r.rolesOf → (k ∈ r.inherited m → r.Declares m k) →
    r'.templateField? m k = r.templateField? m k

namespace Rebased

variable {m : ModelId} {base : Option ObjectId} {k : String}

/-- A field that the new base does not have was there. -/
theorem before (h : Rebased m base r r') (hk : k ∉ base.elim [] r.rolesOf) {v : Value}
    (hv : r'.templateField? m k = some v) :
    r.templateField? m k = some v ∧ (k ∈ r.inherited m → r.Declares m k) := by
  have hstays : k ∈ r.inherited m → r.Declares m k := by
    intro hold
    by_contra hno
    simp [h.left hk hold hno] at hv
  rw [h.kept hk hstays] at hv
  exact ⟨hv, hstays⟩

/-- The roles afterwards are those of the new base, and those from before that are declared or that
the old base does not have. -/
theorem field_iff (h : Rebased m base r r') :
    (∃ v, r'.templateField? m k = some v) ↔ k ∈ base.elim [] r.rolesOf ∨
      (∃ v, r.templateField? m k = some v) ∧ (k ∈ r.inherited m → r.Declares m k) := by
  by_cases hk : k ∈ base.elim [] r.rolesOf
  · exact ⟨fun _ => Or.inl hk, fun _ => h.joined hk⟩
  · constructor
    · rintro ⟨v, hv⟩
      obtain ⟨hv, hstays⟩ := h.before hk hv
      exact Or.inr ⟨⟨v, hv⟩, hstays⟩
    · rintro (hk' | ⟨hv, hstays⟩)
      · exact (hk hk').elim
      · rwa [h.kept hk hstays]

end Rebased

/-- Whatever it is changed to, the template keeps what it declares or the old base does not have,
and gets what the new base has. -/
theorem setBase_fields (hr : r.WellFormed) {template : ObjectId} {m : ModelId}
    (hm : r.canonicalModel template = .ok m) {base : Option ObjectId}
    (hbase : ∀ b n, base = some b → r.modelOf? b = some n → r.isAlias n = false) :
    (setBase template base).Ensures r (fun _ => Rebased m base r)
      fun _ => r.Edited (· = m) (· = m) := by
  obtain ⟨-, d, hd, -⟩ := Repository.canonicalModel_eq_ok_iff.mp hm
  simp only [setBase, ensures_bind, ensures_query, hm]
  refine ⟨fun m' hm' => ?_, fun e he => by simp at he⟩
  obtain rfl := Except.ok.inj hm'
  refine (checkBase_ensures m base r).imp ?_ fun _ r' hr' => hr'.1.symm ▸ hr.edited
  rintro bm r' ⟨rfl, hnone, hsome⟩
  refine (leaveBase_fields hr hd).imp ?_ fun _ _ h => h.weaken
  rintro _ r₁ ⟨h₁, hdropped, hkept⟩
  rw [ensures_edit]
  obtain ⟨d₁, hd₁, -⟩ := h₁.sameBut.datatype hd
  have h₂ : r'.Edited (· = m) (· = m) (r₁.mapEntries m (Entry.rebase base)) :=
    h₁.weaken.mapEntries (D := (· = m)) rfl _
  have hentries : (r₁.mapEntries m (Entry.rebase base)).entriesOf m =
      Entry.rebase base (r'.entriesOf m) := by
    rw [Repository.entriesOf_mapEntries hd₁, h₁.sameBut.entriesOf hd (by simp)]
  -- The fields that have been left alone.
  have hfields : ∀ k, (r₁.mapEntries m (Entry.rebase base)).templateField? m k =
      r₁.templateField? m k := Repository.templateField?_mapEntries h₁.wellFormed hd₁ _
  refine joinBase_ensures (fun hbm => ?_) fun n hn => ?_
  · obtain rfl := hnone hbm
    exact ⟨h₂, hentries, fun hk => by simp at hk,
      fun _ hold hno => by rw [hfields, hdropped _ hold hno],
      fun _ hstays => by rw [hfields, hkept _ hstays]⟩
  · obtain ⟨b, rfl, hb, hbn⟩ := hsome n hn
    obtain ⟨⟨e, he⟩, hno⟩ := not_reaches_of_checkBase hr hb hbn (hbase b n rfl hbn)
    -- The base is of another datatype, so that its template is as it was.
    have hne : n ≠ m := by
      rintro rfl
      exact hno .refl
    obtain ⟨e', he', -, ht, -⟩ := h₂.sameBut.datatype he
    obtain ⟨f, hf⟩ := h₂.wellFormed.template he'
    obtain ⟨d₂, hd₂, -⟩ := h₂.sameBut.datatype hd
    refine ⟨e', f, he', hf, ?_⟩
    refine (installInherited_fields h₂.wellFormed hd₂ (h₂.wellFormed.roles_nodup hf)).imp ?_
      fun _ _ h => h₂.trans h.weaken
    rintro _ r₃ ⟨h₃, hinstalled, hothers⟩
    have hroles : ∀ k, k ∈ f.keys ↔ k ∈ r'.rolesOf b := by
      intro k
      rw [hr.mem_rolesOf hbn he, Table.mem_keys_iff, ← Repository.templateField?_eq he' hf,
        h₂.sameBut.templateField? hr he hne]
    refine ⟨h₂.trans h₃.weaken, by rw [h₃.sameBut.entriesOf hd₂ (by simp), hentries],
      fun {k} hk => hinstalled k ((hroles k).mpr hk), fun {k} hk hold hno => ?_,
      fun {k} hk hstays => ?_⟩
    · rw [hothers k (mt (hroles k).mp hk), hfields, hdropped k hold hno]
    · rw [hothers k (mt (hroles k).mp hk), hfields, hkept k hstays]

end Step

end Metamodel
