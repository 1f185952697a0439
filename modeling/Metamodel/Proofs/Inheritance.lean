import Metamodel.Proofs.Bases
import Metamodel.Proofs.Declaring

/-!
# Metamodel.Proofs.Inheritance -- what a structure has from its base

A base contributes copies of its fields at the time when it is joined. What is edited in the
datatypes of these fields is edited in the copies too; what is edited in the base itself is not seen
by the structures that have joined it. Main statement: from the time when it joined its base, a
structure keeps a copy of each field that the base has, in every run that adds to the base only what
the structure declares itself, and removes from the structure nothing that the base has.
-/

namespace Metamodel

namespace Repository

variable {κ : Type} {ts : TypeSystem κ} {r r' r'' : Repository ts} {E F D : ModelId → Prop}

/-! ## What an edit of some datatypes leaves -/

/-- Everything lasts, and datatypes that are not among these keep their declaration and the fields
of their template. -/
structure Unedited (E : ModelId → Prop) (r r' : Repository ts) : Prop where
  preserves : r.Preserves r'
  datatype : ∀ {n d}, r.model? n = some (.datatype d) → ∃ d', r'.model? n = some (.datatype d')
  entries : ∀ {n}, ¬ E n → r'.entriesOf n = r.entriesOf n
  field : ∀ {n d}, r.model? n = some (.datatype d) → ¬ E n → ∀ k,
    r'.templateField? n k = r.templateField? n k

namespace Unedited

theorem refl (r : Repository ts) : r.Unedited E r :=
  ⟨.refl r, fun hd => ⟨_, hd⟩, fun _ => rfl, fun _ _ _ => rfl⟩

theorem trans (h : r.Unedited E r') (h' : r'.Unedited E r'') : r.Unedited E r'' where
  preserves := h.preserves.trans h'.preserves
  datatype hd := by
    obtain ⟨d', hd'⟩ := h.datatype hd
    exact h'.datatype hd'
  entries hn := (h'.entries hn).trans (h.entries hn)
  field hd hn k := by
    obtain ⟨d', hd'⟩ := h.datatype hd
    rw [h'.field hd' hn, h.field hd hn]

theorem declares_iff (h : r.Unedited E r') {n : ModelId} (hn : ¬ E n) (k : String) :
    r'.Declares n k ↔ r.Declares n k := by
  rw [Declares, Declares, h.entries hn]

end Unedited

/-- What is no datatype declares nothing. -/
theorem entriesOf_eq_nil {n : ModelId} (h : ∀ d, r.model? n ≠ some (.datatype d)) :
    r.entriesOf n = [] := by
  cases hmodel : r.model? n with
  | none => simp [entriesOf, hmodel]
  | some model =>
    cases model with
    | shape s => simp [entriesOf, hmodel, Model.entries, Model.datatype?]
    | datatype d => exact (h d hmodel).elim

theorem SameBut.unedited (h : r.SameBut F D r') (hr : r.WellFormed) (hE : ∀ n, F n ∨ D n → E n) :
    r.Unedited E r' where
  preserves := h.preserves
  datatype hd := by
    obtain ⟨d', hd', -⟩ := h.datatype hd
    exact ⟨d', hd'⟩
  entries {n} hn := by
    have hD : ¬ D n := fun hD => hn (hE n (Or.inr hD))
    by_cases hd : ∃ d, r.model? n = some (.datatype d)
    · obtain ⟨d, hd⟩ := hd
      exact h.entriesOf hd hD
    · -- What was none has not become a datatype.
      rw [entriesOf_eq_nil fun d hd' => hd ⟨d, hd'⟩, entriesOf_eq_nil fun d' hd' => ?_]
      have hlt := (h.datatype_old hd').resolve_right hD
      obtain ⟨model, hmodel⟩ : ∃ model, r.model? n = some model := by simp [model?, hlt]
      cases model with
      | shape s => simp [h.shape hmodel] at hd'
      | datatype d => exact hd ⟨d, hmodel⟩
  field hd hn := h.templateField? hr hd fun hF => hn (hE _ (Or.inl hF))

theorem Edited.unedited (h : r.Edited E E r') (hr : r.WellFormed) : r.Unedited E r' :=
  h.sameBut.unedited hr fun _ => or_self_iff.mp

theorem unedited_writeElement (hr : r.WellFormed) (id : ObjectId) (index : Nat) (value : Value) :
    r.Unedited E (r.writeElement id index value) where
  preserves := preserves_writeElement id index value
  datatype hd := ⟨_, by simpa using hd⟩
  entries _ := by simp [entriesOf]
  field hd _ k := by
    obtain ⟨f, hf⟩ := hr.template hd
    rw [templateField?_eq hd hf,
      templateField?_eq (by simpa using hd) (composite_writeElement.mpr hf)]

theorem unedited_putQualifiers (hr : r.WellFormed) (m : ModelId) (qs : List Qualifier) :
    r.Unedited E (r.putQualifiers m qs) where
  preserves := preserves_mapDatatype fun _ => rfl
  datatype hd := ⟨_, model?_mapDatatype_datatype.mpr ⟨_, hd, rfl⟩⟩
  entries {n} _ := by
    by_cases hd : ∃ d, r.model? n = some (.datatype d)
    · obtain ⟨d, hd⟩ := hd
      have hd' : (r.putQualifiers m qs).model? n = _ :=
        model?_mapDatatype_datatype.mpr ⟨d, hd, rfl⟩
      rw [entriesOf, entriesOf, hd, hd']
      simp only [Option.elim_some, Model.entries, Model.datatype?]
      split
      · rfl
      · rfl
    · rw [entriesOf_eq_nil fun d hd' => hd ⟨d, hd'⟩, entriesOf_eq_nil fun d' hd' => ?_]
      obtain ⟨d, hd₀, -⟩ := model?_mapDatatype_datatype.mp hd'
      exact hd ⟨d, hd₀⟩
  field hd _ := by
    have hsame : r.SameBut (fun _ => False) (fun _ => True) (r.putQualifiers m qs) :=
      sameBut_mapDatatype trivial fun _ => ⟨rfl, rfl, rfl⟩
    exact hsame.templateField? hr hd id

/-! ## What is inherited -/

/-- The model of the declared base of a datatype. -/
def baseModel? (r : Repository ts) (m : ModelId) : Option ModelId :=
  (Entry.base? (r.entriesOf m)).bind r.modelOf?

/-- The datatype has each field that its base has now: it declares a member of that role, or the
field is as a copy of the one of the base would be. -/
def Inherits (r : Repository ts) (m : ModelId) : Prop :=
  ∀ b, Entry.base? (r.entriesOf m) = some b → ∃ n d, r.modelOf? b = some n ∧
    r.model? n = some (.datatype d) ∧ n ≠ m ∧ ∀ k v, r.templateField? n k = some v →
      ∃ w, r.templateField? m k = some w ∧ (r.Declares m k ∨ r.Follows "" v w)

variable {m : ModelId}

/-- Of each field that the base has after an edit, either the role is declared, or both fields are
what they were. -/
theorem Inherits.edit (h : r.Inherits m) (hr' : r.Unedited E r')
    (hbase : Entry.base? (r'.entriesOf m) = Entry.base? (r.entriesOf m))
    (hfields : ∀ n d, r.baseModel? m = some n → r.model? n = some (.datatype d) → n ≠ m →
      ∀ k v, r'.templateField? n k = some v →
        (∃ w, r'.templateField? m k = some w) ∧ r'.Declares m k ∨
          r.templateField? n k = some v ∧ r'.templateField? m k = r.templateField? m k ∧
            (r.Declares m k → r'.Declares m k)) : r'.Inherits m := by
  intro b hb
  rw [hbase] at hb
  obtain ⟨n, d, hn, hd, hne, hinherited⟩ := h b hb
  obtain ⟨d', hd'⟩ := hr'.datatype hd
  refine ⟨n, d', hr'.preserves.modelOf? hn, hd', hne, fun k v hv => ?_⟩
  have hbm : r.baseModel? m = some n := by rw [baseModel?, hb, Option.bind_some, hn]
  rcases hfields n d hbm hd hne k v hv with ⟨⟨w, hw⟩, hdeclares⟩ | ⟨hv, hsame, hdeclares⟩
  · exact ⟨w, hw, Or.inl hdeclares⟩
  · obtain ⟨w, hw, hor⟩ := hinherited k v hv
    exact ⟨w, hsame.trans hw, hor.imp hdeclares fun hfollows => hfollows.preserves hr'.preserves⟩

/-- What other datatypes are edited to gives the base fields of declared roles only. -/
theorem Inherits.other (h : r.Inherits m) (hr' : r.Unedited E r') (hm : ¬ E m)
    (hgives : ∀ n d, r.baseModel? m = some n → r.model? n = some (.datatype d) → E n →
      ∀ k v, r'.templateField? n k = some v →
        (∃ w, r.templateField? m k = some w) ∧ r.Declares m k ∨ r.templateField? n k = some v) :
    r'.Inherits m := by
  have hentries := hr'.entries hm
  refine h.edit hr' (by rw [hentries]) fun n d hbm hd hne k v hv => ?_
  -- What has a base is a datatype.
  obtain ⟨e, he⟩ : ∃ e, r.model? m = some (.datatype e) := by
    by_contra hno
    have hnil : r.entriesOf m = [] := entriesOf_eq_nil fun e he => hno ⟨e, he⟩
    simp [baseModel?, hnil, Entry.base?] at hbm
  have hold : (∃ w, r.templateField? m k = some w) ∧ r.Declares m k ∨
      r.templateField? n k = some v := by
    by_cases hn : E n
    · exact hgives n d hbm hd hn k v hv
    · exact Or.inr ((hr'.field hd hn k).symm.trans hv)
  have hsame := hr'.field he hm k
  refine hold.imp ?_ fun hv => ⟨hv, hsame, (hr'.declares_iff hm k).mpr⟩
  rintro ⟨⟨w, hw⟩, hdeclares⟩
  exact ⟨⟨w, hsame.trans hw⟩, (hr'.declares_iff hm k).mpr hdeclares⟩

theorem Inherits.untouched (h : r.Inherits m) (hr' : r.Unedited (fun _ => False) r') :
    r'.Inherits m :=
  h.other hr' id fun _ _ _ _ hE => hE.elim

/-- A member that is defined is declared. -/
theorem Inherits.define (h : r.Inherits m) (hr' : r.Unedited (· = m) r') {member : Member}
    {v : Value} (hentries : r'.entriesOf m = Entry.define member (r.entriesOf m))
    (hfields : ∀ k, r'.templateField? m k =
      if member.role = k then some v else r.templateField? m k) : r'.Inherits m := by
  refine h.edit hr' (by rw [hentries, Entry.base?_define]) fun n d _ hd hne k w hw => ?_
  have hdeclares : k = member.role ∨ r.Declares m k → r'.Declares m k := by
    rw [Declares, Declares, hentries]
    exact Entry.any_declares_define_iff.mpr
  by_cases hk : member.role = k
  · exact Or.inl ⟨⟨v, by rw [hfields, if_pos hk]⟩, hdeclares (Or.inl hk.symm)⟩
  · refine Or.inr ⟨(hr'.field hd hne k).symm.trans hw, by rw [hfields, if_neg hk], fun hold => ?_⟩
    exact hdeclares (Or.inr hold)

/-- A member whose role the base does not have may be removed. -/
theorem Inherits.remove (h : r.Inherits m) (hr : r.WellFormed) (hr' : r.Unedited (· = m) r')
    {role : String} (hheaded : Entry.Headed (r.entriesOf m)) (hrole : role ∉ r.inherited m)
    (hentries : r'.entriesOf m = Entry.remove role (r.entriesOf m))
    (hfields : ∀ k, r'.templateField? m k =
      if role = k then none else r.templateField? m k) : r'.Inherits m := by
  refine h.edit hr' (by rw [hentries, Entry.base?_remove hheaded]) fun n d hbm hd hne k w hw => ?_
  have hw := (hr'.field hd hne k).symm.trans hw
  have hk : role ≠ k := by
    rintro rfl
    obtain ⟨b, hb, hn⟩ := Option.bind_eq_some_iff.mp hbm
    refine hrole ?_
    rw [inherited, hb]
    exact (hr.mem_rolesOf hn hd).mpr ⟨w, hw⟩
  refine Or.inr ⟨hw, by rw [hfields, if_neg hk], fun hold => ?_⟩
  rwa [Declares, hentries, Entry.any_declares_remove_of_ne hk]

/-- A base that has just been joined, or left. -/
theorem inherits_of_rebased (hr : r.WellFormed) {base : Option ObjectId}
    (hr' : Step.Rebased m base r r') (hheaded : Entry.Headed (r.entriesOf m))
    (hlive : ∀ b, base = some b → ∃ n, r.modelOf? b = some n)
    (hinherited : ∀ b, base = some b → Step.Inherited r r' m b) : r'.Inherits m := by
  have hunedited := hr'.edited.unedited hr
  intro b hb
  rw [hr'.entries, Entry.base?_rebase hheaded] at hb
  obtain ⟨n, hn⟩ := hlive b hb
  obtain ⟨hne, ⟨d, hd⟩, hcopied⟩ := hinherited b hb n hn
  obtain ⟨d', hd'⟩ := hunedited.datatype hd
  refine ⟨n, d', hunedited.preserves.modelOf? hn, hd', hne, fun k v hv => ?_⟩
  obtain ⟨w, hw, hfollows⟩ := hcopied k v ((hunedited.field hd hne k).symm.trans hv)
  exact ⟨w, hw, Or.inr hfollows⟩

end Repository

namespace Idl

open Step (ensures_bind ensures_query ensures_ask)
open Repository (Unedited)

variable {limits : Limits} {r r' : Repository (system limits)} {m : ModelId}

/-! ## Operations on structures -/

/-- An operation by which a structure is made, edited, instantiated or used. -/
def Operation.Edits : Operation → Prop
  | newStruct _ _ => True
  | defineMember _ _ => True
  | setBase _ _ => True
  | repository (.removeMember _ _) => True
  | repository (.newInstance _ _ _) => True
  | repository (.element _ _) => True
  | _ => False

/-- The structure that has been begun has what its base has, if it has got one yet. -/
structure Joined (r : Repository (system limits)) (name : String) (r' : Repository (system limits)) :
    Prop where
  consistent : r'.Consistent
  begun : Begun r name .struct r'
  headed : Entry.Headed (r'.entriesOf r.nextModel)
  inherits : r'.Inherits r.nextModel

/-- What such an operation can do; one that fails does nothing, unless it was to make a
structure. -/
inductive Effect (r : Repository (system limits)) :
    Operation → Repository (system limits) → Prop where
  | untouched {operation r'} (hr' : r.Unedited (fun _ => False) r') : Effect r operation r'
  | made {name entries r'} (hr' : Joined r name r') : Effect r (.newStruct name entries) r'
  | defined {template member m v r'} (hm : r.canonicalModel template = .ok m)
      (hok : ((defineMember template member).run r).answer = .ok ())
      (hr' : r.Unedited (· = m) r')
      (hentries : r'.entriesOf m = Entry.define member (r.entriesOf m))
      (hfields : ∀ k, r'.templateField? m k =
        if member.role = k then some v else r.templateField? m k) :
      Effect r (.defineMember template member) r'
  | removed {template role m r'} (hm : r.canonicalModel template = .ok m)
      (hr' : r.Unedited (· = m) r') (hdeclares : r.Declares m role)
      (hentries : r'.entriesOf m = Entry.remove role (r.entriesOf m))
      (hfields : ∀ k, r'.templateField? m k =
        if role = k then none else r.templateField? m k) :
      Effect r (.repository (.removeMember template role)) r'
  | rebased {template base m target r'} (hm : r.canonicalModel template = .ok m)
      (hok : ((setBase template base).run r).answer = .ok ())
      (htarget : base.mapM (structTarget (r.label template) · r) = .ok target)
      (hr' : Step.Rebased m target r r') (hinherits : r'.Inherits m) :
      Effect r (.setBase template base) r'

theorem untouched_self {operation : Operation} : Effect r operation r :=
  .untouched (.refl r)

section Effects

variable (h : r.Consistent)

include h

/-- A definition that is not refused is one of a member of a canonical template. -/
theorem defineMember_ensures_fields (template : ObjectId) (member : Member) :
    (defineMember template member).Ensures r
      (fun _ r' => ∃ m, r.canonicalModel template = .ok m ∧ r.Edited (· = m) (· = m) r' ∧
        r'.entriesOf m = Entry.define member (r.entriesOf m) ∧
        ∃ v, ∀ k, r'.templateField? m k =
          if member.role = k then some v else r.templateField? m k)
      fun _ r' => r' = r := by
  refine defineMember_ensures (fun _ => ?_) fun _ => ?_
  · rfl
  · refine Step.ensures_canonical (fun _ => rfl) fun m hm => ?_
    exact ((Step.defineMember_ensures h template member).and
      (Step.defineMember_fields h.wellFormed hm member)).imp (fun _ _ h' => ⟨m, hm, h'.2⟩)
        fun _ _ h' => h'.1.1

theorem defineMember_effect (template : ObjectId) (member : Member) :
    Effect r (.defineMember template member) ((defineMember template member).run r).repo := by
  refine (((defineMember_ensures_fields h template member).and (Step.ensures_answer _ _)).imp
    ?_ ?_).repo
  · rintro _ r' ⟨⟨m, hm, hedited, hentries, v, hfields⟩, hok⟩
    exact .defined hm hok (hedited.unedited h.wellFormed) hentries hfields
  · rintro _ r' ⟨rfl, -⟩
    exact untouched_self

theorem removeMember_effect (template : ObjectId) (role : String) :
    Effect r (.repository (.removeMember template role))
      ((Step.removeMember template role).run r).repo := by
  refine Step.Ensures.repo ?_
  refine Step.ensures_canonical (fun _ => untouched_self) fun m hm => ?_
  refine ((Step.allOrNothing_removeMember h template role).and
    (Step.removeMember_fields h.wellFormed hm role)).imp ?_ ?_
  · rintro _ r' ⟨-, rfl | ⟨hdeclares, hedited, hentries, hfields⟩⟩
    · exact untouched_self
    · exact .removed hm (hedited.unedited h.wellFormed) hdeclares hentries hfields
  · rintro _ r' ⟨rfl, -⟩
    exact untouched_self

/-- A change of the base that is not refused installs a copy of each field of the new one. -/
theorem setBase_rebased {template : ObjectId} (hm : r.canonicalModel template = .ok m)
    {target : Option ObjectId} (hkind : ∀ b, target = some b → r.kind? b = some Kind.struct) :
    (Step.setBase template target).Ensures r
      (fun _ r' => r'.Consistent ∧ Step.Rebased m target r r' ∧
        ∀ b, target = some b → Step.Inherited r r' m b)
      fun _ r' => r' = r := by
  have halias : ∀ b n, target = some b → r.modelOf? b = some n → r.isAlias n = false :=
    fun b n hb hn => isAlias_of_struct (hkind b hb) hn
  refine ((Step.setBase_ensures h halias).and (Step.setBase_fields h.wellFormed hm halias)).imp ?_
    fun _ _ h' => h'.1.1
  rintro _ r' ⟨⟨hconsistent, n, hn, hinherited⟩, hrebased⟩
  obtain rfl : m = n := Except.ok.inj (hm.symm.trans hn)
  exact ⟨hconsistent, hrebased, hinherited⟩

theorem setBase_joins (hheaded : Entry.Headed (r.entriesOf m)) {template : ObjectId}
    (hm : r.canonicalModel template = .ok m) {target : Option ObjectId}
    (hkind : ∀ b, target = some b → r.kind? b = some Kind.struct) :
    (Step.setBase template target).Ensures r
      (fun _ r' => r'.Consistent ∧ Step.Rebased m target r r' ∧ r'.Inherits m)
      fun _ r' => r' = r := by
  refine (setBase_rebased h hm hkind).imp ?_ fun _ _ h' => h'
  rintro _ r' ⟨hconsistent, hrebased, hinherited⟩
  refine ⟨hconsistent, hrebased, Repository.inherits_of_rebased h.wellFormed hrebased hheaded
    (fun b hb => ?_) hinherited⟩
  obtain ⟨n, hn, -⟩ := Option.bind_eq_some_iff.mp (hkind b hb)
  exact ⟨n, hn⟩

omit h in
/-- What is left to show for a change of the base: what it does to a canonical template, where it
is not refused. -/
theorem setBase_ensures_canonical {P : ModelId → Option ObjectId → Repository (system limits) → Prop}
    {template : ObjectId} {base : Option ObjectId}
    (hstep : ∀ m target, r.canonicalModel template = .ok m → r.kindOf? m = some Kind.struct →
      (∀ b, target = some b → r.kind? b = some Kind.struct) →
      (Step.setBase template target).Ensures r (fun _ => P m target) fun _ r' => r' = r) :
    (setBase template base).Ensures r
      (fun _ r' => ∃ target, base.mapM (structTarget (r.label template) · r) = .ok target ∧
        ∃ m, r.canonicalModel template = .ok m ∧ P m target r')
      fun _ r' => r' = r := by
  refine setBase_ensures (fun _ => ?_) fun target hstruct hkind => ?_
  · rfl
  · refine Step.ensures_canonical (fun _ => rfl) fun m hm => ?_
    have hm' := (Repository.kindOf?_of_canonicalModel hm).trans hstruct
    exact (hstep m target hm hm' hkind).imp (fun _ _ h' => ⟨m, hm, h'⟩) fun _ _ h' => h'

/-- A change of the base that is not refused joins a structure, or nothing. -/
theorem setBase_ensures_joins (hheaded : ∀ m, Entry.Headed (r.entriesOf m)) (template : ObjectId)
    (base : Option ObjectId) :
    (setBase template base).Ensures r
      (fun _ r' => ∃ target, base.mapM (structTarget (r.label template) · r) = .ok target ∧
        ∃ m, r.canonicalModel template = .ok m ∧ Step.Rebased m target r r' ∧ r'.Inherits m)
      fun _ r' => r' = r :=
  setBase_ensures_canonical fun m _ hm _ hkind =>
    (setBase_joins h (hheaded m) hm hkind).imp (fun _ _ h' => h'.2) fun _ _ h' => h'

theorem setBase_effect (hheaded : ∀ m, Entry.Headed (r.entriesOf m)) (template : ObjectId)
    (base : Option ObjectId) :
    Effect r (.setBase template base) ((setBase template base).run r).repo := by
  refine (((setBase_ensures_joins h hheaded template base).and (Step.ensures_answer _ _)).imp
    ?_ ?_).repo
  · rintro _ r' ⟨⟨target, htarget, m, hm, hrebased, hinherits⟩, hok⟩
    exact .rebased hm hok htarget hrebased hinherits
  · rintro _ r' ⟨rfl, -⟩
    exact untouched_self

/-- A new structure has what its base has, and that after each member that it gets. -/
theorem newStruct_joins (name : String) (entries : List Entry) :
    (newStruct name entries).Ensures r (fun _ => Joined r name)
      fun _ r' => r' = r ∨ Joined r name r' := by
  have hempty : (r.addTemplate name Kind.struct).entriesOf r.nextModel = [] := by
    rw [Repository.entriesOf_addTemplate, if_pos rfl]
  have hstart : Joined r name (r.addTemplate name Kind.struct) := by
    refine ⟨Repository.consistent_declarative.addTemplate name Kind.struct h,
      .start h.wellFormed name Kind.struct, by simp [hempty, Entry.Headed], fun b hb => ?_⟩
    simp [hempty, Entry.base?] at hb
  refine newStruct_ensures (fun _ h' => h'.begun) hstart (fun _ _ => Or.inl rfl) (fun b hb => ?_)
    (fun member _ _ r' h' => ?_) fun r' qs h' => ?_
  · -- The base of a new structure.
    have hkind : ∀ b', some b = some b' →
        (r.addTemplate name Kind.struct).kind? b' = some Kind.struct := by
      intro b' heq
      obtain rfl := Option.some.inj heq
      exact Repository.kind?_addTemplate hb
    refine (setBase_joins hstart.consistent hstart.headed hstart.begun.canonicalModel hkind).imp
      ?_ ?_
    · rintro _ r' ⟨hconsistent, hrebased, hinherits⟩
      refine ⟨hconsistent, hstart.begun.trans hrebased.edited, ?_, hinherits⟩
      rw [hrebased.entries]
      exact hstart.headed.rebase
    · rintro _ r' rfl
      exact Or.inr hstart
  · -- A member of a new structure.
    have hr' := h'.consistent.wellFormed
    refine ((Step.defineMember_ensures h'.consistent r.nextObject member).and
      (Step.defineMember_fields hr' h'.begun.canonicalModel member)).imp ?_ ?_
    · rintro _ r'' ⟨hconsistent, hedited, hentries, v, hfields⟩
      refine ⟨hconsistent, h'.begun.trans hedited, ?_,
        h'.inherits.define (hedited.unedited hr') hentries hfields⟩
      rw [hentries]
      exact h'.headed.define
    · rintro _ r'' ⟨⟨rfl, -⟩, -⟩
      exact Or.inr h'
  · have hunedited := Repository.unedited_putQualifiers (E := fun _ => False)
      h'.consistent.wellFormed r.nextModel qs
    refine ⟨Repository.consistent_declarative.putQualifiers _ qs h'.consistent,
      h'.begun.putQualifiers qs, ?_, h'.inherits.untouched hunedited⟩
    rw [hunedited.entries id]
    exact h'.headed

theorem newStruct_effect (name : String) (entries : List Entry) :
    Effect r (.newStruct name entries) ((newStruct name entries).run r).repo := by
  refine ((newStruct_joins h name entries).imp (fun _ _ h' => .made h') ?_).repo
  rintro _ r' (rfl | h')
  · exact untouched_self
  · exact .made h'

omit h in
/-- Additions touch no template. -/
theorem growing_unedited (r : Repository (system limits)) :
    Repository.Growing (fun r' => r'.WellFormed ∧ r.Unedited (fun _ => False) r') where
  wellFormed h := h.1
  grew h hr' := by
    have hsame := hr'.2.sameBut (F := fun _ => False) (D := fun _ => False)
    exact ⟨hr'.1, h.2.trans (hsame.unedited h.1 fun _ => or_self_iff.mp)⟩

end Effects

/-- Only the first entry of a declaration refers to a datatype. -/
structure Structured (r : Repository (system limits)) : Prop where
  consistent : r.Consistent
  fielded : r.Fielded
  headed : ∀ m, Entry.Headed (r.entriesOf m)

theorem Operation.effect (h : Structured r) {operation : Operation} (hop : operation.Edits) :
    Effect r operation (operation.perform r) := by
  cases operation with
  | newStruct name entries => exact newStruct_effect h.consistent name entries
  | defineMember template member => exact defineMember_effect h.consistent template member
  | setBase template base => exact setBase_effect h.consistent h.headed template base
  | repository inner =>
    have hself : r.WellFormed ∧ r.Unedited (fun _ => False) r :=
      ⟨h.consistent.wellFormed, .refl r⟩
    cases inner with
    | removeMember template role => exact removeMember_effect h.consistent template role
    | newInstance template under owned =>
      exact .untouched ((Step.keeps_newInstance (growing_unedited r) template under owned).repo
        hself).2
    | element id index =>
      refine .untouched ((Step.keeps_element (growing_unedited r) (fun id index v h' hgrew _ => ?_)
        id index).repo hself).2
      have hgrown := (growing_unedited r).grew h' hgrew
      exact ⟨hgrown.1.writeElement id index v,
        hgrown.2.trans (Repository.unedited_writeElement hgrown.1 id index v)⟩
    | _ => exact hop.elim
  | _ => exact hop.elim

theorem Operation.Edits.keepsInstances {operation : Operation} (hop : operation.Edits) :
    operation.KeepsInstances r := by
  cases operation with
  | repository inner =>
    cases inner with
    | removeMember | newInstance | element => exact trivial
    | _ => exact hop.elim
  | newStruct | defineMember | setBase => exact trivial
  | _ => exact hop.elim

theorem Operation.Edits.keepsMembers {operation : Operation} (hop : operation.Edits) :
    operation.KeepsMembers r := by
  cases operation with
  | repository inner =>
    cases inner with
    | updateInstances => exact hop.elim
    | _ => exact trivial
  | _ => exact trivial

theorem Operation.perform_structured (h : Structured r) {operation : Operation}
    (hop : operation.Edits) : Structured (operation.perform r) := by
  refine ⟨Operation.perform_consistent h.consistent hop.keepsInstances,
    Operation.perform_fielded h.fielded hop.keepsMembers, fun n => ?_⟩
  -- Only the declaration that is edited changes.
  have hedited : ∀ {k r'}, r.Unedited (· = k) r' → Entry.Headed (r'.entriesOf k) →
      Entry.Headed (r'.entriesOf n) := by
    intro k r' hr' hk
    by_cases hn : n = k
    · exact hn ▸ hk
    · exact (hr'.entries hn).symm ▸ h.headed n
  have heffect := Operation.effect h hop
  generalize operation.perform r = r' at heffect ⊢
  cases heffect with
  | untouched hr' => exact (hr'.entries id).symm ▸ h.headed n
  | made hr' =>
    exact hedited (hr'.begun.sameBut.unedited h.consistent.wellFormed fun _ => or_self_iff.mp)
      hr'.headed
  | defined hm _ hr' hentries _ => exact hedited hr' (hentries ▸ (h.headed _).define)
  | removed hm hr' _ hentries _ => exact hedited hr' (hentries ▸ (h.headed _).remove)
  | rebased hm _ _ hr' _ =>
    exact hedited (hr'.edited.unedited h.consistent.wellFormed) (hr'.entries ▸ (h.headed _).rebase)

/-! ## What keeps the fields of a base -/

/-- The operation gives the template of a datatype a field of that role. -/
def Operation.Gives (r : Repository (system limits)) : Operation → ModelId → String → Prop
  | defineMember template member, n, role => r.canonicalModel template = .ok n ∧
    ((Idl.defineMember template member).run r).answer = .ok () ∧ role = member.role
  | setBase template base, n, role => r.canonicalModel template = .ok n ∧
    ((Idl.setBase template base).run r).answer = .ok () ∧
      ∃ target, base.mapM (structTarget (r.label template) · r) = .ok target ∧
        role ∈ target.elim [] r.rolesOf
  | _, _, _ => False

/-- The operation removes a member of that role. -/
def Operation.Takes (r : Repository (system limits)) : Operation → ModelId → String → Prop
  | repository (.removeMember template role'), n, role =>
    r.canonicalModel template = .ok n ∧ role = role' ∧ r.Declares n role
  | _, _, _ => False

/-- The rule under which a structure keeps what it has from its base: the base gets fields only of
roles that the structure declares, and no member goes whose role the base has. -/
structure Operation.KeepsInherited (m : ModelId) (r : Repository (system limits))
    (operation : Operation) : Prop where
  edits : operation.Edits
  gives : ∀ n role, r.baseModel? m = some n → operation.Gives r n role → r.Declares m role
  takes : ∀ role, operation.Takes r m role → role ∉ r.inherited m

theorem Operation.perform_inherits (h : Structured r) (hm : r.Inherits m) {operation : Operation}
    (hrule : operation.KeepsInherited m r) : (operation.perform r).Inherits m := by
  have hr := h.consistent.wellFormed
  have heffect := Operation.effect h hrule.edits
  generalize operation.perform r = r' at heffect ⊢
  cases heffect with
  | untouched hr' => exact hm.untouched hr'
  | made hr' =>
    by_cases hk : m = r.nextModel
    · exact hk ▸ hr'.inherits
    · refine hm.other (hr'.begun.sameBut.unedited hr fun _ => or_self_iff.mp) hk ?_
      rintro n d - hd rfl
      exact (Repository.ne_nextModel hd rfl).elim
  | @defined _ member k _ _ hcanonical hok hr' hentries hfields =>
    by_cases hk : m = k
    · subst hk
      exact hm.define hr' hentries hfields
    · refine hm.other hr' hk ?_
      rintro n d hbase - rfl role v hv
      rw [hfields] at hv
      split at hv
      · next hrole =>
        have hdeclares := hrule.gives n role hbase ⟨hcanonical, hok, hrole.symm⟩
        exact Or.inl ⟨h.fielded.field hdeclares, hdeclares⟩
      · exact Or.inr hv
  | @removed _ removed k _ hcanonical hr' hdeclares hentries hfields =>
    by_cases hk : m = k
    · subst hk
      exact hm.remove hr hr' (h.headed m) (hrule.takes removed ⟨hcanonical, rfl, hdeclares⟩)
        hentries hfields
    · refine hm.other hr' hk ?_
      rintro n d - - rfl role v hv
      rw [hfields] at hv
      split at hv
      · simp at hv
      · exact Or.inr hv
  | @rebased _ _ k target _ hcanonical hok htarget hr' hinherits =>
    by_cases hk : m = k
    · exact hk ▸ hinherits
    · refine hm.other (hr'.edited.unedited hr) hk ?_
      rintro n d hbase - rfl role v hv
      by_cases hrole : role ∈ target.elim [] r.rolesOf
      · have hdeclares := hrule.gives n role hbase ⟨hcanonical, hok, target, htarget, hrole⟩
        exact Or.inl ⟨h.fielded.field hdeclares, hdeclares⟩
      · exact Or.inr (hr'.before hrole hv).1

/-! ## Runs -/

theorem structured_initial : Structured (initial limits) where
  consistent := initial_of_empty Repository.consistent_declarative Repository.consistent_empty
  fielded := initial_of_empty Repository.fielded_declarative Repository.fielded_empty
  headed m := by simp [entriesOf_initial, Entry.Headed]

/-- The datatype has just been made, or has just got another base. -/
def Operation.Joins (r : Repository (system limits)) (m : ModelId) : Operation → Prop
  | newStruct _ _ => m = r.nextModel
  | setBase template base =>
    r.canonicalModel template = .ok m ∧ ((Idl.setBase template base).run r).answer = .ok ()
  | _ => False

theorem Operation.perform_joins (h : Structured r) {operation : Operation}
    (hjoins : operation.Joins r m) : (operation.perform r).Inherits m := by
  cases operation with
  | newStruct name entries =>
    obtain rfl := hjoins
    refine ((newStruct_joins h.consistent name entries).imp (fun _ _ h' => h'.inherits) ?_).repo
    rintro _ r' (rfl | h')
    · -- A structure that was refused declares nothing.
      intro b hb
      have hnil : r'.entriesOf r'.nextModel = [] := Repository.entriesOf_eq_nil fun d hd =>
        Repository.ne_nextModel hd rfl
      simp [hnil, Entry.base?] at hb
    · exact h'.inherits
  | setBase template base =>
    obtain ⟨hm, hok⟩ := hjoins
    obtain ⟨-, -, n, hn, -, hinherits⟩ :=
      (setBase_ensures_joins h.consistent h.headed template base).ok_of_answer hok
    obtain rfl : m = n := Except.ok.inj (hm.symm.trans hn)
    exact hinherits
  | _ => exact hjoins.elim

/-- Since a structure has been made or has got its base, let the base have been given fields only of
roles that the structure declares, and let the structure have lost no member whose role the base
has. Then each role of the base is one of the structure and of all its instances, and unless the
structure declares it, the fields of both templates look alike. -/
theorem inherited_of_reached {r₀ : Repository (system limits)} {join : Operation}
    (h₀ : Reached Operation.perform (fun _ operation => operation.Edits) (initial limits) r₀)
    (hjoins : join.Joins r₀ m)
    (h : Reached Operation.perform (Operation.KeepsInherited m) (join.perform r₀) r)
    {derived base : ObjectId} (hm : r.modelOf? derived = some m)
    (hbase : baseOf derived r = some base) :
    ∃ n, r.modelOf? base = some n ∧ ∀ role v, r.templateField? n role = some v →
      (∃ w, r.templateField? m role = some w ∧
        (r.Declares m role ∨ r.snapshot w = r.snapshot v)) ∧
      ∀ id f, r.object? id = some (.composite m f) → role ∈ f.keys := by
  have hstart : Structured r₀ := h₀.invariant structured_initial fun _ _ hr hop =>
    Operation.perform_structured hr hop
  have hjoin : join.Edits := by
    cases join with
    | newStruct | setBase => exact trivial
    | _ => exact hjoins.elim
  obtain ⟨hr, hinherits⟩ := h.invariant (P := fun r => Structured r ∧ r.Inherits m)
    ⟨Operation.perform_structured hstart hjoin, Operation.perform_joins hstart hjoins⟩
    fun _ _ hr hrule => ⟨Operation.perform_structured hr.1 hrule.edits,
      Operation.perform_inherits hr.1 hr.2 hrule⟩
  have hdeclared : Entry.base? (r.entriesOf m) = some base := by
    unfold baseOf at hbase
    split at hbase
    · simpa [hm] using hbase
    · simp at hbase
  obtain ⟨n, d, hn, hd, -, hfields⟩ := hinherits base hdeclared
  refine ⟨n, hn, fun role v hv => ?_⟩
  obtain ⟨w, hw, hor⟩ := hfields role v hv
  refine ⟨⟨w, hw, hor.imp_right fun hfollows => ?_⟩, fun id f ho => ?_⟩
  · have hself := Repository.follows_self hr.consistent.wellFormed hfollows.denotes.1
    exact hr.consistent.snapshot_eq hfollows hself
  · -- Every instance has the roles of the template.
    obtain ⟨e, he⟩ := hr.consistent.wellFormed.composite ho
    obtain ⟨fT, hT⟩ := hr.consistent.wellFormed.template he
    rw [(hr.consistent.follows_template ho he hT).keys_eq, Table.mem_keys_iff]
    exact ⟨w, (Repository.templateField?_eq he hT role).symm.trans hw⟩

/-- A structure does not get a field that its base has got after it was joined. -/
theorem unseen_field :
    let r := Operation.run (initial ⟨4, 4⟩)
      [.newStruct "B" [], .newStruct "D" [.type ⟨21⟩],
        .defineMember ⟨21⟩ ⟨"x", Atom.long.template, [], []⟩]
    Reached Operation.perform (fun _ operation => operation.Edits) (initial ⟨4, 4⟩) r ∧
      baseOf ⟨22⟩ r = some ⟨21⟩ ∧ r.fields? ⟨21⟩ = some ⟨[("x", .accessor "x")]⟩ ∧
      r.fields? ⟨22⟩ = some ⟨[]⟩ := by
  intro r
  refine ⟨?_, by decide +kernel, by decide +kernel, by decide +kernel⟩
  simp only [r, Operation.run, List.foldl_cons, List.foldl_nil]
  exact .next (.next (.next .start trivial) trivial) trivial

/-- The base loses a member, and gets one that the structure declares itself. -/
theorem inherited_after_edits :
    let r₀ := Operation.run (initial ⟨4, 4⟩)
      [.newStruct "B" [.member ⟨"x", Atom.long.template, [], []⟩,
        .member ⟨"w", Atom.long.template, [], []⟩]]
    let join := Operation.newStruct "D" [.type ⟨21⟩, .member ⟨"y", Atom.short.template, [], []⟩]
    let r₁ := join.perform r₀
    let r₂ := Operation.perform r₁ (.repository (.removeMember ⟨21⟩ "w"))
    let r := Operation.perform r₂ (.defineMember ⟨21⟩ ⟨"y", Atom.long.template, [], []⟩)
    r.fields? ⟨21⟩ = some ⟨[("x", .accessor "x"), ("y", .accessor "y")]⟩ ∧
      ∃ n, r.modelOf? ⟨21⟩ = some n ∧ ∀ role v, r.templateField? n role = some v →
        (∃ w, r.templateField? ⟨22⟩ role = some w ∧
          (r.Declares ⟨22⟩ role ∨ r.snapshot w = r.snapshot v)) ∧
        ∀ id f, r.object? id = some (.composite ⟨22⟩ f) → role ∈ f.keys := by
  intro r₀ join r₁ r₂ r
  have hfields : r.fields? ⟨21⟩ = some ⟨[("x", .accessor "x"), ("y", .accessor "y")]⟩ := by
    decide +kernel
  have hnew : (⟨22⟩ : ModelId) = ⟨r₀.models.size⟩ := by decide +kernel
  have hcanonical : r₁.canonicalModel ⟨21⟩ = .ok ⟨21⟩ := by decide +kernel
  have hdeclares : (r₂.entriesOf ⟨22⟩).any (Entry.declares "y") = true := by decide +kernel
  have hbase : baseOf ⟨22⟩ r = some ⟨21⟩ := by decide +kernel
  have hmodel : r.modelOf? ⟨22⟩ = some ⟨22⟩ := by decide +kernel
  have h₀ : Reached Operation.perform (fun _ operation => operation.Edits) (initial ⟨4, 4⟩) r₀ := by
    simp only [r₀, Operation.run, List.foldl_cons, List.foldl_nil]
    exact .next .start trivial
  clear_value r₀
  have hremove : Operation.KeepsInherited ⟨22⟩ r₁ (.repository (.removeMember ⟨21⟩ "w")) := by
    refine ⟨trivial, fun _ _ _ hgives => hgives.elim, ?_⟩
    -- It is the base that loses the member.
    rintro role ⟨hm, -⟩
    simp [hcanonical] at hm
  have hdefine : Operation.KeepsInherited ⟨22⟩ r₂
      (.defineMember ⟨21⟩ ⟨"y", Atom.long.template, [], []⟩) := by
    refine ⟨trivial, ?_, fun _ htakes => htakes.elim⟩
    rintro n role - ⟨-, -, rfl⟩
    exact hdeclares
  have hjoins : join.Joins r₀ ⟨22⟩ := hnew
  have h : Reached Operation.perform (Operation.KeepsInherited ⟨22⟩) (join.perform r₀) r :=
    .next (.next .start hremove) hdefine
  exact ⟨hfields, inherited_of_reached h₀ hjoins h hmodel hbase⟩

end Idl

end Metamodel
