import Metamodel.Proofs.Patching
import Metamodel.Proofs.Rejection
import Metamodel.Proofs.Unreleased

/-!
# Metamodel.Proofs.Mirroring -- a template mirrors the list of its members

Declarations are edited in one place and templates in another: members are replaced, appended and
removed in a list of entries, fields are written and removed in a table. As long as nothing is
inherited the two stay in step, so that how a datatype came to its members leaves no mark. Main
statement: the template of a union, or of a structure without a base, has its fields in the order of
the members, and looks like the template of a datatype that is declared with these members at once.
-/

namespace Metamodel

namespace Entry

variable {member : Member} {entries : List Entry}

/-- A member with a new role is appended. -/
theorem define_eq_append (h : entries.any (declares member.role) = false) :
    define member entries = entries ++ [.member member] := by
  induction entries with
  | nil => rfl
  | cons e rest ih =>
    simp only [List.any_cons, Bool.or_eq_false_iff] at h
    rw [define, h.1, if_neg Bool.false_ne_true, ih h.2, List.cons_append]

end Entry

namespace Repository

variable {κ : Type} {ts : TypeSystem κ} {r : Repository ts}

/-- The fields of a template have different roles. -/
theorem WellFormed.nodup_templateFields (h : r.WellFormed) {m : ModelId} {f : Table String Value}
    (hf : r.templateFields? m = some f) : f.keys.Nodup := by
  obtain ⟨template, -, hfields⟩ := Option.bind_eq_some_iff.mp hf
  obtain ⟨k, ho⟩ := fields?_eq_some_iff.mp hfields
  exact h.roles_nodup ho

end Repository

namespace Idl

variable {limits : Limits} {r r' : Repository (system limits)} {kept : Prop} {m : ModelId}
  {kind : Kind} {name : String} {template : ObjectId}

/-! ## Members and their fields -/

/-- The value is what is made for the member, if the forms of members are kept. -/
def Suits (kept : Prop) (r : Repository (system limits)) (member : Member) (v : Value) : Prop :=
  kept → ∃ form, r.memberForm member.datatype member.role member.qualifiers = .ok form ∧
    r.HasForm form v

/-- The fields that a datatype has without declaring them. -/
def undeclared (kind : Kind) : List (String × Value) :=
  if kind = .union then [(discriminatorRole, .accessor discriminatorMarker)] else []

/-- The template of a structure or a union has a field for each member, in the order of the
declaration. -/
structure Mirrors (kept : Prop) (r : Repository (system limits)) (m : ModelId) : Prop where
  wellFormed : r.WellFormed
  fields : ∀ {kind}, r.kindOf? m = some kind → kind = .struct ∨ kind = .union →
    ∃ fields, r.templateFields? m = some ⟨undeclared kind ++ fields.entries⟩ ∧
      (Entry.members (r.entriesOf m)).Fieldwise (Suits kept r) fields

/-- Other kinds of datatypes need not mirror anything. -/
theorem mirrors_of_kind (hr : r.WellFormed) (hkind : r.kindOf? m = some kind)
    (hstruct : kind ≠ .struct) (hunion : kind ≠ .union) : Mirrors kept r m where
  wellFormed := hr
  fields hk hsort := by
    obtain rfl := Option.some.inj (hkind.symm.trans hk)
    exact (hsort.elim hstruct hunion).elim

namespace Mirrors

/-- The roles of members are different, and none is that of an undeclared field. -/
theorem nodup (h : Mirrors kept r m) (hkind : r.kindOf? m = some kind)
    (hsort : kind = .struct ∨ kind = .union) :
    (Entry.members (r.entriesOf m)).keys.Nodup ∧
      ∀ role ∈ (Entry.members (r.entriesOf m)).keys, role ∉ (undeclared kind).map (·.1) := by
  obtain ⟨fields, hfields, hmembers⟩ := h.fields hkind hsort
  have hnodup := h.wellFormed.nodup_templateFields hfields
  simp only [Table.keys, List.map_append, List.nodup_append] at hnodup
  rw [← hmembers.keys_eq]
  exact ⟨hnodup.2.1, fun role hrole hmem => hnodup.2.2 role hmem role hrole rfl⟩

/-- What leaves the members and the template of a datatype alone. -/
theorem keep (h : Mirrors kept r m) (hr' : r'.WellFormed) (hup : kept → Upholds r r')
    (hsame : ∀ {d'}, r'.model? m = some (.datatype d') → ∃ d, r.model? m = some (.datatype d) ∧
      d.kind = d'.kind ∧ Entry.members d'.entries = Entry.members d.entries ∧
        r'.templateFields? m = r.templateFields? m) : Mirrors kept r' m where
  wellFormed := hr'
  fields hk hsort := by
    obtain ⟨d', hd', rfl⟩ := Repository.kindOf?_eq_some_iff.mp hk
    obtain ⟨d, hd, hkind, hmembers, hfields⟩ := hsame hd'
    obtain ⟨fields, hf, hsuits⟩ :=
      h.fields (Repository.kindOf?_eq_some_iff.mpr ⟨d, hd, hkind⟩) hsort
    rw [Repository.entriesOf_datatype hd] at hsuits
    refine ⟨fields, hfields.trans hf, ?_⟩
    rw [Repository.entriesOf_datatype hd', hmembers]
    refine hsuits.imp fun member v _ _ hv hkept => ?_
    obtain ⟨form, hform, hv⟩ := hv hkept
    exact ⟨form, (hup hkept).memberForm h.wellFormed hform, hv.preserves (hup hkept).preserves⟩

/-- Edits of other datatypes. -/
theorem sameBut {F D : ModelId → Prop} (h : Mirrors kept r m) (hr' : r'.WellFormed)
    (hup : kept → Upholds r r') (hsame : r.SameBut F D r') (hF : ¬ F m) (hD : ¬ D m) :
    Mirrors kept r' m := by
  refine h.keep hr' hup fun {d'} hd' => ?_
  -- No datatype is new but those that are declared.
  have hlt := (hsame.datatype_old hd').resolve_right hD
  obtain ⟨model, hmodel⟩ : ∃ model, r.model? m = some model := by simp [Repository.model?, hlt]
  cases model with
  | shape s => simp [hsame.shape hmodel] at hd'
  | datatype d =>
    obtain ⟨e, he, -, -, hsaid⟩ := hsame.datatype hmodel
    obtain rfl := Repository.datatype_unique hd' he
    obtain ⟨g, rfl⟩ := hsaid hD
    exact ⟨d, hmodel, rfl, rfl, hsame.templateFields? h.wellFormed hmodel hF⟩

theorem grew (h : Mirrors kept r m) (hr' : Step.Grew r r') : Mirrors kept r' m :=
  h.sameBut (F := fun _ => False) (D := fun _ => False) hr'.1 (fun _ => upholds_of_grew hr')
    hr'.2.sameBut id id

/-- A change of what a datatype says besides its members. -/
theorem mapDatatype (h : Mirrors kept r m) {n : ModelId} {f : Datatype Kind → Datatype Kind}
    (hr' : (r.mapDatatype n f).WellFormed)
    (hf : ∀ d, (f d).kind = d.kind ∧ (f d).template = d.template ∧ (f d).registry = d.registry)
    (hentries : ∀ d, r.model? n = some (.datatype d) →
      Entry.members (f d).entries = Entry.members d.entries ∧
      ((system limits).isAlias d.kind = true →
        Entry.aliased? (f d).entries = Entry.aliased? d.entries) ∧
      (f d).entries.findSome? Entry.scalar? = d.entries.findSome? Entry.scalar?) :
    Mirrors kept (r.mapDatatype n f) m := by
  refine h.keep hr' (fun _ => upholds_mapDatatype hr' hf fun d hd => (hentries d hd).2)
    fun {d'} hd' => ?_
  obtain ⟨d, hd, heq⟩ := Repository.model?_mapDatatype_datatype.mp hd'
  obtain ⟨fT, hT⟩ := h.wellFormed.template hd
  have hsame : d'.kind = d.kind ∧ d'.template = d.template ∧
      Entry.members d'.entries = Entry.members d.entries := by
    rw [heq]
    split
    · next hm => exact ⟨(hf d).1, (hf d).2.1, (hentries d (hm ▸ hd)).1⟩
    · exact ⟨rfl, rfl, rfl⟩
  refine ⟨d, hd, hsame.1.symm, hsame.2.2, ?_⟩
  rw [Repository.templateFields?_eq hd hT]
  exact Repository.templateFields?_eq hd' (hsame.2.1 ▸ hT)

/-- A datatype that says that it has no base says nothing of its members. -/
theorem rebase_none (h : Mirrors kept r m) (hkind : r.kindOf? m = some .struct) :
    Mirrors kept (r.mapEntries m (Entry.rebase none)) m := by
  obtain ⟨d, hd, hdkind⟩ := Repository.kindOf?_eq_some_iff.mp hkind
  refine h.mapDatatype (h.wellFormed.mapEntries m _) (fun _ => ⟨rfl, rfl, rfl⟩)
    fun e he => ⟨?_, fun ha => ?_, ?_⟩
  · show Entry.members (Entry.rebase none e.entries) = _
    exact Entry.members_rebase
  · obtain rfl := Repository.datatype_unique hd he
    simp [hdkind, system] at ha
  · show (Entry.rebase none e.entries).findSome? Entry.scalar? = _
    exact Entry.findSome?_scalar?_rebase

theorem putQualifiers (h : Mirrors kept r m) (n : ModelId) (qs : List Qualifier) :
    Mirrors kept (r.putQualifiers n qs) m :=
  h.mapDatatype (h.wellFormed.putQualifiers n qs) (fun _ => ⟨rfl, rfl, rfl⟩)
    fun _ _ => ⟨rfl, fun _ => rfl, rfl⟩

theorem writeElement (h : Mirrors kept r m) (id : ObjectId) (index : Nat) (value : Value) :
    Mirrors kept (r.writeElement id index value) m := by
  have hup := upholds_writeElement h.wellFormed id index value
  refine h.keep hup.wellFormed (fun _ => hup) fun {d} hd => ⟨d, by simpa using hd, rfl, rfl, ?_⟩
  have hd₀ : r.model? m = some (.datatype d) := by simpa using hd
  obtain ⟨f, hf⟩ := h.wellFormed.template hd₀
  rw [Repository.templateFields?_eq hd₀ hf,
    Repository.templateFields?_eq hd (Repository.composite_writeElement.mpr hf)]

/-- No template is released, but the datatype of a member may be. -/
theorem free (h : Mirrors kept r m) (hkept : ¬ kept) {id : ObjectId} (hid : r.NoTemplate id) :
    Mirrors kept (r.free id) m := by
  refine h.keep (h.wellFormed.free hid) (fun hk => (hkept hk).elim) fun {d'} hd' => ?_
  obtain ⟨d, g, hd, rfl⟩ := Repository.datatype_of_free hd'
  obtain ⟨f, hf⟩ := h.wellFormed.template hd
  refine ⟨d, hd, rfl, rfl, ?_⟩
  rw [Repository.templateFields?_eq hd hf]
  refine Repository.templateFields?_eq hd' ?_
  rw [Repository.object?_free, if_neg (hid m d hd), hf]

/-- What is left to show after an edit of a member: that the fields follow. -/
theorem patched {patch : Patch} {d : Datatype Kind} (h : Mirrors kept r m)
    (hd : r.model? m = some (.datatype d)) (hr' : Patched m patch r r')
    (hturns : ∀ {kind fields f'}, r.kindOf? m = some kind → kind = .struct ∨ kind = .union →
      (Entry.members (r.entriesOf m)).Fieldwise (Suits kept r') fields →
      patch.Turns r' ⟨undeclared kind ++ fields.entries⟩ f' →
      ∃ fields', f' = ⟨undeclared kind ++ fields'.entries⟩ ∧
        (Entry.members (patch.entries (r.entriesOf m))).Fieldwise (Suits kept r') fields') :
    Mirrors kept r' m where
  wellFormed := hr'.consistent.wellFormed
  fields {kind} hk hsort := by
    have hkind : r.kindOf? m = some kind := (hr'.upholds.kindOf?_eq hd).symm.trans hk
    obtain ⟨fields, hf, hsuits⟩ := h.fields hkind hsort
    obtain ⟨f', hf', hturned⟩ := hr'.fields hf
    obtain ⟨fields', rfl, hsuits'⟩ := hturns hkind hsort (hsuits.imp fun member v _ _ hv hkept => by
      obtain ⟨form, hform, hv⟩ := hv hkept
      exact ⟨form, hr'.upholds.memberForm h.wellFormed hform,
        hv.preserves hr'.upholds.preserves⟩) hturned
    exact ⟨fields', hf', hr'.entries ▸ hsuits'⟩

/-- A member that is defined is mirrored by the field that it gets. -/
theorem define {d : Datatype Kind} (h : Mirrors kept r m)
    (hd : r.model? m = some (.datatype d)) {member : Member} {form : Form}
    (hform : r.memberForm member.datatype member.role member.qualifiers = .ok form)
    (hr' : Patched m (.write member form) r r')
    (hrole : ∀ kind, r.kindOf? m = some kind → member.role ∉ (undeclared kind).map (·.1)) :
    Mirrors kept r' m := by
  refine h.patched hd hr' fun {kind fields f'} hkind _ hsuits hturns => ?_
  cases hturns with
  | @write _ _ _ v hv =>
    refine ⟨fields.insert member.role v, Table.insert_append (hrole kind hkind) fields v, ?_⟩
    rw [Patch.entries, Entry.members_define]
    exact hsuits.insert member.role fun _ => ⟨form, hr'.upholds.memberForm h.wellFormed hform, hv⟩

/-- A member that is removed goes with its field. -/
theorem remove (h : Mirrors kept r m) {role : String} (hdeclares : r.Declares m role)
    (hr' : Patched m (.drop role) r r') : Mirrors kept r' m := by
  obtain ⟨d, hd⟩ := hdeclares.datatype
  refine h.patched hd hr' fun {kind fields f'} hkind hsort hsuits hturns => ?_
  cases hturns with
  | drop =>
    have hrole := (h.nodup hkind hsort).2 role (Entry.any_declares_iff_mem_keys.mp hdeclares)
    refine ⟨fields.erase role, Table.erase_append hrole fields, ?_⟩
    rw [Patch.entries, Entry.members_remove]
    exact hsuits.erase role

end Mirrors

/-! ## Operations of a repository -/

theorem mirrors_growing :
    Repository.Growing (Mirrors kept · m : Repository (system limits) → Prop) where
  wellFormed h := h.wellFormed
  grew h hr' := h.grew hr'

theorem mirrors_defineMember (hr : r.Consistent) (h : Mirrors kept r m) {n : ModelId}
    (hn : r.canonicalModel template = .ok n) {member : Member}
    (hrole : ∀ kind, r.kindOf? n = some kind → member.role ∉ (undeclared kind).map (·.1)) :
    (Step.defineMember template member).Ensures r (fun _ r' => Mirrors kept r' m)
      fun _ r' => r' = r := by
  obtain ⟨-, d, hd, -⟩ := Repository.canonicalModel_eq_ok_iff.mp hn
  refine ((MemberEdit.define_patched hr hn member).and
    (Step.allOrNothing_defineMember hr template member)).imp ?_ fun _ _ h' => h'.2
  rintro _ r' ⟨⟨form, hform, hr'⟩, -⟩
  by_cases hmn : m = n
  · subst hmn
    exact h.define hd hform hr' hrole
  · exact h.sameBut hr'.consistent.wellFormed (fun _ => hr'.upholds) hr'.edited.sameBut hmn hmn

/-- The facade lets no member of a union have the role of the discriminator. -/
theorem mirrors_define (hr : r.Consistent) (h : Mirrors kept r m) (template : ObjectId)
    (member : Member) :
    (defineMember template member).Ensures r (fun _ r' => Mirrors kept r' m)
      fun _ r' => Mirrors kept r' m := by
  refine defineMember_ensures (fun _ => h) fun hkind => ?_
  refine Step.ensures_canonical (fun _ => h) fun n hn => ?_
  rw [← Repository.kindOf?_of_canonicalModel hn] at hkind
  refine (mirrors_defineMember hr h hn fun kind hk => ?_).imp (fun _ _ h' => h') ?_
  · rcases hkind with hstruct | ⟨hunion, hrole⟩
    · obtain rfl := Option.some.inj (hstruct.symm.trans hk)
      simp [undeclared]
    · obtain rfl := Option.some.inj (hunion.symm.trans hk)
      simpa [undeclared] using hrole
  · rintro _ r' rfl
    exact h

theorem mirrors_removeMember (hr : r.Consistent) (h : Mirrors kept r m) (template : ObjectId)
    (role : String) :
    (Step.removeMember template role).Ensures r (fun _ r' => Mirrors kept r' m)
      fun _ r' => Mirrors kept r' m := by
  refine Step.ensures_canonical (fun _ => h) fun n hn => ?_
  refine ((MemberEdit.remove_patched hr hn role).and
    (Step.allOrNothing_removeMember hr template role)).imp ?_ ?_
  · rintro _ r' ⟨hr', -⟩
    by_cases hmn : m = n
    · subst hmn
      split at hr'
      · next hdeclares => exact h.remove hdeclares hr'
      · obtain ⟨-, d, hd, -⟩ := Repository.canonicalModel_eq_ok_iff.mp hn
        refine h.patched hd hr' fun _ _ hsuits hturns => ?_
        cases hturns
        exact ⟨_, rfl, hsuits⟩
    · exact h.sameBut hr'.consistent.wellFormed (fun _ => hr'.upholds) hr'.edited.sameBut hmn hmn
  · rintro _ r' ⟨-, rfl⟩
    exact h

/-! ## Bases -/

/-- Nothing of the datatype has a base. -/
def Baseless (m : ModelId) (r : Repository (system limits)) : Prop :=
  ∀ template, r.modelOf? template = some m → baseOf template r = none

theorem Baseless.base?_eq_none (h : Baseless m r) (hr : r.WellFormed)
    (hkind : r.kindOf? m = some .struct) : Entry.base? (r.entriesOf m) = none := by
  obtain ⟨d, hd, -⟩ := Repository.kindOf?_eq_some_iff.mp hkind
  obtain ⟨f, hf⟩ := hr.template hd
  have hm := Repository.modelOf?_of_object? hf
  have hbase := h d.template hm
  have htemplate : r.kind? d.template = some .struct := by
    rw [Repository.kind?, hm]
    exact hkind
  rwa [baseOf, if_pos htemplate, hm, Option.bind_some] at hbase

/-- A structure without a base that is given none keeps its fields where they are. -/
theorem setBase_none (hm : r.canonicalModel template = .ok m)
    (hbase : Entry.base? (r.entriesOf m) = none) :
    (Step.setBase template none).Ensures r
      (fun _ r' => r' = r.mapEntries m (Entry.rebase none)) fun _ _ => False := by
  simp [Step.setBase, Step.checkBase, Step.leaveBase, Step.joinBase, hm, hbase]

/-- A datatype may get a base if that is none or it is another one. -/
theorem mirrors_setBase (hr : r.Consistent) (h : Mirrors kept r m) (hbefore : Baseless m r)
    (template : ObjectId) (base : Option ObjectId)
    (hafter : Baseless m ((setBase template base).run r).repo) :
    Mirrors kept ((setBase template base).run r).repo m := by
  have hbased : (setBase template base).Ensures r
      (fun _ r' => ∃ target, base.mapM (structTarget (r.label template) · r) = .ok target ∧
        ∃ n, r.canonicalModel template = .ok n ∧ (Mirrors kept r' m ∨ r'.WellFormed ∧
          r'.kindOf? m = some .struct ∧ Entry.base? (r'.entriesOf m) ≠ none))
      fun _ r' => r' = r := by
    refine setBase_ensures_canonical (P := fun _ _ r' => Mirrors kept r' m ∨ r'.WellFormed ∧
      r'.kindOf? m = some .struct ∧ Entry.base? (r'.entriesOf m) ≠ none)
      fun n target hn hstruct hkind => ?_
    obtain ⟨d, hd, hdkind⟩ := Repository.kindOf?_eq_some_iff.mp hstruct
    by_cases hmn : m = n
    · subst hmn
      cases target with
      | none =>
        refine (setBase_none hn (hbefore.base?_eq_none hr.wellFormed hstruct)).imp ?_
          fun _ _ h' => h'.elim
        rintro _ r' rfl
        exact Or.inl (h.rebase_none hstruct)
      | some b =>
        refine (setBase_rebased hr hn hkind).imp (fun _ r' h' => Or.inr ?_) fun _ _ h' => h'
        obtain ⟨hr', hrebased, -⟩ := h'
        refine ⟨hr'.wellFormed, (hrebased.edited.sameBut.kindOf? hd).trans (by rw [hdkind]), ?_⟩
        rw [hrebased.entries]
        simp [Entry.rebase, Entry.base?]
    · refine (setBase_rebased hr hn hkind).imp (fun _ r' h' => Or.inl ?_) fun _ _ h' => h'
      obtain ⟨hr', hrebased, -⟩ := h'
      exact h.sameBut hr'.wellFormed (fun _ => upholds_of_edited hrebased.edited (Or.inl hstruct)
        (by rw [hrebased.entries, Entry.findSome?_scalar?_rebase])) hrebased.edited.sameBut hmn hmn
  refine (Step.Ensures.repo (P := fun r' => Baseless m r' → Mirrors kept r' m)
    (hbased.imp ?_ ?_)) hafter
  · rintro _ r' ⟨-, -, -, -, h' | ⟨hr', hkind, hbase⟩⟩ hafter
    · exact h'
    · exact (hbase (hafter.base?_eq_none hr' hkind)).elim
  · rintro _ r' rfl -
    exact h

/-! ## What is checked -/

section Checks

variable {entries body : List Entry} {roles : List String}

/-- The members that a structure lists have different roles. -/
theorem checkStruct_nodup {given base : Option ObjectId} (hroles : roles.Nodup)
    (h : checkStruct name r given roles entries = .ok (base, body)) :
    ((entries.filterMap Entry.member?).map (·.role) ++ roles).Nodup := by
  induction entries generalizing given roles base body with
  | nil => exact hroles
  | cons first rest ih =>
    cases first with
    | type b =>
      cases given with
      | some _ => simp [checkStruct] at h
      | none =>
        rw [checkStruct] at h
        obtain ⟨target, -, h⟩ := bind_eq_ok_iff.mp h
        exact ih hroles h
    | member member =>
      rw [checkStruct] at h
      split at h
      · obtain ⟨_, hmember, h⟩ := bind_eq_ok_iff.mp h
        obtain ⟨_, hrest, -⟩ := bind_eq_ok_iff.mp h
        exact List.nodup_middle.mp
          (ih (List.nodup_cons.mpr ⟨checkMember_not_mem hmember, hroles⟩) hrest)
      · simp at h
    | qualifier q =>
      rw [checkStruct] at h
      obtain ⟨_, -, h⟩ := bind_eq_ok_iff.mp h
      obtain ⟨_, hrest, -⟩ := bind_eq_ok_iff.mp h
      exact ih hroles hrest
    | value v scalar => simp [checkStruct] at h

/-- All members that a structure lists are installed, and it has a base only if one is listed. -/
theorem checkStruct_members {given base : Option ObjectId}
    (h : checkStruct name r given roles entries = .ok (base, body)) :
    body.filterMap Entry.member? = entries.filterMap Entry.member? ∧
      ((∀ entry ∈ entries, entry.target? = none) → base = given) := by
  induction entries generalizing given roles base body with
  | nil =>
    simp only [checkStruct, Except.ok.injEq, Prod.mk.injEq] at h
    exact ⟨by rw [← h.2], fun _ => h.1.symm⟩
  | cons first rest ih =>
    rw [List.forall_mem_cons]
    cases first with
    | type b =>
      cases given with
      | some _ => simp [checkStruct] at h
      | none =>
        rw [checkStruct] at h
        obtain ⟨target, -, h⟩ := bind_eq_ok_iff.mp h
        exact ⟨(ih h).1, fun hplain => by simp [Entry.target?] at hplain⟩
    | member member =>
      rw [checkStruct] at h
      split at h
      · obtain ⟨_, -, h⟩ := bind_eq_ok_iff.mp h
        obtain ⟨⟨base', body'⟩, hrest, h⟩ := bind_eq_ok_iff.mp h
        obtain ⟨rfl, rfl⟩ := Prod.mk.inj (Except.ok.inj h)
        exact ⟨congrArg (member :: ·) (ih hrest).1, fun hplain => (ih hrest).2 hplain.2⟩
      · simp at h
    | qualifier q =>
      rw [checkStruct] at h
      obtain ⟨_, -, h⟩ := bind_eq_ok_iff.mp h
      obtain ⟨⟨base', body'⟩, hrest, h⟩ := bind_eq_ok_iff.mp h
      obtain ⟨rfl, rfl⟩ := Prod.mk.inj (Except.ok.inj h)
      exact ⟨(ih hrest).1, fun hplain => (ih hrest).2 hplain.2⟩
    | value v scalar => simp [checkStruct] at h

/-- The cases that a union lists have different roles, which are new. -/
theorem checkCases_nodup {fallback : Option String} (hroles : roles.Nodup)
    (h : checkCases name r fallback roles entries = .ok ()) :
    ((entries.filterMap Entry.member?).map (·.role) ++ roles).Nodup := by
  induction entries generalizing fallback roles with
  | nil => exact hroles
  | cons first rest ih =>
    have hmember : ∀ {member : Member} {fallback : Option String},
        checkMember name roles member r = .ok () →
        checkCases name r fallback (member.role :: roles) rest = .ok () →
        ((member.role :: (rest.filterMap Entry.member?).map (·.role)) ++ roles).Nodup :=
      fun hmember hrest => List.nodup_middle.mp
        (ih (List.nodup_cons.mpr ⟨checkMember_not_mem hmember, hroles⟩) hrest)
    cases first with
    | type b => simp [checkCases] at h
    | member member =>
      simp only [checkCases] at h
      split at h
      · split at h
        · simp at h
        · obtain ⟨_, hchecked, h⟩ := bind_eq_ok_iff.mp h
          exact hmember hchecked h
      · obtain ⟨_, hchecked, h⟩ := bind_eq_ok_iff.mp h
        exact hmember hchecked h
    | qualifier q =>
      rw [checkCases] at h
      obtain ⟨_, -, h⟩ := bind_eq_ok_iff.mp h
      exact ih hroles h
    | value v scalar => simp [checkCases] at h

end Checks

/-! ## Constructors -/

/-- A structure or a union that is being made: all entries but the rest have been installed, and the
fields follow the members unless there is a base. -/
structure Listing (r : Repository (system limits)) (name : String) (kind : Kind)
    (entries rest : List Entry) (r' : Repository (system limits)) : Prop where
  consistent : r'.Consistent
  begun : Begun r name kind r'
  distinct : ((entries.filterMap Entry.member?).map (·.role) ++ (undeclared kind).map (·.1)).Nodup
  listed : (r'.entriesOf r.nextModel).filterMap Entry.member? ++ rest.filterMap Entry.member? =
    entries.filterMap Entry.member?
  plain : kind = .struct → (∀ entry ∈ entries, entry.target? = none) →
    Entry.base? (r'.entriesOf r.nextModel) = none
  mirrors : (kind = .struct → Entry.base? (r'.entriesOf r.nextModel) = none) →
    Mirrors True r' r.nextModel

namespace Listing

variable {entries rest : List Entry}

/-- A new structure has neither members nor fields. -/
theorem start (hr : r.Consistent) {base : Option ObjectId}
    (hchecked : checkStruct name r none [] entries = .ok (base, rest)) :
    Listing r name .struct entries rest (r.addTemplate name Kind.struct) := by
  have hconsistent := Repository.consistent_declarative.addTemplate name Kind.struct hr
  have hbegun := Begun.start hr.wellFormed name Kind.struct
  have hempty : (r.addTemplate name Kind.struct).entriesOf r.nextModel = [] := by
    rw [Repository.entriesOf_addTemplate, if_pos rfl]
  refine ⟨hconsistent, hbegun, checkStruct_nodup List.nodup_nil hchecked, ?_,
    fun _ _ => by rw [hempty]; rfl, fun _ => ⟨hconsistent.wellFormed, fun {kind} hk _ => ?_⟩⟩
  · rw [hempty]
    exact (checkStruct_members hchecked).1
  · obtain rfl := Option.some.inj (hbegun.kindOf?_eq.symm.trans hk)
    refine ⟨Table.empty, Repository.templateFields?_addTemplate name Kind.struct, ?_⟩
    rw [hempty]
    exact List.Forall₂.nil

/-- A new structure with a base has no members of its own yet, and need not mirror them. -/
theorem rebase (h : Listing r name .struct entries rest r') {b : ObjectId}
    (hentries : r'.entriesOf r.nextModel = [])
    (hchecked : checkStruct name r none [] entries = .ok (some b, rest))
    {r'' : Repository (system limits)} (hr'' : Step.Rebased r.nextModel (some b) r' r'')
    (hconsistent : r''.Consistent) : Listing r name .struct entries rest r'' := by
  have hrebased := hr''.entries
  rw [hentries] at hrebased
  refine ⟨hconsistent, h.begun.trans hr''.edited, h.distinct, ?_, fun _ hplain => ?_,
    fun hbare => ?_⟩
  · rw [hrebased]
    exact (checkStruct_members hchecked).1
  · simpa using (checkStruct_members hchecked).2 hplain
  · have hbase := hbare rfl
    simp [hrebased, Entry.rebase, Entry.base?] at hbase

/-- The next member has a new role and comes last, in the declaration and among the fields. -/
theorem define {member : Member} (h : Listing r name kind entries (.member member :: rest) r') :
    (Step.defineMember r.nextObject member).Ensures r'
      (fun _ => Listing r name kind entries rest) fun _ r'' => r'' = r' := by
  have hn := h.begun.canonicalModel
  obtain ⟨-, d, hd, -⟩ := Repository.canonicalModel_eq_ok_iff.mp hn
  have hdistinct := h.distinct
  rw [← h.listed, List.map_append, List.append_assoc, List.nodup_append] at hdistinct
  have hnew : (r'.entriesOf r.nextModel).any (Entry.declares member.role) = false := by
    rw [← Bool.not_eq_true, Entry.any_declares_iff_mem_keys, Entry.keys_members]
    exact fun hmem => hdistinct.2.2 _ hmem member.role (by simp [Entry.member?]) rfl
  have hmarked : member.role ∉ (undeclared kind).map (·.1) := fun hmem =>
    (List.nodup_append.mp hdistinct.2.1).2.2 member.role (by simp [Entry.member?]) _ hmem rfl
  refine ((MemberEdit.define_patched h.consistent hn member).and
    (Step.allOrNothing_defineMember h.consistent r.nextObject member)).imp ?_ fun _ _ h' => h'.2
  rintro _ r'' ⟨⟨form, hform, hr''⟩, -⟩
  have hentries := hr''.entries
  rw [Patch.entries] at hentries
  have hbase : Entry.base? (r''.entriesOf r.nextModel) =
      Entry.base? (r'.entriesOf r.nextModel) := by
    rw [hentries, Entry.base?_define]
  refine ⟨hr''.consistent, h.begun.trans hr''.edited, h.distinct, ?_, fun hk hplain => ?_,
    fun hbare => ?_⟩
  · rw [← h.listed, hentries, Entry.define_eq_append hnew]
    simp [Entry.member?]
  · exact hbase.trans (h.plain hk hplain)
  · refine (h.mirrors fun hk => hbase.symm.trans (hbare hk)).define hd hform hr'' fun k hk => ?_
    obtain rfl := Option.some.inj (h.begun.kindOf?_eq.symm.trans hk)
    exact hmarked

theorem qualifier {q : Qualifier} (h : Listing r name kind entries (.qualifier q :: rest) r') :
    Listing r name kind entries rest r' :=
  { h with listed := h.listed }

theorem putQualifiers (h : Listing r name kind entries rest r') (qs : List Qualifier) :
    Listing r name kind entries rest (r'.putQualifiers r.nextModel qs) where
  consistent := Repository.consistent_declarative.putQualifiers _ qs h.consistent
  begun := h.begun.putQualifiers qs
  distinct := h.distinct
  listed := by
    rw [Repository.entriesOf_putQualifiers]
    exact h.listed
  plain hk hplain := by
    rw [Repository.entriesOf_putQualifiers]
    exact h.plain hk hplain
  mirrors hbare := by
    rw [Repository.entriesOf_putQualifiers] at hbare
    exact (h.mirrors hbare).putQualifiers _ qs

end Listing

section Constructors

variable (h : r.Consistent)

include h

/-- A new structure installs its members in their order, after the fields of its base. -/
theorem newStruct_listing (name : String) (entries : List Entry) :
    (newStruct name entries).Ensures r (fun _ => Listing r name .struct entries [])
      fun _ r' => r' = r ∨ ∃ rest, Listing r name .struct entries rest r' := by
  refine newStruct_ensures_each (fun _ _ h' => h'.begun) (fun _ _ => Or.inl rfl)
    (fun body hchecked => .start h hchecked) (fun b body hchecked => ?_)
    (fun member rest r' h' => ?_) (fun q rest r' h' => h'.qualifier)
    fun r' qs h' => h'.putQualifiers qs
  · have hstart := Listing.start h hchecked
    have hempty : (r.addTemplate name Kind.struct).entriesOf r.nextModel = [] := by
      rw [Repository.entriesOf_addTemplate, if_pos rfl]
    have hkind := checkStruct_base (by simp) hchecked b rfl
    have hkinds : ∀ b', some b = some b' →
        (r.addTemplate name Kind.struct).kind? b' = some Kind.struct := by
      rintro b' ⟨⟩
      exact Repository.kind?_addTemplate hkind
    refine (setBase_rebased hstart.consistent hstart.begun.canonicalModel hkinds).imp ?_ ?_
    · rintro _ r' ⟨hconsistent, hrebased, -⟩
      exact hstart.rebase hempty hchecked hrebased hconsistent
    · rintro _ r' rfl
      exact Or.inr ⟨body, hstart⟩
  · refine h'.define.imp (fun _ _ h'' => h'') ?_
    rintro _ r'' rfl
    exact Or.inr ⟨_, h'⟩

/-- A new union installs its members in their order, after the leaf of its discriminator. -/
theorem newUnion_listing (name : String) (discriminator : ObjectId) (entries : List Entry) :
    (newUnion name discriminator entries).Ensures r (fun _ => Listing r name .union entries [])
      fun _ r' => r' = r ∨ ∃ rest, Listing r name .union entries rest r' := by
  refine newUnion_ensures_each (fun _ _ h' => h'.begun) (fun _ => Or.inl rfl)
    (fun hcases hbegun => ?_) (fun member rest r' h' => ?_)
    (fun q rest r' h' => h'.qualifier) (fun r' qs h' => h'.putQualifiers qs) h.wellFormed
  · obtain ⟨-, d, hd, -⟩ := Repository.canonicalModel_eq_ok_iff.mp hbegun.canonicalModel
    obtain ⟨e, he, -⟩ := Repository.model?_mapDatatype_datatype.mp hd
    refine ((updateInstances_discriminator h name discriminator hbegun).and
      (Step.updateInstances_updated hbegun.wellFormed hd discriminatorRole _)).imp ?_
        fun _ _ h' => h'.1.elim
    rintro _ r' ⟨⟨hconsistent, hbegun', hentries⟩, hupdated⟩
    refine ⟨hconsistent, hbegun', checkCases_nodup (List.nodup_singleton _) hcases,
      by rw [hentries]; rfl, fun hk => by simp at hk,
      fun _ => ⟨hconsistent.wellFormed, fun {kind} hk _ => ?_⟩⟩
    obtain rfl := Option.some.inj (hbegun'.kindOf?_eq.symm.trans hk)
    refine ⟨Table.empty, ?_, by rw [hentries]; exact List.Forall₂.nil⟩
    rw [hupdated.fields, Repository.templateFields?_mapEntries
      (h.wellFormed.addTemplate name Kind.union) he, Repository.templateFields?_addTemplate]
    rfl
  · refine h'.define.imp (fun _ _ h'' => h'') ?_
    rintro _ r'' rfl
    exact Or.inr ⟨_, h'⟩

end Constructors

/-! ## Operations -/

theorem Mirrors.weaken (h : Mirrors True r m) : Mirrors kept r m where
  wellFormed := h.wellFormed
  fields hk hsort := by
    obtain ⟨fields, hf, hsuits⟩ := h.fields hk hsort
    exact ⟨fields, hf, hsuits.imp fun _ _ _ _ hv _ => hv trivial⟩

/-- A new datatype touches no other one. -/
theorem Mirrors.begun (h : Mirrors kept r m) (hbegun : Begun r name kind r')
    (hkind : (system limits).isCollection kind = false)
    (hnew : m = r.nextModel → Mirrors kept r' m) : Mirrors kept r' m := by
  by_cases hm : m = r.nextModel
  · exact hnew hm
  · exact h.sameBut hbegun.wellFormed (fun _ => hbegun.upholds hkind) hbegun.sameBut hm hm

/-- A datatype that has no members of its own is made, or none is. -/
theorem Mirrors.made (h : Mirrors kept r m) (hkind : (system limits).isCollection kind = false)
    (hstruct : kind ≠ .struct) (hunion : kind ≠ .union) {x : Step (system limits) ObjectId}
    (hx : x.Ensures r (fun _ => Begun r name kind) fun _ r' => r' = r ∨ Begun r name kind r') :
    Mirrors kept (x.run r).repo m := by
  have hbegun : ∀ r', Begun r name kind r' → Mirrors kept r' m := fun r' hbegun =>
    h.begun hbegun hkind fun hm =>
      mirrors_of_kind hbegun.wellFormed (hm ▸ hbegun.kindOf?_eq) hstruct hunion
  refine Step.Ensures.repo (hx.imp (fun _ => hbegun) ?_)
  rintro _ r' (rfl | h')
  · exact h
  · exact hbegun r' h'

/-- A structure or a union is made, with all of its members or with some, or none is. -/
theorem Mirrors.listing (h : Mirrors kept r m) {entries : List Entry}
    (hkind : kind = .struct ∨ kind = .union) {x : Step (system limits) ObjectId}
    (hx : x.Ensures r (fun _ => Listing r name kind entries [])
      fun _ r' => r' = r ∨ ∃ rest, Listing r name kind entries rest r')
    (hafter : Baseless m (x.run r).repo) : Mirrors kept (x.run r).repo m := by
  have hlisting : ∀ rest r', Listing r name kind entries rest r' → Baseless m r' →
      Mirrors kept r' m := by
    intro rest r' hr' hbare
    refine h.begun hr'.begun (by rcases hkind with rfl | rfl <;> rfl) fun hm => ?_
    subst hm
    refine (hr'.mirrors fun hstruct => ?_).weaken
    exact hbare.base?_eq_none hr'.consistent.wellFormed (hstruct ▸ hr'.begun.kindOf?_eq)
  refine Step.Ensures.repo (P := fun r' => Baseless m r' → Mirrors kept r' m)
    (hx.imp (fun _ => hlisting []) ?_) hafter
  rintro _ r' (rfl | ⟨rest, hr'⟩) hbare
  · exact h
  · exact hlisting rest r' hr' hbare

/-- A module lists datatypes, not members. -/
theorem mirrors_modular : Modular (Mirrors kept · m : Repository (system limits) → Prop) where
  putScope {r} n outer h houter :=
    h.mapDatatype (h.wellFormed.putScope n houter) (fun _ => ⟨rfl, rfl, rfl⟩)
      fun _ _ => ⟨rfl, fun _ => rfl, rfl⟩
  list {r n} child h hmodule := by
    have hwf := h.wellFormed.mapEntries n fun entries =>
      if entries.contains (.type child) then entries else entries ++ [.type child]
    refine h.mapDatatype hwf (fun _ => ⟨rfl, rfl, rfl⟩)
      fun d hd => ⟨?_, fun ha => ?_, ?_⟩
    · show Entry.members (if _ then _ else _) = _
      split
      · rfl
      · exact Entry.members_append rfl
    · obtain ⟨e, he, hke⟩ := Repository.kindOf?_eq_some_iff.mp hmodule
      obtain rfl := Repository.datatype_unique hd he
      simp [hke, system] at ha
    · show (if _ then _ else _ : List Entry).findSome? Entry.scalar? = _
      split
      · rfl
      · simp [Entry.scalar?]

theorem Operation.perform_mirrors (hr : r.Consistent) (h : Mirrors kept r m)
    {operation : Operation} (hrule : operation.KeepsInstances r)
    (hkept : kept → ∀ id, operation ≠ .repository (.releaseInstance id))
    (hbefore : Baseless m r) (hafter : Baseless m (operation.perform r)) :
    Mirrors kept (operation.perform r) m := by
  have hwf := hr.wellFormed
  have hmade : ∀ {name : String} {kind : Kind} {x : Step (system limits) ObjectId},
      x.Ensures r (fun _ => Begun r name kind) (fun _ r' => r' = r) →
      x.Ensures r (fun _ => Begun r name kind) fun _ r' => r' = r ∨ Begun r name kind r' :=
    fun hx => hx.imp (fun _ _ h' => h') fun _ _ h' => Or.inl h'
  cases operation with
  | newTag name => exact h.made rfl (by simp) (by simp) (newTag_begun hwf name)
  | newStruct name entries =>
    exact h.listing (Or.inl rfl) (newStruct_listing hr name entries) hafter
  | newUnion name discriminator entries =>
    exact h.listing (Or.inr rfl) (newUnion_listing hr name discriminator entries) hafter
  | newEnum name enumerators =>
    exact h.made rfl (by simp) (by simp) (hmade (newEnum_begun hwf name enumerators))
  | newTypedef name target qualifiers =>
    exact h.made rfl (by simp) (by simp)
      (hmade (newTypedef_ensures (begins_begun hwf name Kind.typedef) target qualifiers))
  | newModule name parent =>
    have hstart := Begun.start hwf name Kind.module
    refine (mirrors_modular.newModule h (h.begun hstart rfl fun hm => ?_) parent).repo
    exact mirrors_of_kind hstart.wellFormed (hm ▸ hstart.kindOf?_eq) (by simp) (by simp)
  | addToModule scope child => exact (mirrors_modular.addToModule scope child).repo h
  | newConstant name datatype value =>
    exact h.made rfl (by simp) (by simp)
      (hmade (newConstant_ensures (begins_begun hwf name Kind.const) datatype value))
  | defineMember template member => exact (mirrors_define hr h template member).repo
  | setBase template base => exact mirrors_setBase hr h hbefore template base hafter
  | repository inner =>
    have helement : ∀ id index, Step.Keeps (Mirrors kept · m : Repository (system limits) → Prop)
        (Step.element id index) := fun id index =>
      Step.keeps_element mirrors_growing (fun id index _ h' hgrew _ =>
        (h'.grew hgrew).writeElement id index _) id index
    cases inner with
    | removeMember template role => exact (mirrors_removeMember hr h template role).repo
    | newInstance template under owned =>
      exact (Step.keeps_newInstance mirrors_growing template under owned).repo h
    | createRoleInstance datatype role qualifiers =>
      exact (Step.keeps_createRoleInstance mirrors_growing datatype role qualifiers).repo h
    | newCollection content bound name owned =>
      exact (Step.keeps_newCollection mirrors_growing content bound name owned).repo h
    | element id index => exact (helement id index).repo h
    | setElement id index value =>
      exact (Step.keeps_setElement_of_element (helement id index) fun _ h' =>
        h'.writeElement id index value).repo h
    | releaseInstance id =>
      exact (Step.keeps_releaseInstance_of (P := (Mirrors kept · m)) (fun h' => h'.wellFormed)
        (fun h' hid => h'.free (fun hk => hkept hk id rfl) hid) id).repo h
    | _ => exact hrule.elim

/-! ## One shape -/

/-- Both values have a snapshot, and it is the same. -/
def LooksAlike (r : Repository (system limits)) (v w : Value) : Prop :=
  ∃ image, r.snapshot v = .ok image ∧ r.snapshot w = .ok image

/-- The templates of two datatypes have the same fields in the same order, which look alike, and so
have any two of their instances that go by the same name. -/
structure SameShape (r : Repository (system limits)) (m n : ModelId) : Prop where
  templates : ∃ f g, r.templateFields? m = some f ∧ r.templateFields? n = some g ∧
    f.Fieldwise (LooksAlike r) g
  instances : ∀ {x y f g}, r.object? x = some (.composite m f) →
    r.object? y = some (.composite n g) → r.registeredName x = r.registeredName y →
    f.Fieldwise (LooksAlike r) g

/-- Both values are what is made for one form. -/
def Conform (r : Repository (system limits)) (v w : Value) : Prop :=
  ∃ form, r.HasForm form v ∧ r.HasForm form w

/-- A snapshot shows the form of a value and nothing else. -/
theorem Conform.looksAlike {v w : Value} (h : Conform r v w) (hr : r.Consistent)
    (hlive : r.HasContents) : LooksAlike r v w := by
  obtain ⟨form, hv, hw⟩ := h
  obtain ⟨image, himage⟩ := hlive.snapshot_ok hr.wellFormed hr.tidy hv.denotes
  exact ⟨image, himage, (hr.snapshot_eq_of_form hv hw).symm.trans himage⟩

/-- The fields without a member are leaves. -/
theorem conform_undeclared {field : String × Value} (h : field ∈ undeclared kind) :
    Conform r field.2 field.2 := by
  unfold undeclared at h
  split at h
  · obtain rfl := List.mem_singleton.mp h
    exact ⟨_, .leaf discriminatorMarker, .leaf discriminatorMarker⟩
  · simp at h

/-- The templates of datatypes of one kind that mirror the same members have conforming fields. -/
theorem Mirrors.conform (hm : Mirrors True r m) {n : ModelId} (hn : Mirrors True r n)
    (hkm : r.kindOf? m = some kind) (hkn : r.kindOf? n = some kind)
    (hkind : kind = .struct ∨ kind = .union)
    (hsame : (r.entriesOf n).filterMap Entry.member? = (r.entriesOf m).filterMap Entry.member?) :
    ∃ f g, r.templateFields? m = some f ∧ r.templateFields? n = some g ∧
      f.Fieldwise (Conform r) g := by
  obtain ⟨f, hf, hsuits⟩ := hm.fields hkm hkind
  obtain ⟨g, hg, hsuits'⟩ := hn.fields hkn hkind
  rw [Entry.members, hsame] at hsuits'
  have hdeclared : f.Fieldwise (Conform r) g := by
    refine hsuits.join hsuits' fun member v w hv hw => ?_
    obtain ⟨form, hform, hv⟩ := hv trivial
    obtain ⟨form', hform', hw⟩ := hw trivial
    obtain rfl := Except.ok.inj (hform.symm.trans hform')
    exact ⟨form, hv, hw⟩
  exact ⟨_, _, hf, hg, List.rel_append
    (List.forall₂_same.mpr fun field hfield => ⟨rfl, conform_undeclared hfield⟩) hdeclared⟩

/-- Where the templates have conforming fields, so have instances that go by one name. -/
theorem conform_instances (hr : r.Consistent) {n : ModelId} {f g fx fy : Table String Value}
    (hf : r.templateFields? m = some f) (hg : r.templateFields? n = some g)
    (hforms : f.Fieldwise (Conform r) g) {x y : ObjectId}
    (hx : r.object? x = some (.composite m fx)) (hy : r.object? y = some (.composite n fy))
    (hname : r.registeredName x = r.registeredName y) : fx.Fieldwise (Conform r) fy := by
  obtain ⟨d, hd⟩ := hr.wellFormed.composite hx
  obtain ⟨e, he⟩ := hr.wellFormed.composite hy
  obtain ⟨fT, hT⟩ := hr.wellFormed.template hd
  obtain ⟨gT, hT'⟩ := hr.wellFormed.template he
  rw [Repository.templateFields?_eq hd hT, Option.some_inj] at hf
  rw [Repository.templateFields?_eq he hT', Option.some_inj] at hg
  have hfollows := hr.follows_template hx hd hT
  have hfollows' := hr.follows_template hy he hT'
  rw [hf, hname] at hfollows
  rw [hg] at hfollows'
  -- Each instance follows its own template: the fields meet in those of the templates.
  have hbetween : fx.Fieldwise (fun a w => ∃ v, r.Follows (r.registeredName y) v a ∧
      Conform r v w) g :=
    hfollows.join hforms fun v a w ha hvw => ⟨v, ha, hvw⟩
  refine hbetween.symm.join hfollows' fun w a b ha hb => ?_
  obtain ⟨v, ha, form, hv, hw⟩ := ha
  exact ⟨_, ha.hasForm hv, hb.hasForm hw⟩

/-- Datatypes of one kind that mirror the same members have one shape: what a field is, apart from
the objects that it is made of, is determined by its member and by the name of the instance. -/
theorem sameShape_of_mirrors (hr : r.Consistent) (hlive : r.HasContents) {n : ModelId}
    (hm : Mirrors True r m) (hn : Mirrors True r n) (hkm : r.kindOf? m = some kind)
    (hkn : r.kindOf? n = some kind) (hkind : kind = .struct ∨ kind = .union)
    (hsame : (r.entriesOf n).filterMap Entry.member? = (r.entriesOf m).filterMap Entry.member?) :
    SameShape r m n := by
  obtain ⟨f, g, hf, hg, hforms⟩ := hm.conform hn hkm hkn hkind hsame
  refine ⟨⟨f, g, hf, hg, hforms.imp fun _ _ _ _ h => h.looksAlike hr hlive⟩,
    fun hx hy hname => ?_⟩
  exact (conform_instances hr hf hg hforms hx hy hname).imp fun _ _ _ _ h => h.looksAlike hr hlive

/-! ## Runs -/

/-- The repository is reached under a rule, and the datatype, if it is a structure, has had no base
at any time. -/
def NeverBased (rule : Repository (system limits) → Operation → Prop) (kind : Kind) (m : ModelId)
    (r : Repository (system limits)) : Prop :=
  Reached Operation.perform (fun r operation => rule r operation ∧
    (kind = .struct → Baseless m (operation.perform r))) (initial limits) r

/-- The operation declares a datatype with these entries, and a structure without a base. -/
inductive Operation.Declares (r : Repository (system limits)) : Kind → List Entry → Operation → Prop
  where
  | struct {name : String} {entries : List Entry} {template : ObjectId}
      (hplain : ∀ entry ∈ entries, entry.target? = none)
      (hok : ((Idl.newStruct name entries).run r).answer = .ok template) :
      Declares r .struct entries (newStruct name entries)
  | union {name : String} {discriminator : ObjectId} {entries : List Entry} {template : ObjectId}
      (hok : ((Idl.newUnion name discriminator entries).run r).answer = .ok template) :
      Declares r .union entries (newUnion name discriminator entries)

/-- A datatype with these members has been declared by one operation, and its declaration is still
what it was. -/
inductive DeclaredAtOnce (kind : Kind) (members : List Member) (n : ModelId) :
    Repository (system limits) → Prop where
  | declare {r : Repository (system limits)} {operation : Operation} {entries : List Entry}
      (hr : Reached Operation.perform Operation.Retains (initial limits) r)
      (hdeclares : operation.Declares r kind entries)
      (hmembers : entries.filterMap Entry.member? = members) (hn : n = r.nextModel) :
      DeclaredAtOnce kind members n (operation.perform r)
  | later {r : Repository (system limits)} {operation : Operation}
      (h : DeclaredAtOnce kind members n r) (hrule : operation.Retains r)
      (hsame : (operation.perform r).entriesOf n = r.entriesOf n) :
      DeclaredAtOnce kind members n (operation.perform r)

theorem baseless_of_entries (h : r.kindOf? m = some .struct → Entry.base? (r.entriesOf m) = none) :
    Baseless m r := by
  intro template hm
  rw [baseOf]
  split
  · next hkind =>
    rw [Repository.kind?, hm] at hkind
    rw [hm]
    exact h hkind
  · rfl

/-- Why what is declared at once has the shape that its members give it. -/
structure Shaped (kind : Kind) (members : List Member) (n : ModelId)
    (r : Repository (system limits)) : Prop where
  consistent : r.Consistent
  mirrors : Mirrors True r n
  kindOf? : r.kindOf? n = some kind
  members : (r.entriesOf n).filterMap Entry.member? = members
  base : kind = .struct → Entry.base? (r.entriesOf n) = none

theorem Listing.shaped {entries : List Entry} (h : Listing r name kind entries [] r')
    (hplain : kind = .struct → ∀ entry ∈ entries, entry.target? = none) :
    Shaped kind (entries.filterMap Entry.member?) r.nextModel r' where
  consistent := h.consistent
  mirrors := h.mirrors fun hk => h.plain hk (hplain hk)
  kindOf? := h.begun.kindOf?_eq
  members := by simpa using h.listed
  base hk := h.plain hk (hplain hk)

theorem DeclaredAtOnce.shaped {members : List Member} {n : ModelId}
    (h : DeclaredAtOnce kind members n r) : Shaped kind members n r := by
  induction h with
  | @declare r operation entries hr hdeclares hmembers hn =>
    have hconsistent := consistent_of_reached (hr.mono fun _ _ hrule => hrule.1)
    subst hmembers hn
    cases hdeclares with
    | struct hplain hok =>
      exact ((newStruct_listing hconsistent _ _).ok_of_answer hok).shaped fun _ => hplain
    | union hok =>
      exact ((newUnion_listing hconsistent _ _ _).ok_of_answer hok).shaped fun hk => by simp at hk
  | @later r operation _ hrule hsame ih =>
    obtain ⟨d, hd, hkind⟩ := Repository.kindOf?_eq_some_iff.mp ih.kindOf?
    obtain ⟨d', hd', hkind', -⟩ :=
      (Operation.perform_sound ih.consistent.wellFormed.sound operation).steady.datatype hd
    have hk : (operation.perform r).kindOf? n = some kind :=
      Repository.kindOf?_eq_some_iff.mpr ⟨d', hd', hkind'.trans hkind⟩
    have hbefore : Baseless n r := baseless_of_entries fun hstruct =>
      ih.base (Option.some.inj (ih.kindOf?.symm.trans hstruct))
    have hafter : Baseless n (operation.perform r) := baseless_of_entries fun hstruct => by
      rw [hsame]
      exact ih.base (Option.some.inj (hk.symm.trans hstruct))
    exact ⟨Operation.perform_consistent ih.consistent hrule.1,
      Operation.perform_mirrors ih.consistent ih.mirrors hrule.1 (fun _ => hrule.2) hbefore hafter,
      hk, hsame ▸ ih.members, fun hstruct => hsame ▸ ih.base hstruct⟩

theorem mirrors_initial : Mirrors kept (initial limits) m where
  wellFormed := (consistent_of_reached .start).wellFormed
  fields {kind} hk hsort := by
    have hkinds : ∀ kind, (initial limits).kindOf? m = some kind →
        kind ∈ [Kind.atom, .tag, .collection] := by
      refine initial_of_addTemplate
        (P := fun r => ∀ kind, r.kindOf? m = some kind → kind ∈ [Kind.atom, .tag, .collection])
        (fun {r} name {kind} hkind h k hk => ?_) fun k hk => by simp [Repository.kindOf?] at hk
      obtain ⟨d, hd, rfl⟩ := Repository.kindOf?_eq_some_iff.mp hk
      rw [Repository.model?_addTemplate] at hd
      split at hd
      · obtain rfl := Model.datatype.inj (Option.some.inj hd)
        exact hkind
      · exact h _ (Repository.kindOf?_eq_some_iff.mpr ⟨d, hd, rfl⟩)
    have hkind := hkinds kind hk
    rcases hsort with rfl | rfl <;> simp at hkind

/-- What is no structure has never been one. -/
theorem not_struct_of_perform (hr : r.WellFormed) {operation : Operation}
    (h : (operation.perform r).kindOf? m ≠ some .struct) : r.kindOf? m ≠ some .struct := by
  intro hk
  obtain ⟨d, hd, hkind⟩ := Repository.kindOf?_eq_some_iff.mp hk
  obtain ⟨d', hd', hkind', -⟩ := (Operation.perform_sound hr.sound operation).steady.datatype hd
  exact h (Repository.kindOf?_eq_some_iff.mpr ⟨d', hd', hkind'.trans hkind⟩)

/-- A union needs no rule to be without a base. -/
theorem NeverBased.baseless {rule : Repository (system limits) → Operation → Prop}
    (h : NeverBased rule kind m r) (hkind : r.kindOf? m = some kind) :
    Reached Operation.perform (fun r operation => rule r operation ∧
      Baseless m (operation.perform r)) (initial limits) r := by
  by_cases hstruct : kind = .struct
  · exact h.mono fun _ _ hrule => ⟨hrule.1, hrule.2 hstruct⟩
  · have hother : r.kindOf? m ≠ some .struct := by simpa [hkind] using hstruct
    clear hkind
    induction h with
    | start => exact .start
    | @next r operation h hrule ih =>
      have hr : r.WellFormed := h.invariant (P := Repository.WellFormed)
        (consistent_of_reached .start).wellFormed fun _ operation hr _ =>
          (Operation.perform_sound hr.sound operation).wellFormed
      exact .next (ih (not_struct_of_perform hr hother))
        ⟨hrule.1, baseless_of_entries fun hk => (hother hk).elim⟩

theorem NeverBased.mirrors {rule : Repository (system limits) → Operation → Prop}
    (h : NeverBased rule kind m r) (hkind : r.kindOf? m = some kind)
    (hrule : ∀ {r operation}, rule r operation → operation.KeepsInstances r ∧
      (kept → ∀ id, operation ≠ .repository (.releaseInstance id))) :
    r.Consistent ∧ Mirrors kept r m := by
  have hinvariant := (h.baseless hkind).invariant
    (P := fun r => r.Consistent ∧ Baseless m r ∧ Mirrors kept r m)
    ⟨consistent_of_reached .start, baseless_of_entries fun _ => by rw [entriesOf_initial]; rfl,
      mirrors_initial⟩ fun r operation ⟨hr, hbefore, hm⟩ ⟨hallowed, hafter⟩ => ?_
  · exact ⟨hinvariant.1, hinvariant.2.2⟩
  · exact ⟨Operation.perform_consistent hr (hrule hallowed).1, hafter,
      Operation.perform_mirrors hr hm (hrule hallowed).1 (hrule hallowed).2 hbefore hafter⟩

/-- However a union, or a structure that never had a base, has come to its members: the members have
different roles, and the template has these roles in their order, after that of the discriminator of
a union. And where nothing is released, it has one shape with every datatype of its kind that has
been declared with the same members at once. -/
theorem shape_of_reached (h : NeverBased Operation.KeepsInstances kind m r)
    (hkind : r.kindOf? m = some kind) (hsort : kind = .struct ∨ kind = .union) :
    let members := (r.entriesOf m).filterMap Entry.member?
    (members.map (·.role)).Nodup ∧
      (∃ f, r.templateFields? m = some f ∧
        f.keys = (if kind = .union then [discriminatorRole] else []) ++ members.map (·.role)) ∧
      (NeverBased Operation.Retains kind m r →
        ∀ n, DeclaredAtOnce kind members n r → SameShape r m n) := by
  intro members
  obtain ⟨hr, hm⟩ : r.Consistent ∧ Mirrors False r m :=
    h.mirrors hkind fun hrule => ⟨hrule, False.elim⟩
  obtain ⟨fields, hf, hsuits⟩ := hm.fields hkind hsort
  have hkeys := hsuits.keys_eq
  rw [Entry.keys_members] at hkeys
  refine ⟨?_, ⟨_, hf, ?_⟩, fun h n hn => ?_⟩
  · have hnodup := (hm.nodup hkind hsort).1
    rwa [Entry.keys_members] at hnodup
  · rw [Table.keys, List.map_append, ← hkeys]
    congr 1
    unfold undeclared
    split <;> rfl
  · obtain ⟨-, hm⟩ : r.Consistent ∧ Mirrors True r m := h.mirrors hkind fun hrule =>
      ⟨hrule.1, fun _ => hrule.2⟩
    have hunreleased := unreleased_of_reached (h.mono fun _ _ hrule => hrule.1)
    exact sameShape_of_mirrors hr hunreleased.hasContents hm hn.shaped.mirrors hkind
      hn.shaped.kindOf? hsort hn.shaped.members

/-- A structure gets a third member, gets its first one redefined and loses its second one, while it
has an instance. Then another structure is declared as the first one has become, and has an instance
of the same name. -/
theorem shape_after_edits :
    let start : Member := ⟨"start", ⟨21⟩, [], []⟩
    let tags : Member := ⟨"tags", Atom.string.template, [sequence (.size 3)], []⟩
    let declare := Operation.newStruct "Path" [.member start, .member tags]
    let r₀ := Operation.run (initial ⟨4, 4⟩)
      [.newStruct "Point" [.member ⟨"x", Atom.long.template, [], []⟩],
        .newStruct "Line" [.member ⟨"start", Atom.long.template, [], []⟩,
          .member ⟨"width", Atom.long.template, [], []⟩],
        .repository (.newInstance ⟨22⟩ "line" false), .defineMember ⟨22⟩ tags,
        .defineMember ⟨22⟩ start, .repository (.removeMember ⟨22⟩ "width")]
    let r := Operation.perform (declare.perform r₀) (.repository (.newInstance ⟨28⟩ "line" false))
    r.entriesOf ⟨22⟩ = [.member start, .member tags] ∧ r.registeredName ⟨23⟩ = "line" ∧
      r.registeredName ⟨33⟩ = "line" ∧ ∃ f g, r.object? ⟨23⟩ = some (.composite ⟨22⟩ f) ∧
        r.object? ⟨33⟩ = some (.composite ⟨25⟩ g) ∧ f.Fieldwise (LooksAlike r) g := by
  intro start tags declare r₀ r
  have hentries : r.entriesOf ⟨22⟩ = [.member start, .member tags] := by decide +kernel
  have hkind : r.kindOf? ⟨22⟩ = some .struct := by decide +kernel
  have hx : r.object? ⟨23⟩ = some (.composite ⟨22⟩
      ⟨[("start", .composite ⟨27⟩), ("tags", .collection ⟨25⟩)]⟩) := by decide +kernel
  have hy : r.object? ⟨33⟩ = some (.composite ⟨25⟩
      ⟨[("start", .composite ⟨31⟩), ("tags", .collection ⟨32⟩)]⟩) := by decide +kernel
  have hxname : r.registeredName ⟨23⟩ = "line" := by decide +kernel
  have hyname : r.registeredName ⟨33⟩ = "line" := by decide +kernel
  have hok : ((newStruct "Path" [.member start, .member tags]).run r₀).answer = .ok ⟨28⟩ := by
    decide +kernel
  have hnew : (⟨25⟩ : ModelId) = r₀.nextModel := by decide +kernel
  have hkept : r.entriesOf ⟨25⟩ = (declare.perform r₀).entriesOf ⟨25⟩ := by decide +kernel
  have hbase : ∀ {r : Repository (system ⟨4, 4⟩)}, Entry.base? (r.entriesOf ⟨22⟩) = none →
      Kind.struct = .struct → Baseless ⟨22⟩ r := fun h _ => baseless_of_entries fun _ => h
  have hretains : ∀ {operation : Operation} {r : Repository (system ⟨4, 4⟩)},
      operation.KeepsInstances r → (∀ id, operation ≠ .repository (.releaseInstance id)) →
        operation.Retains r := And.intro
  have h₀ : NeverBased Operation.Retains .struct ⟨22⟩ r₀ := by
    simp only [r₀, Operation.run, List.foldl_cons, List.foldl_nil]
    refine .next (.next (.next (.next (.next (.next .start ?_) ?_) ?_) ?_) ?_) ?_ <;>
      exact ⟨hretains trivial (by simp), hbase (by decide +kernel)⟩
  have h : NeverBased Operation.Retains .struct ⟨22⟩ r :=
    .next (.next h₀ ⟨hretains trivial (by simp), hbase (by decide +kernel)⟩)
      ⟨hretains trivial (by simp), hbase (by decide +kernel)⟩
  have hdeclared : DeclaredAtOnce .struct [start, tags] ⟨25⟩ r :=
    .later (.declare (h₀.mono fun _ _ hrule => hrule.1) (.struct (by simp [Entry.target?]) hok) rfl
      hnew) (hretains trivial (by simp)) hkept
  clear_value r r₀
  obtain ⟨-, -, hshape⟩ := shape_of_reached (h.mono fun _ _ hrule => ⟨hrule.1.1, hrule.2⟩) hkind
    (Or.inl rfl)
  rw [hentries] at hshape
  refine ⟨hentries, hxname, hyname, _, _, hx, hy, ?_⟩
  exact (hshape h ⟨25⟩ hdeclared).instances hx hy (hxname.trans hyname.symm)

end Idl

end Metamodel
