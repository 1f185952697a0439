import Metamodel.Proofs.Inheritance
import Metamodel.Proofs.Rejection
import Metamodel.Proofs.Unreleased

/-!
# Metamodel.Proofs.Determined -- what is declared of a member shows in its field

A member is declared in an entry and shows in a field of the template. The two are written together
when a member is defined or removed, and a new structure gets the fields of its base before its own
members. A base that is joined later installs its fields over those that are declared. Main
statement: from the time when a member is declared its field looks like a value that is made for it
just now, whatever else is edited, as long as no base is joined that has a field of the same role.
-/

namespace Metamodel.Idl

open Step (ensures_bind ensures_query ensures_ask)
open Repository (Unedited)

variable {limits : Limits} {r r' r'' : Repository (system limits)} {m : ModelId} {role : String}
  {name : String} {kind : Kind}

/-! ## Members and their fields -/

/-- The field of a role has the form of the member that is declared under it. -/
def Determined (r : Repository (system limits)) (m : ModelId) (role : String) : Prop :=
  ∀ member, (Entry.members (r.entriesOf m)).get? role = some member →
    ∃ v form, r.templateField? m role = some v ∧
      r.memberForm member.datatype role member.qualifiers = .ok form ∧ r.HasForm form v

/-- Only structures and unions declare members, and these have different roles. -/
structure Listed (r : Repository (system limits)) (m : ModelId) : Prop where
  nodup : (Entry.members (r.entriesOf m)).keys.Nodup
  kind : ∀ {role}, r.Declares m role → r.kindOf? m = some .struct ∨ r.kindOf? m = some .union

/-- What the definition of a member leaves. -/
structure Defined (r : Repository (system limits)) (m : ModelId) (member : Member)
    (r' : Repository (system limits)) : Prop where
  kind : r.kindOf? m = some .struct ∨ r.kindOf? m = some .union
  edited : r.Edited (· = m) (· = m) r'
  entries : r'.entriesOf m = Entry.define member (r.entriesOf m)
  value : ∃ v form, r'.memberForm member.datatype member.role member.qualifiers = .ok form ∧
    r'.HasForm form v ∧ ∀ k, r'.templateField? m k =
      if member.role = k then some v else r.templateField? m k

theorem Defined.upholds {member : Member} (h : Defined r m member r') : Upholds r r' :=
  upholds_of_edited h.edited h.kind (by rw [h.entries, Entry.findSome?_scalar?_define])

theorem defineMember_defined (h : r.Consistent) {template : ObjectId}
    (hm : r.canonicalModel template = .ok m)
    (hkind : r.kindOf? m = some .struct ∨ r.kindOf? m = some .union) (member : Member) :
    (Step.defineMember template member).Ensures r
      (fun _ r' => r'.Consistent ∧ Defined r m member r') fun _ r' => r' = r := by
  have hfields := Step.defineMember_fields_of h.wellFormed hm member
    (Step.createRoleInstance_hasForm h.wellFormed member.datatype member.role member.qualifiers)
    fun hpreserves hv => hv.imp fun _ hform => hform.imp_right fun hv => hv.preserves hpreserves
  refine ((Step.defineMember_ensures h template member).and hfields).imp ?_ fun _ _ h' => h'.1.1
  rintro _ r' ⟨hconsistent, hedited, hentries, v, ⟨form, hform, hv⟩, hfields⟩
  have hup : Upholds r r' :=
    upholds_of_edited hedited hkind (by rw [hentries, Entry.findSome?_scalar?_define])
  exact ⟨hconsistent, hkind, hedited, hentries, v, form, hup.memberForm h.wellFormed hform, hv,
    hfields⟩

theorem determined_of_memberless (hnone : Entry.members (r.entriesOf m) = Table.empty) :
    Determined r m role := by
  intro member hmember
  rw [hnone] at hmember
  simp at hmember

namespace Determined

/-- A member keeps its field while it is declared as it was. -/
theorem keep (h : Determined r m role) (hr : r.WellFormed) (hr' : Upholds r r')
    (hmembers : (Entry.members (r'.entriesOf m)).get? role =
      (Entry.members (r.entriesOf m)).get? role)
    (hfield : r.Declares m role → r'.templateField? m role = r.templateField? m role) :
    Determined r' m role := by
  intro member hmember
  rw [hmembers] at hmember
  obtain ⟨v, form, hv, hform, hvform⟩ := h member hmember
  have hdeclares : r.Declares m role := Entry.any_declares_of_get? hmember
  exact ⟨v, form, (hfield hdeclares).trans hv, hr'.memberForm hr hform,
    hvform.preserves hr'.preserves⟩

/-- A member that is defined gets its field, whatever was there before. -/
theorem define {member : Member} (h : member.role ≠ role → Determined r m role)
    (hr : r.WellFormed) (hr' : Defined r m member r') : Determined r' m role := by
  obtain ⟨v, form, hform, hv, hfields⟩ := hr'.value
  have hmembers : (Entry.members (r'.entriesOf m)).get? role =
      if member.role = role then some member else (Entry.members (r.entriesOf m)).get? role := by
    rw [hr'.entries, Entry.members_define, Table.get?_insert]
  by_cases hrole : member.role = role
  · intro other hother
    rw [hmembers, if_pos hrole] at hother
    obtain rfl := Option.some.inj hother
    subst hrole
    exact ⟨v, form, by rw [hfields, if_pos rfl], hform, hv⟩
  · exact (h hrole).keep hr hr'.upholds (by rw [hmembers, if_neg hrole])
      fun _ => by rw [hfields, if_neg hrole]

end Determined

theorem listed_of_memberless (hnone : Entry.members (r.entriesOf m) = Table.empty) :
    Listed r m := by
  refine ⟨by simp [hnone], fun hdeclares => ?_⟩
  rw [Repository.Declares, Entry.any_declares_iff_mem_keys, hnone] at hdeclares
  simp at hdeclares

theorem Listed.define {member : Member} (h : Listed r m) (hr' : Defined r m member r') :
    Listed r' m where
  nodup := by
    rw [hr'.entries, Entry.members_define]
    exact Table.nodup_keys_insert h.nodup _ _
  kind _ := hr'.kind.imp hr'.upholds.kindOf? hr'.upholds.kindOf?

/-! ## New datatypes -/

/-- A datatype that has been begun, and all of whose members have got their fields so far. -/
structure Settling (r : Repository (system limits)) (name : String) (kind : Kind)
    (r' : Repository (system limits)) : Prop where
  begun : Begun r name kind r'
  listed : Listed r' r.nextModel
  determined : ∀ role, Determined r' r.nextModel role

/-- Nothing is to be shown of a datatype without members. -/
theorem settling_of_memberless (h : Begun r name kind r')
    (hnone : Entry.members (r'.entriesOf r.nextModel) = Table.empty) : Settling r name kind r' where
  begun := h
  listed := listed_of_memberless hnone
  determined _ := determined_of_memberless hnone

theorem Settling.define (h : Settling r name kind r') {member : Member}
    (hr'' : Defined r' r.nextModel member r'') : Settling r name kind r'' where
  begun := h.begun.trans hr''.edited
  listed := h.listed.define hr''
  determined role := Determined.define (fun _ => h.determined role) h.begun.wellFormed hr''

theorem Settling.putQualifiers (h : Settling r name kind r')
    (hkind : kind = .struct ∨ kind = .union) (qs : List Qualifier) :
    Settling r name kind (r'.putQualifiers r.nextModel qs) := by
  have hentries := Repository.entriesOf_putQualifiers (r := r') r.nextModel r.nextModel qs
  have hbegun := h.begun.putQualifiers qs
  have hedited : r'.Edited (· = r.nextModel) (· = r.nextModel)
      (r'.putQualifiers r.nextModel qs) :=
    ⟨hbegun.wellFormed, Repository.sameBut_mapDatatype rfl fun _ => ⟨rfl, rfl, rfl⟩⟩
  have hkind' : ∀ {r'}, Begun r name kind r' →
      r'.kindOf? r.nextModel = some .struct ∨ r'.kindOf? r.nextModel = some .union := by
    intro r' h'
    rw [h'.kindOf?_eq]
    exact hkind.imp (congrArg some) (congrArg some)
  have hup := upholds_of_edited hedited (hkind' h.begun) (by rw [hentries])
  obtain ⟨-, d, hd, -⟩ := Repository.canonicalModel_eq_ok_iff.mp h.begun.canonicalModel
  refine ⟨hbegun, ⟨hentries ▸ h.listed.nodup, fun _ => hkind' hbegun⟩, fun role => ?_⟩
  refine (h.determined role).keep h.begun.wellFormed hup (by rw [hentries]) fun _ => ?_
  exact (Repository.unedited_putQualifiers (E := fun _ => False) h.begun.wellFormed r.nextModel
    qs).field hd id role

section Constructors

variable (h : r.Consistent)

include h

/-- Members are defined after the fields of the base have been installed. -/
theorem newStruct_settling (name : String) (entries : List Entry) :
    (newStruct name entries).Ensures r (fun _ => Settling r name .struct)
      fun _ r' => r' = r ∨ Settling r name .struct r' := by
  have hempty : (r.addTemplate name Kind.struct).entriesOf r.nextModel = [] := by
    rw [Repository.entriesOf_addTemplate, if_pos rfl]
  have hconsistent := Repository.consistent_declarative.addTemplate name Kind.struct h
  have hbegun := Begun.start h.wellFormed name Kind.struct
  have hstart : Settling r name .struct (r.addTemplate name Kind.struct) :=
    settling_of_memberless hbegun (by rw [hempty]; rfl)
  refine (newStruct_ensures (P := fun r' => r'.Consistent ∧ Settling r name .struct r')
    (fun _ h' => h'.2.begun) ⟨hconsistent, hstart⟩ (fun _ _ => Or.inl rfl) (fun b hb => ?_)
    (fun member _ _ r' h' => ?_) fun r' qs h' => ⟨?_, h'.2.putQualifiers (Or.inl rfl) qs⟩).imp
      (fun _ _ h' => h'.2) fun _ _ h' => h'
  · have hkind : ∀ b', some b = some b' →
        (r.addTemplate name Kind.struct).kind? b' = some Kind.struct := by
      intro b' heq
      obtain rfl := Option.some.inj heq
      exact Repository.kind?_addTemplate hb
    refine (setBase_rebased hconsistent hbegun.canonicalModel hkind).imp ?_ ?_
    · rintro _ r' ⟨hconsistent', hrebased, -⟩
      refine ⟨hconsistent', settling_of_memberless (hbegun.trans hrebased.edited) ?_⟩
      rw [hrebased.entries, Entry.members_rebase, hempty]
      rfl
    · rintro _ r' rfl
      exact Or.inr hstart
  · refine (defineMember_defined h'.1 h'.2.begun.canonicalModel (Or.inl h'.2.begun.kindOf?_eq)
      member).imp (fun _ _ h'' => ⟨h''.1, h'.2.define h''.2⟩) ?_
    rintro _ r'' rfl
    exact Or.inr h'.2
  · exact Repository.consistent_declarative.putQualifiers _ qs h'.1

theorem newUnion_settling (name : String) (discriminator : ObjectId) (entries : List Entry) :
    (newUnion name discriminator entries).Ensures r (fun _ => Settling r name .union)
      fun _ r' => r' = r ∨ Settling r name .union r' := by
  refine (newUnion_ensures (P := fun r' => r'.Consistent ∧ Settling r name .union r')
    (fun _ h' => h'.2.begun) (fun _ => Or.inl rfl) (fun hbegun => ?_)
    (fun member _ _ r' h' => ?_) (fun r' qs h' => ⟨?_, h'.2.putQualifiers (Or.inr rfl) qs⟩)
      h.wellFormed).imp (fun _ _ h' => h'.2) fun _ _ h' => h'
  · -- The discriminator is no member.
    refine (updateInstances_discriminator h name discriminator hbegun).imp ?_ fun _ _ h' => h'.elim
    rintro _ r' ⟨hconsistent, hbegun', hentries⟩
    exact ⟨hconsistent, settling_of_memberless hbegun' (by rw [hentries]; rfl)⟩
  · refine (defineMember_defined h'.1 h'.2.begun.canonicalModel (Or.inr h'.2.begun.kindOf?_eq)
      member).imp (fun _ _ h'' => ⟨h''.1, h'.2.define h''.2⟩) ?_
    rintro _ r'' rfl
    exact Or.inr h'.2
  · exact Repository.consistent_declarative.putQualifiers _ qs h'.1

omit h in
/-- A property of a datatype that has been begun and declares no member. -/
theorem begins_memberless (hr : r.WellFormed) (name : String) (kind : Kind) :
    Begins r name kind fun r' => Begun r name kind r' ∧
      Entry.members (r'.entriesOf r.nextModel) = Table.empty where
  begun h' := h'.1
  start := by
    refine ⟨.start hr name kind, ?_⟩
    rw [Repository.entriesOf_addTemplate, if_pos rfl]
    rfl
  append {r'} entry hentry h' := by
    obtain ⟨-, d, hd, -⟩ := Repository.canonicalModel_eq_ok_iff.mp h'.1.canonicalModel
    refine ⟨Repository.Edited.mapEntries h'.1 rfl _, ?_⟩
    rw [Repository.entriesOf_mapEntries hd, Entry.members_append hentry, h'.2]

end Constructors

/-- The leaves of its enumerators are no members of an enumeration. -/
theorem newEnum_settling (hr : r.WellFormed) (name : String)
    (enumerators : List (String × Option Int64)) :
    (newEnum name enumerators).Ensures r (fun _ => Settling r name .enum) fun _ r' => r' = r := by
  refine (newEnum_ensures (begins_memberless hr name Kind.enum) fun r' h' role scalar => ?_).imp
    (fun _ _ h' => settling_of_memberless h'.1 h'.2) fun _ _ h' => h'
  obtain ⟨-, d, hd, -⟩ := Repository.canonicalModel_eq_ok_iff.mp h'.1.canonicalModel
  refine (updateInstances_leaf h'.1.wellFormed hd role ?_).imp (fun _ r'' hr'' => ?_) fun _ _ h => h
  · rfl
  · refine ⟨h'.1.trans hr''.weaken, ?_⟩
    rw [hr''.sameBut.entriesOf hd (by simp), h'.2]

/-! ## Operations -/

/-- An operation by which a structure, a union, an enumeration, an alias or a constant is made, or
by which one of these is edited, instantiated or used. -/
def Operation.Builds : Operation → Prop
  | newStruct _ _ => True
  | newUnion _ _ _ => True
  | newEnum _ _ => True
  | newTypedef _ _ _ => True
  | newConstant _ _ _ => True
  | defineMember _ _ => True
  | setBase _ _ => True
  | repository (.removeMember _ _) => True
  | repository (.newInstance _ _ _) => True
  | repository (.element _ _) => True
  | _ => False

/-- What such an operation can do to members and their fields. -/
inductive Change (r : Repository (system limits)) :
    Operation → Repository (system limits) → Prop where
  | untouched {operation r'} (hr' : r.Unedited (fun _ => False) r') : Change r operation r'
  | made {operation r'} (hr' : r.Unedited (· = r.nextModel) r') (hlisted : Listed r' r.nextModel)
      (hdetermined : ∀ role, Determined r' r.nextModel role) : Change r operation r'
  | defined {template member m r'} (hm : r.canonicalModel template = .ok m)
      (hok : ((defineMember template member).run r).answer = .ok ()) (hr' : Defined r m member r') :
      Change r (.defineMember template member) r'
  | removed {template role m r'} (hr' : r.Unedited (· = m) r')
      (hentries : r'.entriesOf m = Entry.remove role (r.entriesOf m))
      (hfields : ∀ k, r'.templateField? m k =
        if role = k then none else r.templateField? m k) :
      Change r (.repository (.removeMember template role)) r'
  | rebased {template base m target r'} (hm : r.canonicalModel template = .ok m)
      (hok : ((setBase template base).run r).answer = .ok ())
      (htarget : base.mapM (structTarget (r.label template) · r) = .ok target)
      (hr' : Step.Rebased m target r r') : Change r (.setBase template base) r'

/-- Nothing that such an operation does changes what the value of a member is. -/
structure Changed (r : Repository (system limits)) (operation : Operation)
    (r' : Repository (system limits)) : Prop where
  upholds : Upholds r r'
  change : Change r operation r'

section Changed

variable {operation : Operation}

theorem changed_self (hr : r.WellFormed) : Changed r operation r :=
  ⟨.refl hr, .untouched (.refl r)⟩

theorem Settling.changed (h : Settling r name kind r') (hr : r.WellFormed)
    (hkind : (system limits).isCollection kind = false) : Changed r operation r' :=
  ⟨h.begun.upholds hkind,
    .made (h.begun.sameBut.unedited hr fun _ => or_self_iff.mp) h.listed h.determined⟩

/-- A constructor makes a datatype whose members have got their fields, or is refused. -/
theorem changed_of_settling {x : Step (system limits) ObjectId} (hr : r.WellFormed)
    (hkind : (system limits).isCollection kind = false)
    (hx : x.Ensures r (fun _ => Settling r name kind)
      fun _ r' => r' = r ∨ Settling r name kind r') :
    Changed r operation (x.run r).repo := by
  refine (hx.imp (fun _ _ h' => h'.changed hr hkind) ?_).repo
  rintro _ r' (rfl | h')
  · exact changed_self hr
  · exact h'.changed hr hkind

variable (h : r.Consistent)

include h

/-- A definition that is not refused is one of a member of a canonical template. -/
theorem defineMember_ensures_defined (template : ObjectId) (member : Member) :
    (defineMember template member).Ensures r
      (fun _ r' => ∃ m, r.canonicalModel template = .ok m ∧ Defined r m member r')
      fun _ r' => r' = r := by
  refine defineMember_ensures (fun _ => ?_) fun hkind => ?_
  · rfl
  · refine Step.ensures_canonical (fun _ => rfl) fun m hm => ?_
    rw [← Repository.kindOf?_of_canonicalModel hm] at hkind
    exact (defineMember_defined h hm (hkind.imp_right And.left) member).imp
      (fun _ _ h' => ⟨m, hm, h'.2⟩) fun _ _ h' => h'

theorem defineMember_changed (template : ObjectId) (member : Member) :
    Changed r (.defineMember template member) ((defineMember template member).run r).repo := by
  refine (((defineMember_ensures_defined h template member).and (Step.ensures_answer _ _)).imp
    ?_ ?_).repo
  · rintro _ r' ⟨⟨m, hm, hr'⟩, hok⟩
    exact ⟨hr'.upholds, .defined hm hok hr'⟩
  · rintro _ r' ⟨rfl, -⟩
    exact changed_self h.wellFormed

theorem removeMember_changed (hlisted : ∀ m, Listed r m) (template : ObjectId) (role : String) :
    Changed r (.repository (.removeMember template role))
      ((Step.removeMember template role).run r).repo := by
  refine Step.Ensures.repo ?_
  refine Step.ensures_canonical (fun _ => changed_self h.wellFormed) fun m hm => ?_
  refine ((Step.allOrNothing_removeMember h template role).and
    (Step.removeMember_fields h.wellFormed hm role)).imp ?_ ?_
  · rintro _ r' ⟨-, rfl | ⟨hdeclares, hedited, hentries, hfields⟩⟩
    · exact changed_self h.wellFormed
    · refine ⟨upholds_of_edited hedited ((hlisted m).kind hdeclares) ?_,
        .removed (hedited.unedited h.wellFormed) hentries hfields⟩
      rw [hentries, Entry.findSome?_scalar?_remove]
  · rintro _ r' ⟨rfl, -⟩
    exact changed_self h.wellFormed

theorem setBase_changed (template : ObjectId) (base : Option ObjectId) :
    Changed r (.setBase template base) ((setBase template base).run r).repo := by
  have hrebased : (setBase template base).Ensures r
      (fun _ r' => ∃ target, base.mapM (structTarget (r.label template) · r) = .ok target ∧
        ∃ m, r.canonicalModel template = .ok m ∧ r.kindOf? m = some Kind.struct ∧
          Step.Rebased m target r r') fun _ r' => r' = r :=
    setBase_ensures_canonical fun m target hm hstruct hkind =>
      (setBase_rebased h hm hkind).imp (fun _ _ h' => ⟨hstruct, h'.2.1⟩) fun _ _ h' => h'
  refine ((hrebased.and (Step.ensures_answer _ _)).imp ?_ ?_).repo
  · rintro _ r' ⟨⟨target, htarget, m, hm, hstruct, hr'⟩, hok⟩
    refine ⟨upholds_of_edited hr'.edited (Or.inl hstruct) ?_, .rebased hm hok htarget hr'⟩
    rw [hr'.entries, Entry.findSome?_scalar?_rebase]
  · rintro _ r' ⟨rfl, -⟩
    exact changed_self h.wellFormed

omit h in
theorem growing_upholds (r : Repository (system limits)) : Repository.Growing (Upholds r) where
  wellFormed h := h.wellFormed
  grew h hr' := h.trans (upholds_of_grew hr')

theorem Operation.changed (hlisted : ∀ m, Listed r m) (hop : operation.Builds) :
    Changed r operation (operation.perform r) := by
  have hr := h.wellFormed
  cases operation with
  | newStruct name entries => exact changed_of_settling hr rfl (newStruct_settling h name entries)
  | newUnion name discriminator entries =>
    exact changed_of_settling hr rfl (newUnion_settling h name discriminator entries)
  | newEnum name enumerators =>
    exact changed_of_settling hr rfl
      ((newEnum_settling hr name enumerators).imp (fun _ _ h' => h') fun _ _ h' => Or.inl h')
  | newTypedef name target qualifiers =>
    have hmade := newTypedef_ensures (begins_memberless hr name Kind.typedef) target qualifiers
    exact changed_of_settling hr rfl
      (hmade.imp (fun _ _ h' => settling_of_memberless h'.1 h'.2) fun _ _ h' => Or.inl h')
  | newConstant name datatype value =>
    have hmade := newConstant_ensures (begins_memberless hr name Kind.const) datatype value
    exact changed_of_settling hr rfl
      (hmade.imp (fun _ _ h' => settling_of_memberless h'.1 h'.2) fun _ _ h' => Or.inl h')
  | defineMember template member => exact defineMember_changed h template member
  | setBase template base => exact setBase_changed h template base
  | repository inner =>
    have hself : r.WellFormed ∧ r.Unedited (fun _ => False) r := ⟨hr, .refl r⟩
    cases inner with
    | removeMember template role => exact removeMember_changed h hlisted template role
    | newInstance template under owned =>
      exact ⟨(Step.keeps_newInstance (growing_upholds r) template under owned).repo (.refl hr),
        .untouched ((Step.keeps_newInstance (growing_unedited r) template under owned).repo
          hself).2⟩
    | element id index =>
      refine ⟨(Step.keeps_element (growing_upholds r) (fun id index v h' hgrew _ => ?_)
          id index).repo (.refl hr),
        .untouched ((Step.keeps_element (growing_unedited r) (fun id index v h' hgrew _ => ?_)
          id index).repo hself).2⟩
      · have hgrown := (growing_upholds r).grew h' hgrew
        exact hgrown.trans (upholds_writeElement hgrown.wellFormed id index v)
      · have hgrown := (growing_unedited r).grew h' hgrew
        exact ⟨hgrown.1.writeElement id index v,
          hgrown.2.trans (Repository.unedited_writeElement hgrown.1 id index v)⟩
    | _ => exact hop.elim
  | _ => exact hop.elim

end Changed

/-! ## What an operation keeps -/

theorem Operation.Builds.retains {operation : Operation} (hop : operation.Builds) :
    operation.Retains r := by
  cases operation with
  | repository inner =>
    cases inner with
    | removeMember | newInstance | element => exact ⟨trivial, fun id => by simp⟩
    | _ => exact hop.elim
  | newTag | newModule | addToModule => exact hop.elim
  | _ => exact ⟨trivial, fun id => by simp⟩

/-- A datatype whose declarations become fewer, or stay, is listed as it was. -/
theorem Listed.mono (h : Listed r m) (hr' : Upholds r r')
    (hnodup : (Entry.members (r'.entriesOf m)).keys.Nodup)
    (hdeclares : ∀ {role}, r'.Declares m role → r.Declares m role) : Listed r' m where
  nodup := hnodup
  kind hdecl := (h.kind (hdeclares hdecl)).imp hr'.kindOf? hr'.kindOf?

/-- A repository from which nothing has been released, and whose declarations are in order. -/
structure Settled (r : Repository (system limits)) : Prop where
  consistent : r.Consistent
  unreleased : r.Unreleased
  listed : ∀ m, Listed r m

theorem Operation.perform_settled (h : Settled r) {operation : Operation}
    (hop : operation.Builds) : Settled (operation.perform r) := by
  refine ⟨Operation.perform_consistent h.consistent hop.retains.1,
    Operation.perform_unreleased h.unreleased hop.retains, fun n => ?_⟩
  obtain ⟨hup, hchange⟩ := Operation.changed h.consistent h.listed hop
  generalize operation.perform r = r' at hup hchange ⊢
  have hother : ∀ {E : ModelId → Prop}, r.Unedited E r' → ¬ E n → Listed r' n := fun hr' hn =>
    (h.listed n).mono hup (hr'.entries hn ▸ (h.listed n).nodup) (hr'.declares_iff hn _).mp
  cases hchange with
  | untouched hr' => exact hother hr' id
  | made hr' hlisted =>
    by_cases hn : n = r.nextModel
    · exact hn ▸ hlisted
    · exact hother hr' hn
  | @defined _ _ m _ _ _ hr' =>
    by_cases hn : n = m
    · exact hn ▸ (h.listed m).define hr'
    · exact hother (hr'.edited.unedited h.consistent.wellFormed) hn
  | @removed _ role m _ hr' hentries =>
    by_cases hn : n = m
    · subst hn
      refine (h.listed n).mono hup ?_ fun {k} hdeclares => ?_
      · rw [hentries, Entry.members_remove]
        exact Table.nodup_keys_erase (h.listed n).nodup role
      · rw [Repository.Declares, hentries] at hdeclares
        by_cases hk : role = k
        · simp [hk, Entry.any_declares_remove] at hdeclares
        · rwa [Entry.any_declares_remove_of_ne hk] at hdeclares
    · exact hother hr' hn
  | @rebased _ _ m target _ _ _ _ hr' =>
    by_cases hn : n = m
    · subst hn
      refine (h.listed n).mono hup ?_ fun {k} hdeclares => ?_
      · rw [hr'.entries, Entry.members_rebase]
        exact (h.listed n).nodup
      · rw [Repository.Declares, hr'.entries] at hdeclares
        exact Entry.any_declares_rebase hdeclares
    · exact hother (hr'.edited.unedited h.consistent.wellFormed) hn

/-- The rule under which a member keeps its field: no base is joined that has a field of its role.
-/
def Operation.Spares (m : ModelId) (role : String) (r : Repository (system limits))
    (operation : Operation) : Prop :=
  operation.Builds ∧ ∀ template base, operation = .setBase template base →
    operation.Gives r m role → ¬ r.Declares m role

theorem Operation.perform_determined (h : Settled r) (hm : Determined r m role)
    {operation : Operation} (hrule : operation.Spares m role r) :
    Determined (operation.perform r) m role := by
  have hr := h.consistent.wellFormed
  obtain ⟨hop, hspares⟩ := hrule
  obtain ⟨hup, hchange⟩ := Operation.changed h.consistent h.listed hop
  generalize operation.perform r = r' at hup hchange ⊢
  have hother : ∀ {E : ModelId → Prop}, r.Unedited E r' → ¬ E m → Determined r' m role := by
    intro E hr' hE
    refine hm.keep hr hup (by rw [hr'.entries hE]) fun hdeclares => ?_
    obtain ⟨d, hd⟩ := hdeclares.datatype
    exact hr'.field hd hE role
  cases hchange with
  | untouched hr' => exact hother hr' id
  | made hr' _ hdetermined =>
    by_cases hk : m = r.nextModel
    · exact hk ▸ hdetermined role
    · exact hother hr' hk
  | @defined _ _ k _ _ _ hr' =>
    by_cases hk : m = k
    · subst hk
      exact Determined.define (fun _ => hm) hr hr'
    · exact hother (hr'.edited.unedited hr) hk
  | @removed _ removed k _ hr' hentries hfields =>
    by_cases hk : m = k
    · subst hk
      by_cases hrole : removed = role
      · -- A member that has been removed is not declared.
        intro member hmember
        simp [hentries, Entry.members_remove, Table.get?_erase, hrole] at hmember
      · refine hm.keep hr hup ?_ fun _ => by rw [hfields, if_neg hrole]
        rw [hentries, Entry.members_remove, Table.get?_erase, if_neg hrole]
    · exact hother hr' hk
  | @rebased template base k target _ hcanonical hok htarget hr' =>
    by_cases hk : m = k
    · subst hk
      refine hm.keep hr hup (by rw [hr'.entries, Entry.members_rebase]) fun hdeclares => ?_
      refine hr'.kept (fun hrole => ?_) fun _ => hdeclares
      exact hspares template base rfl ⟨hcanonical, hok, target, htarget, hrole⟩ hdeclares
    · exact hother (hr'.edited.unedited hr) hk

/-! ## Runs -/

theorem settled_initial : Settled (initial limits) where
  consistent := initial_of_empty Repository.consistent_declarative Repository.consistent_empty
  unreleased := unreleased_initial
  listed m := listed_of_memberless (by rw [entriesOf_initial]; rfl)

/-- The datatype has just been made, or has just got a member of that role. -/
def Operation.Defines (r : Repository (system limits)) (m : ModelId) (role : String) :
    Operation → Prop
  | newStruct _ _ => m = r.nextModel
  | newUnion _ _ _ => m = r.nextModel
  | defineMember template member => r.canonicalModel template = .ok m ∧
    ((Idl.defineMember template member).run r).answer = .ok () ∧ member.role = role
  | _ => False

theorem Operation.Defines.builds {operation : Operation} (hdefines : operation.Defines r m role) :
    operation.Builds := by
  cases operation with
  | newStruct | newUnion | defineMember => exact trivial
  | _ => exact hdefines.elim

theorem Operation.perform_defines (h : Settled r) {operation : Operation}
    (hdefines : operation.Defines r m role) : Determined (operation.perform r) m role := by
  -- A declaration that was refused has left nothing, or members with their fields.
  have hmade : ∀ {name kind} {x : Step (system limits) ObjectId},
      x.Ensures r (fun _ => Settling r name kind)
        (fun _ r' => r' = r ∨ Settling r name kind r') →
      Determined (x.run r).repo r.nextModel role := by
    intro name kind x hx
    refine (hx.imp (fun _ _ h' => h'.determined role) ?_).repo
    rintro _ r' (rfl | h')
    · have hnil : r'.entriesOf r'.nextModel = [] := Repository.entriesOf_eq_nil fun d hd =>
        Repository.ne_nextModel hd rfl
      exact determined_of_memberless (by rw [hnil]; rfl)
    · exact h'.determined role
  cases operation with
  | newStruct name entries =>
    obtain rfl := hdefines
    exact hmade (newStruct_settling h.consistent name entries)
  | newUnion name discriminator entries =>
    obtain rfl := hdefines
    exact hmade (newUnion_settling h.consistent name discriminator entries)
  | defineMember template member =>
    obtain ⟨hm, hok, hrole⟩ := hdefines
    obtain ⟨k, hk, hr'⟩ := (defineMember_ensures_defined h.consistent template
      member).ok_of_answer hok
    obtain rfl : m = k := Except.ok.inj (hm.symm.trans hk)
    exact Determined.define (fun hne => (hne hrole).elim) h.consistent.wellFormed hr'
  | _ => exact hdefines.elim

/-- Since a datatype has been made or has got a member, let no base have been joined that has a
field of the member's role. Then the datatype has a field of that role, and this looks as a value
does that is made now for the member; that one is made is never refused. -/
theorem determined_of_reached {r₀ : Repository (system limits)} {define : Operation}
    {member : Member}
    (h₀ : Reached Operation.perform (fun _ operation => operation.Builds) (initial limits) r₀)
    (hdefines : define.Defines r₀ m member.role)
    (h : Reached Operation.perform (Operation.Spares m member.role) (define.perform r₀) r)
    (hmember : .member member ∈ r.entriesOf m) :
    ∃ v w image, r.templateField? m member.role = some v ∧
      ((Step.createRoleInstance member.datatype member.role member.qualifiers).run r).answer =
        .ok w ∧ r.snapshot v = .ok image ∧
      ((Step.createRoleInstance member.datatype member.role member.qualifiers).run
        r).repo.snapshot w = .ok image := by
  have hstart : Settled r₀ := h₀.invariant settled_initial fun _ _ hr hop =>
    Operation.perform_settled hr hop
  obtain ⟨hr, hdetermined⟩ := h.invariant (P := fun r => Settled r ∧ Determined r m member.role)
    ⟨Operation.perform_settled hstart hdefines.builds, Operation.perform_defines hstart hdefines⟩
    fun _ _ hr hrule => ⟨Operation.perform_settled hr.1 hrule.1,
      Operation.perform_determined hr.1 hr.2 hrule⟩
  obtain ⟨v, form, hv, hform, hvform⟩ :=
    hdetermined member (Entry.get?_members (hr.listed m).nodup hmember)
  obtain ⟨w, image, hw⟩ := hr.consistent.looksLikeNew hr.unreleased.hasContents hform hvform
  exact ⟨v, w, image, hv, hw⟩

/-- A structure declares a member that its base has too. Then the datatype of the member is edited,
and the base is left. -/
theorem determined_after_edits :
    let points := "Points"
    let r₀ := Operation.run (initial ⟨4, 4⟩)
      [.newStruct "Point" [.member ⟨"a", Atom.long.template, [], []⟩],
        .newTypedef points ⟨21⟩ [sequence (.size 3)],
        .newStruct "B" [.member ⟨"x", Atom.long.template, [], []⟩]]
    let x : Member := ⟨"x", ⟨22⟩, [], []⟩
    let define := Operation.newStruct "D" [.type ⟨23⟩, .member x]
    let r₁ := define.perform r₀
    let r₂ := Operation.perform r₁ (.defineMember ⟨21⟩ ⟨"b", Atom.short.template, [], []⟩)
    let r := Operation.perform r₂ (.setBase ⟨24⟩ none)
    r.entriesOf ⟨24⟩ = [.member x] ∧
      ∃ v w image, r.templateField? ⟨24⟩ "x" = some v ∧
        ((Step.createRoleInstance ⟨22⟩ "x" []).run r).answer = .ok w ∧ r.snapshot v = .ok image ∧
        ((Step.createRoleInstance ⟨22⟩ "x" []).run r).repo.snapshot w = .ok image := by
  intro points r₀ x define r₁ r₂ r
  have hentries : r.entriesOf ⟨24⟩ = [.member x] := by decide +kernel
  have hnew : (⟨24⟩ : ModelId) = ⟨r₀.models.size⟩ := by decide +kernel
  have h₀ : Reached Operation.perform (fun _ operation => operation.Builds) (initial ⟨4, 4⟩)
      r₀ := by
    simp only [r₀, Operation.run, List.foldl_cons, List.foldl_nil]
    exact .next (.next (.next .start trivial) trivial) trivial
  clear_value r₀
  have hdefine : Operation.Spares ⟨24⟩ "x" r₁
      (.defineMember ⟨21⟩ ⟨"b", Atom.short.template, [], []⟩) := ⟨trivial, by simp⟩
  have hleave : Operation.Spares ⟨24⟩ "x" r₂ (.setBase ⟨24⟩ none) := by
    refine ⟨trivial, ?_⟩
    -- No base has no field.
    rintro template base - ⟨-, -, target, htarget, hrole⟩
    obtain rfl := Except.ok.inj htarget
    simp at hrole
  have hdefines : define.Defines r₀ ⟨24⟩ x.role := hnew
  have h : Reached Operation.perform (Operation.Spares ⟨24⟩ x.role) (define.perform r₀) r :=
    .next (.next .start hdefine) hleave
  have hmember : Entry.member x ∈ r.entriesOf ⟨24⟩ := by simp [hentries]
  -- How the state has been reached is not needed any more.
  clear_value r
  exact ⟨hentries, determined_of_reached h₀ hdefines h hmember⟩

/-- A structure gets a base with a field of a role that the structure declares, and what it declares
as a leaf becomes a collection. -/
theorem overwritten_field :
    let x : Member := ⟨"x", Atom.long.template, [], []⟩
    let r₀ := Operation.run (initial ⟨4, 4⟩)
      [.newStruct "B" [.member ⟨"x", Atom.long.template, [sequence (.size 3)], []⟩],
        .newStruct "S" [.member x]]
    let r := Operation.perform r₀ (.setBase ⟨23⟩ (some ⟨21⟩))
    Reached Operation.perform (fun _ operation => operation.Builds) (initial ⟨4, 4⟩) r ∧
      .member x ∈ r.entriesOf ⟨23⟩ ∧ r₀.templateField? ⟨23⟩ "x" = some (.accessor "x") ∧
      r.templateField? ⟨23⟩ "x" = some (.collection ⟨24⟩) ∧
      ((Step.createRoleInstance x.datatype x.role x.qualifiers).run r).answer =
        .ok (.accessor "x") ∧
      ∀ path, r.snapshot (.collection ⟨24⟩) ≠ .ok (.accessor path) := by
  intro x r₀ r
  have hentries : r.entriesOf ⟨23⟩ = [.type ⟨21⟩, .member x] := by decide +kernel
  have hbefore : r₀.templateField? ⟨23⟩ "x" = some (.accessor "x") := by decide +kernel
  have hafter : r.templateField? ⟨23⟩ "x" = some (.collection ⟨24⟩) := by decide +kernel
  have hanswer : ((Step.createRoleInstance x.datatype x.role x.qualifiers).run r).answer =
      .ok (.accessor "x") := by decide +kernel
  have hlayers : r.layers ⟨24⟩ =
      .ok ([⟨"x", Atom.long.template, some 3, .template, ⟨24⟩⟩], Atom.long.template) := by
    decide +kernel
  have h₀ : Reached Operation.perform (fun _ operation => operation.Builds) (initial ⟨4, 4⟩)
      r₀ := by
    simp only [r₀, Operation.run, List.foldl_cons, List.foldl_nil]
    exact .next (.next .start trivial) trivial
  clear_value r₀
  refine ⟨.next h₀ trivial, by simp [hentries], hbefore, hafter, hanswer, fun path heq => ?_⟩
  obtain ⟨layers, hok, heq⟩ := bind_eq_ok_iff.mp heq
  obtain rfl := Except.ok.inj (hlayers.symm.trans hok)
  obtain ⟨inner, -, heq⟩ := bind_eq_ok_iff.mp heq
  simp at heq

end Metamodel.Idl
