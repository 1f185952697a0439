import Metamodel.Proofs.Installing
import Metamodel.Proofs.Rejection

/-!
# Metamodel.Proofs.Discerning -- properties that tell the kinds of datatypes apart

What the facade does to a datatype depends on its kind: only structures and unions get members, and
only structures a base; enumerations get plain leaves; modules only list what is put into them.
`Discerning P` says that a property of repositories is kept by each of these changes, with the kind
that it is made at. Each constructor and edit is walked through here once for every such property.
-/

namespace Metamodel

variable {κ : Type} {ts : TypeSystem κ}

/-- A leaf has no instances besides its template. -/
theorem Repository.WellFormed.otherInstances_eq_nil {r : Repository ts} (hr : r.WellFormed)
    {m : ModelId} {d : Datatype κ} (hd : r.model? m = some (.datatype d))
    (hleaf : ts.isLeaf d.kind = true) :
    Step.otherInstances (.datatype d) d.template = [] := by
  refine List.eq_nil_iff_forall_not_mem.mpr fun target htarget => ?_
  obtain ⟨f, ho, hno⟩ := Step.noTemplate_of_otherInstances hr hd htarget
  rcases hr.instance_kind ho hd with htemplate | ⟨-, -, hnot⟩
  · exact hno m d hd htemplate.symm
  · simp [hleaf] at hnot

namespace Step

/-- Fields are removed from the instances one after the other. -/
theorem keeps_propagate_none {P : Repository ts → Prop} {role : String}
    (hset : ∀ id, Keeps P (setField id role none)) (targets : List (ObjectId × String)) :
    Keeps P (propagate role none targets) := by
  induction targets with
  | nil => exact keeps_pure 0
  | cons target rest ih =>
    refine (keeps_ask _).bind fun isLive => ?_
    split
    · refine ⟨fun r h => ?_⟩
      rw [ensures_bind, ensures_pure]
      exact ((hset target.1).bind fun _ => ih.bind fun _ => keeps_pure _).ensures r h
    · exact ih

end Step

namespace Idl

open Step (Installs Keeps Made ensures_bind ensures_query ensures_ask ensures_edit ensures_note
  ensures_pure)

variable {limits : Limits}

/-- Lists a datatype in a namespace, once. -/
def listed (child : ObjectId) (entries : List Entry) : List Entry :=
  if entries.contains (.type child) then entries else entries ++ [.type child]

/-- A property that is kept by what is built, where the kind of a datatype may matter. -/
structure Discerning (P : Repository (system limits) → Prop) : Prop
    extends Repository.Growing P where
  addTemplate : ∀ {r} name kind, P r → P (r.addTemplate name kind)
  putQualifiers : ∀ {r} m qs, P r → P (r.putQualifiers m qs)
  /-- The declaration of anything but a module may change in any way. -/
  mapEntries : ∀ {r m kind} f, kind ≠ .module → P r → r.kindOf? m = some kind →
    P (r.mapEntries m f)
  removeEntry : ∀ {r} m role, P r → P (r.mapEntries m (Entry.remove role))
  /-- Structures and unions may come to hold whatever has been made. -/
  write : ∀ {r r' m x f v} role, P r → Step.Grew r r' → Repository.Loose r r' v →
    r'.kindOf? m = some .struct ∨ r'.kindOf? m = some .union →
    r'.object? x = some (.composite m f) → P (r'.writeField x role (some v))
  leaf : ∀ {r} x role {v}, v.object? = none → P r → P (r.writeField x role (some v))
  erase : ∀ {r} x role, P r → P (r.writeField x role none)
  /-- A datatype goes into no namespace. -/
  release : ∀ {r} m, P r → P (r.putScope m none)
  /-- A datatype goes into a module, which lists it. -/
  enclose : ∀ {r child scope n k}, P r → r.canonicalModel child = .ok n →
    r.canonicalModel scope = .ok k → r.kindOf? k = some .module →
    P ((r.putScope n (some k)).mapEntries k (listed child))
  writeElement : ∀ {r} id index v, P r → P (r.writeElement id index v)
  free : ∀ {r id}, P r → r.NoTemplate id → P (r.free id)

variable {P : Repository (system limits) → Prop} {r : Repository (system limits)} {m : ModelId}
  {template : ObjectId}

namespace Discerning

variable (hP : Discerning P)

include hP

/-! ## Fields -/

theorem installs {kind : Kind} (hkind : kind = .struct ∨ kind = .union) (role : String) :
    Installs (fun r => P r ∧ r.kindOf? m = some kind) m role := by
  have hgrew : ∀ {r r' : Repository (system limits)}, (P r ∧ r.kindOf? m = some kind) →
      Made true r r' → P r' ∧ r'.kindOf? m = some kind := by
    rintro r r' ⟨h, hk⟩ hmade
    obtain ⟨d, hd, rfl⟩ := Repository.kindOf?_eq_some_iff.mp hk
    exact ⟨hP.grew h hmade.grew, (hmade.grew.2.sameBut (F := fun _ => False)
      (D := fun _ => False)).kindOf? hd⟩
  have hsame : ∀ {r : Repository (system limits)} {x value}, r.kindOf? m = some kind →
      (r.writeField x role value).kindOf? m = some kind := fun hk => by
    simpa [Repository.kindOf?] using hk
  exact {
    wellFormed := fun h => hP.wellFormed h.1
    datatype := fun h => by
      obtain ⟨d, hd, -⟩ := Repository.kindOf?_eq_some_iff.mp h.2
      exact ⟨d, hd⟩
    made := hgrew
    write := fun h hmade hv ho => by
      have hk' := (hgrew h hmade).2
      refine ⟨hP.write role h.1 hmade.grew hv ?_ (hmade.grew.2.object?_some ho), hsame hk'⟩
      rcases hkind with rfl | rfl
      · exact Or.inl hk'
      · exact Or.inr hk'
    erase := fun h _ => ⟨hP.erase _ role h.1, hsame h.2⟩ }

/-- An enumeration has no instances, so that its leaf is written into the template alone. -/
theorem updateEnum (h : P r) {d : Datatype Kind} (hd : r.model? m = some (.datatype d))
    (hkind : d.kind = .enum) (role : String) {v : Value} (hv : v.object? = none) :
    (Step.updateInstances m role (some v)).Ensures r (fun _ => P) fun _ _ => False := by
  have hr := hP.wellFormed h
  refine Step.ensures_updateInstances hr hd ?_
  rw [hr.otherInstances_eq_nil hd (by rw [hkind]; rfl)]
  exact hP.leaf d.template role hv h

theorem removeField (h : P r) {d : Datatype Kind} (hd : r.model? m = some (.datatype d))
    (role : String) :
    (Step.updateInstances m role none).Ensures r (fun _ => P) fun _ => P := by
  refine Step.ensures_updateInstances (hP.wellFormed h) hd ?_
  refine (Step.keeps_propagate_none (fun id => ⟨fun r' h' => ?_⟩) _).ensures _ (hP.erase _ role h)
  exact Step.ensures_setField h' fun _ _ _ => hP.erase id role h'

/-! ## Members and bases -/

theorem declare (h : P r) (hm : r.canonicalModel template = .ok m) {kind : Kind}
    (hkind : kind = .struct ∨ kind = .union) (hk : r.kindOf? m = some kind) (member : Member) :
    (Step.defineMember template member).Ensures r (fun _ => P) fun _ => P := by
  refine (Step.defineMember_installs hm (hP.installs hkind member.role) ?_ ⟨h, hk⟩).imp
    (fun _ _ h' => h'.1) fun _ _ h' => h'.1
  rintro r' ⟨h', hk'⟩ -
  refine ⟨hP.mapEntries _ ?_ h' hk', (Repository.kindOf?_mapEntries ..).trans hk'⟩
  rcases hkind with rfl | rfl <;> simp

theorem rebase (h : P r) (hm : r.canonicalModel template = .ok m)
    (hk : r.kindOf? m = some .struct) (base : Option ObjectId) :
    (Step.setBase template base).Ensures r (fun _ => P) fun _ => P := by
  refine (Step.setBase_installs hm (fun role => hP.installs (.inl rfl) role) ?_ ⟨h, hk⟩).imp
    (fun _ _ h' => h'.1) fun _ _ h' => h'.1
  rintro r' ⟨h', hk'⟩
  exact ⟨hP.mapEntries _ (by simp) h' hk', (Repository.kindOf?_mapEntries ..).trans hk'⟩

theorem removeMember (template : ObjectId) (role : String) :
    Keeps P (Step.removeMember template role) := by
  refine ⟨fun r h => Step.ensures_canonical (fun _ => h) fun m hm => ?_⟩
  obtain ⟨-, d, hd, -⟩ := Repository.canonicalModel_eq_ok_iff.mp hm
  simp only [ensures_bind, ensures_query, ensures_ask, hm]
  refine ⟨fun m' hm' => ?_, fun e he => by simp at he⟩
  obtain rfl := Except.ok.inj hm'
  split
  · simp only [ensures_bind, ensures_edit, ensures_note, ensures_pure]
    exact hP.removeField (hP.removeEntry m role h) (Repository.model?_mapEntries hd _) role
  · exact h

theorem defineMember (template : ObjectId) (member : Member) :
    Keeps P (Idl.defineMember template member) := by
  refine ⟨fun r h => defineMember_ensures (fun _ => h) fun hkind => ?_⟩
  refine Step.ensures_canonical (fun _ => h) fun m hm => ?_
  rw [← Repository.kindOf?_of_canonicalModel hm] at hkind
  rcases hkind with hstruct | ⟨hunion, -⟩
  · exact hP.declare h hm (.inl rfl) hstruct member
  · exact hP.declare h hm (.inr rfl) hunion member

/-- Only structures get a base. -/
theorem setBase (template : ObjectId) (base : Option ObjectId) :
    Keeps P (Idl.setBase template base) := by
  refine ⟨fun r h => (setBase_ensures (P := fun _ => P) (fun _ => h)
    fun target hstruct _ => ?_).imp ?_ fun _ _ h' => h'⟩
  · refine Step.ensures_canonical (fun _ => h) fun m hm => ?_
    exact hP.rebase h hm ((Repository.kindOf?_of_canonicalModel hm).trans hstruct) target
  · rintro _ r' ⟨-, -, h'⟩
    exact h'

/-! ## Constructors -/

/-- A datatype that is no module may be begun. -/
theorem begins (h : P r) (name : String) (kind : Kind) (hkind : kind ≠ .module) :
    Begins r name kind fun r' => Begun r name kind r' ∧ P r' where
  begun h' := h'.1
  start := ⟨.start (hP.wellFormed h) name kind, hP.addTemplate name kind h⟩
  append _ _ h' := ⟨Repository.Edited.mapEntries h'.1 rfl _,
    hP.mapEntries _ hkind h'.2 h'.1.kindOf?_eq⟩

theorem newTag (name : String) : Keeps P (Idl.newAnnotation name) :=
  (Step.keeps_newTemplate_of (hP.addTemplate name Kind.tag)).bind fun made => Step.keeps_pure made.1

theorem newStruct (name : String) (entries : List Entry) :
    Keeps P (Idl.newStruct name entries) := by
  refine ⟨fun r h => ?_⟩
  obtain ⟨hstart, hP₀⟩ := (hP.begins h name .struct (by simp)).start
  refine (newStruct_ensures (P := fun r' => Begun r name .struct r' ∧ P r') (fun _ h' => h'.1)
    ⟨hstart, hP₀⟩ (fun _ _ => h) (fun b hb => ?_) (fun member _ _ r' h' => ?_)
    fun r' qs h' => ⟨h'.1.putQualifiers qs, hP.putQualifiers _ qs h'.2⟩).imp (fun _ _ h' => h'.2)
      fun _ _ h' => h'
  · have halias : ∀ b' n, some b = some b' → (r.addTemplate name Kind.struct).modelOf? b' = some n →
        (r.addTemplate name Kind.struct).isAlias n = false := by
      rintro b' n ⟨⟩ hn
      exact isAlias_of_struct (Repository.kind?_addTemplate hb) hn
    refine ((Step.setBase_fields hstart.wellFormed hstart.canonicalModel halias).and
      (hP.rebase hP₀ hstart.canonicalModel hstart.kindOf?_eq (some b))).imp
        (fun _ _ h' => ⟨hstart.trans h'.1.edited, h'.2⟩) fun _ _ h' => h'.2
  · exact ((begun_defineMember h'.1 member).and (hP.declare h'.2 h'.1.canonicalModel (.inl rfl)
      h'.1.kindOf?_eq member)).imp (fun _ _ h => h) fun _ _ h => h.2

theorem newUnion (name : String) (discriminator : ObjectId) (entries : List Entry) :
    Keeps P (Idl.newUnion name discriminator entries) := by
  refine ⟨fun r h => ?_⟩
  have hbegins := hP.begins h name .union (by simp)
  refine (newUnion_ensures (P := fun r' => Begun r name .union r' ∧ P r') (fun _ h' => h'.1)
    (fun _ => h) (fun hbegun => ?_) (fun member _ _ r' h' => ?_)
    (fun r' qs h' => ⟨h'.1.putQualifiers qs, hP.putQualifiers _ qs h'.2⟩) (hP.wellFormed h)).imp
      (fun _ _ h' => h'.2) fun _ _ h' => h'
  · obtain ⟨-, hP₁⟩ := hbegins.append (.type discriminator) rfl hbegins.start
    obtain ⟨-, d, hd, -⟩ := Repository.canonicalModel_eq_ok_iff.mp hbegun.canonicalModel
    refine ((Step.updateInstances_updated hbegun.wellFormed hd discriminatorRole _).and
      ((hP.installs (.inr rfl) discriminatorRole).install ⟨hP₁, hbegun.kindOf?_eq⟩
        (Step.made_refl hbegun.wellFormed) (.of_leaf rfl))).imp ?_ fun _ _ h' => h'.2.1
    exact fun _ _ h' => ⟨hbegun.trans h'.1.edited.weaken, h'.2.1⟩
  · exact ((begun_defineMember h'.1 member).and (hP.declare h'.2 h'.1.canonicalModel (.inr rfl)
      h'.1.kindOf?_eq member)).imp (fun _ _ h => h) fun _ _ h => h.2

theorem newEnum (name : String) (enumerators : List (String × Option Int64)) :
    Keeps P (Idl.newEnum name enumerators) := by
  refine ⟨fun r h => (newEnum_ensures (hP.begins h name .enum (by simp))
    fun r' h' role scalar => ?_).imp (fun _ _ h' => h'.2) ?_⟩
  · obtain ⟨hbegun, hP'⟩ := h'
    obtain ⟨-, d, hd, -⟩ := Repository.canonicalModel_eq_ok_iff.mp hbegun.canonicalModel
    refine ((Step.updateInstances_updated hbegun.wellFormed hd role _).and
      (hP.updateEnum hP' hd (hbegun.kind_eq hd) role rfl)).imp ?_ fun _ _ h' => h'.2
    exact fun _ _ h' => ⟨hbegun.trans h'.1.edited.weaken, h'.2⟩
  · rintro _ r' rfl
    exact h

theorem newTypedef (name : String) (target : ObjectId) (qualifiers : List Qualifier) :
    Keeps P (Idl.newTypedef name target qualifiers) := by
  refine ⟨fun r h => (newTypedef_ensures (hP.begins h name .typedef (by simp)) target
    qualifiers).imp (fun _ _ h' => h'.2) ?_⟩
  rintro _ r' rfl
  exact h

theorem newConstant (name : String) (datatype : ObjectId) (value : Scalar) :
    Keeps P (Idl.newConstant name datatype value) := by
  refine ⟨fun r h => (newConstant_ensures (hP.begins h name .const (by simp)) datatype value).imp
    (fun _ _ h' => h'.2) ?_⟩
  rintro _ r' rfl
  exact h

/-! ## Modules -/

theorem setScope_none (template : ObjectId) : Keeps P (Step.setScope template none) := by
  refine ⟨fun r h => Step.ensures_canonical (fun _ => h) fun m hm => ?_⟩
  refine (setScope_ensures hm).imp ?_ ?_
  · rintro _ r' ⟨outer, houter, rfl⟩
    obtain rfl := Except.ok.inj houter
    exact hP.release m h
  · rintro _ r' ⟨rfl, -⟩
    exact h

/-- Two declarations are changed, and between the two changes nothing can go wrong. -/
theorem addToScope (h : P r) {scope : ObjectId} (hmodule : r.kind? scope = some .module)
    (child : ObjectId) :
    (Step.addToScope scope child).Ensures r (fun _ => P) fun _ => P := by
  rw [Step.addToScope, ensures_bind]
  refine Step.ensures_canonical (fun _ => h) fun n hn => ?_
  refine (setScope_ensures hn).imp ?_ ?_
  · rintro _ r' ⟨outer, houter, rfl⟩
    obtain ⟨k, hk, rfl⟩ : ∃ k, r.canonicalModel scope = .ok k ∧ outer = some k := by
      cases hk : r.canonicalModel scope with
      | ok k => exact ⟨k, rfl, by simpa [hk, Functor.map, Except.map] using houter.symm⟩
      | error e => simp [hk, Functor.map, Except.map] at houter
    have hsame : r.SameBut (fun _ => False) (fun _ => True) (r.putScope n (some k)) :=
      Repository.sameBut_mapDatatype trivial fun _ => ⟨rfl, rfl, rfl⟩
    simp only [ensures_bind, ensures_query, ensures_edit, hsame.canonicalModel hk]
    refine ⟨fun k' hk' => ?_, fun e he => by simp at he⟩
    obtain rfl := Except.ok.inj hk'
    exact hP.enclose h hn hk ((Repository.kindOf?_of_canonicalModel hk).trans hmodule)
  · rintro _ r' ⟨rfl, -⟩
    exact h

theorem addToModule (scope child : ObjectId) : Keeps P (Idl.addToModule scope child) := by
  refine ⟨fun r h => ?_⟩
  simp only [Idl.addToModule, ensures_bind, ensures_query]
  exact ⟨fun id hid => hP.addToScope h (Repository.kind?_of_assertKind hid) child, fun _ _ => h⟩

theorem newModule (name : String) (parent : Option ObjectId) :
    Keeps P (Idl.newModule name parent) := by
  refine ⟨fun r h => ?_⟩
  have hstart := hP.addTemplate name Kind.module h
  simp only [Idl.newModule, ensures_bind, ensures_query]
  refine ⟨fun checked hmodule => ?_, fun _ _ => h⟩
  simp only [Step.newTemplate, ensures_bind, ensures_ask, ensures_edit, ensures_note, ensures_pure]
  cases parent with
  | none => exact hstart
  | some scope =>
    obtain ⟨id, hid⟩ : ∃ id, r.assertKind Kind.module scope = .ok id := by
      cases hassert : r.assertKind Kind.module scope with
      | ok id => exact ⟨id, rfl⟩
      | error e => simp [hassert, Functor.map, Except.map] at hmodule
    rw [ensures_bind]
    exact hP.addToScope hstart (Repository.kind?_addTemplate (Repository.kind?_of_assertKind hid)) _

/-! ## Qualifiers and elements -/

theorem setQualifiers (template : ObjectId) (qualifiers : List Qualifier) :
    Keeps P (Step.setQualifiers template qualifiers) := by
  refine (Step.keeps_query _).bind fun m => (Step.keeps_query _).bind fun _ => ?_
  exact Step.keeps_edit fun _ h => hP.putQualifiers m qualifiers h

theorem element (id : ObjectId) (index : Nat) : Keeps P (Step.element id index) :=
  Step.keeps_element hP.toGrowing (fun id index v h hgrew _ =>
    hP.writeElement id index v (hP.grew h hgrew)) id index

theorem setElement (id : ObjectId) (index : Nat) (value : Value) :
    Keeps P (Step.setElement id index value) :=
  Step.keeps_setElement_of_element (hP.element id index) fun _ h =>
    hP.writeElement id index value h

end Discerning

/-! ## Operations -/

/-- A constructor or an edit of the facade, the removal of a member, a change of qualifiers, the
departure from a namespace, or an operation on instances and collections. Namespaces are assigned by
the facade only, and so are members and bases. -/
def Operation.ThroughFacade : Operation → Prop
  | repository operation => match operation with
    | .populateTemplate _ _ | .appendEntry _ _ | .defineMember _ _ | .setBase _ _ => False
    | .setScope _ scope => scope = none
    | .addToScope _ _ | .updateInstances _ _ _ => False
    | _ => True
  | _ => True

open Step in
/-- What is built keeps a property that tells kinds apart. -/
theorem Operation.perform_discerning (hP : Discerning P) (h : P r) {operation : Operation}
    (hop : operation.ThroughFacade) : P (operation.perform r) := by
  have hgrow := hP.toGrowing
  cases operation with
  | repository inner =>
    cases inner with
    | newTemplate name kind => exact (keeps_newTemplate_of (hP.addTemplate name kind)).repo h
    | removeMember template role => exact (hP.removeMember template role).repo h
    | setQualifiers template qualifiers => exact (hP.setQualifiers template qualifiers).repo h
    | setScope template scope =>
      obtain rfl : scope = none := hop
      exact (hP.setScope_none template).repo h
    | newInstance template under owned =>
      exact (keeps_newInstance hgrow template under owned).repo h
    | createRoleInstance datatype role qualifiers =>
      exact (keeps_createRoleInstance hgrow datatype role qualifiers).repo h
    | cloneValue value under owned => exact (keeps_cloneValue hgrow value under owned).repo h
    | newCollection content bound name owned =>
      exact (keeps_newCollection hgrow content bound name owned).repo h
    | copyCollection source under owned =>
      exact (keeps_copyCollection hgrow source under owned).repo h
    | element id index => exact (hP.element id index).repo h
    | setElement id index value => exact (hP.setElement id index value).repo h
    | releaseInstance id => exact (keeps_releaseInstance_of hP.wellFormed hP.free id).repo h
    | _ => exact hop.elim
  | newTag name => exact (hP.newTag name).repo h
  | newStruct name entries => exact (hP.newStruct name entries).repo h
  | newUnion name discriminator entries => exact (hP.newUnion name discriminator entries).repo h
  | newEnum name enumerators => exact (hP.newEnum name enumerators).repo h
  | newTypedef name target qualifiers => exact (hP.newTypedef name target qualifiers).repo h
  | newModule name parent => exact (hP.newModule name parent).repo h
  | addToModule scope child => exact (hP.addToModule scope child).repo h
  | newConstant name datatype value => exact (hP.newConstant name datatype value).repo h
  | defineMember template member => exact (hP.defineMember template member).repo h
  | setBase template base => exact (hP.setBase template base).repo h

end Idl

end Metamodel
