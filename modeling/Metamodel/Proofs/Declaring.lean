import Metamodel.Proofs.Facade
import Metamodel.Proofs.Editing

/-!
# Metamodel.Proofs.Declaring -- a declaration is checked, then made

A constructor checks its declaration against the repository as it is, adds the datatype, and goes
through the declaration once more to install it. What the check has accepted is still accepted then,
since all that is installed is new. Main statements: what is left to show for each member of a
structure or a union, and that whatever becomes of them, nothing that was there is touched.
-/

namespace Metamodel

variable {κ : Type} {ts : TypeSystem κ} {r r' : Repository ts}

namespace Repository

/-- What the check of a declaration lets pass. -/
inductive Accepted (r : Repository ts) : Entry → Prop where
  | member {m : Member} (hrole : Role.isValid m.role = true)
      (hdatatype : r.assertTemplateKind m.datatype = .ok m.datatype)
      (hqualifiers : r.assertQualifiers m.qualifiers = .ok ()) : Accepted r (.member m)
  | qualifier {q : Qualifier} (h : r.isQualifier q = true) : Accepted r (.qualifier q)
  | type {target : ObjectId} {m : ModelId} (h : r.modelOf? target = some m) :
      Accepted r (.type target)
  | value (name : String) (scalar : Scalar) : Accepted r (.value name scalar)

theorem Accepted.sameBut {F D : ModelId → Prop} {entry : Entry} (h : r.Accepted entry)
    (hr' : r.SameBut F D r') : r'.Accepted entry := by
  cases h with
  | member hrole hdatatype hqualifiers =>
    exact .member hrole (hr'.assertTemplateKind hdatatype) (hr'.assertQualifiers hqualifiers)
  | qualifier h => exact .qualifier (hr'.isQualifier h)
  | type h =>
    obtain ⟨o, ho, -⟩ := modelOf?_eq_some_iff.mp h
    exact .type ((hr'.modelOf? (index_lt_of_object? ho)).trans h)
  | value name scalar => exact .value name scalar

/-- The template that is made with a datatype is canonical. -/
theorem canonicalModel_addTemplate (name : String) (kind : κ) :
    (r.addTemplate name kind).canonicalModel r.nextObject = .ok r.nextModel := by
  refine canonicalModel_eq_ok_iff.mpr ⟨?_, r.freshDatatype name kind, ?_, rfl⟩
  · simp [modelOf?, object?_addTemplate, Object.model]
  · rw [model?_addTemplate, if_pos rfl]

end Repository

namespace Step

/-! ## Installing a declaration -/

variable {template : ObjectId} {m : ModelId} {entries : List Entry} {P : Repository ts → Prop}
  {fails : Error → Repository ts → Prop}

/-- An entry that is no member and has been accepted is appended. -/
theorem appendEntry_accepted (hm : r.canonicalModel template = .ok m) {entry : Entry}
    (hentry : r.Accepted entry) (hmember : entry.member? = none) :
    (appendEntry template entry).Ensures r (fun _ r' => r' = r.mapEntries m (· ++ [entry]))
      fun _ _ => False := by
  have hcheck : (checkEntry entry).Ensures r (fun _ r' => r' = r) fun _ _ => False := by
    cases hentry with
    | member => simp [Entry.member?] at hmember
    | @qualifier q h =>
      have hq : r.assertQualifiers [q] = .ok () :=
        Repository.assertQualifiers_eq_ok_iff.mpr (by simpa using h)
      simp [checkEntry, hq]
    | type h => simp [checkEntry, Repository.modelOf_eq_ok_iff.mpr h]
    | value name scalar => exact rfl
  simp only [appendEntry, ensures_bind, ensures_query, hm]
  refine ⟨fun m' hm' => ?_, fun e he => by simp at he⟩
  obtain rfl := Except.ok.inj hm'
  cases entry with
  | member member => simp [Entry.member?] at hmember
  | _ =>
    rw [ensures_bind]
    refine hcheck.imp ?_ fun _ _ h => h
    rintro _ r' rfl
    exact rfl

/-- A declaration of accepted members and qualifiers is installed if its members are, one after the
other. What is known may speak of the entries that are left. -/
theorem appendAll_ensures {P : List Entry → Repository ts → Prop}
    (hcanonical : ∀ rest r, P rest r → r.canonicalModel template = .ok m)
    (haccepted : ∀ entry ∈ entries, ∀ rest r, P rest r → r.Accepted entry)
    (hbody : ∀ entry ∈ entries, entry.member?.isSome ∨ entry.qualifier?.isSome)
    (hmember : ∀ member rest r, P (.member member :: rest) r →
      (defineMember template member).Ensures r (fun _ => P rest) fails)
    (hqualifier : ∀ q rest r, P (.qualifier q :: rest) r → P rest r) (h : P entries r) :
    (appendAll template entries).Ensures r (fun _ => P []) fails := by
  induction entries generalizing r with
  | nil => exact h
  | cons entry rest ih =>
    have ih : ∀ r, P rest r → (appendAll template rest).Ensures r (fun _ => P []) fails :=
      fun r h => ih (fun e he => haccepted e (List.mem_cons_of_mem entry he))
        (fun e he => hbody e (List.mem_cons_of_mem entry he)) h
    rw [appendAll, ensures_bind, ensures_ask]
    cases haccepted entry List.mem_cons_self _ r h with
    | @member member _ _ _ =>
      -- A member is no qualifier.
      show (appendEntry template (.member member) >>= fun _ =>
        appendAll template rest).Ensures r _ _
      simp only [appendEntry, ensures_bind, ensures_query, hcanonical _ r h]
      refine ⟨fun _ _ => ?_, fun e he => by simp at he⟩
      exact (hmember member rest r h).imp (fun _ r' h' => ih r' h') fun _ _ h' => h'
    | @qualifier q hq =>
      have hkept : (Entry.qualifier q).qualifier?.filter r.isQualifier = some q := by
        simp [Entry.qualifier?, Option.filter, hq]
      simp only [hkept, ensures_bind, ensures_pure]
      exact ih r (hqualifier q rest r h)
    | type => simpa [Entry.member?, Entry.qualifier?] using hbody _ List.mem_cons_self
    | value => simpa [Entry.member?, Entry.qualifier?] using hbody _ List.mem_cons_self

theorem populateTemplate_ensures {P : List Entry → Repository ts → Prop}
    (hcanonical : ∀ rest r, P rest r → r.canonicalModel template = .ok m)
    (haccepted : ∀ entry ∈ entries, ∀ rest r, P rest r → r.Accepted entry)
    (hbody : ∀ entry ∈ entries, entry.member?.isSome ∨ entry.qualifier?.isSome)
    (hmember : ∀ member rest r, P (.member member :: rest) r →
      (defineMember template member).Ensures r (fun _ => P rest) fails)
    (hqualifier : ∀ q rest r, P (.qualifier q :: rest) r → P rest r)
    (hqualifiers : ∀ r qs, P [] r → P [] (r.putQualifiers m qs)) (h : P entries r) :
    (populateTemplate template entries).Ensures r (fun _ => P []) fails := by
  simp only [populateTemplate, ensures_bind, ensures_query, hcanonical _ r h]
  refine ⟨fun m' hm' => ?_, fun e he => by simp at he⟩
  obtain rfl := Except.ok.inj hm'
  refine (appendAll_ensures hcanonical haccepted hbody hmember hqualifier h).imp ?_
    fun _ _ h' => h'
  intro qs r' h'
  exact hqualifiers r' qs h'

end Step

namespace Idl

open Step (ensures_bind ensures_query ensures_ask ensures_edit ensures_note ensures_pure)
open Repository (Accepted)

variable {limits : Limits} {r : Repository (system limits)} {name : String} {entries : List Entry}

/-! ## Checks -/

theorem checkMember_accepts {roles : List String} {member : Member}
    (h : checkMember name roles member r = .ok ()) : r.Accepted (.member member) := by
  unfold checkMember at h
  split at h
  · next hrole =>
    obtain ⟨x, hx, h⟩ := bind_eq_ok_iff.mp h
    obtain ⟨_, hqualifiers, -⟩ := bind_eq_ok_iff.mp h
    obtain rfl := (Repository.assertTemplateKind_eq_ok_iff.mp hx).1
    exact .member hrole hx hqualifiers
  · simp at h

theorem checkMember_not_mem {roles : List String} {member : Member}
    (h : checkMember name roles member r = .ok ()) : member.role ∉ roles := by
  unfold checkMember at h
  split at h
  · obtain ⟨_, -, h⟩ := bind_eq_ok_iff.mp h
    obtain ⟨_, -, h⟩ := bind_eq_ok_iff.mp h
    split at h
    · simp at h
    · next hno => exact hno
  · simp at h

theorem accepted_of_assertQualifiers {q : Qualifier} (h : r.assertQualifiers [q] = .ok ()) :
    r.Accepted (.qualifier q) :=
  .qualifier (Repository.assertQualifiers_eq_ok_iff.mp h q List.mem_cons_self)

/-- What is installed of a structure has been accepted, and was declared. -/
theorem checkStruct_accepts {given base : Option ObjectId} {roles : List String}
    {body : List Entry} (h : checkStruct name r given roles entries = .ok (base, body)) :
    ∀ entry ∈ body, r.Accepted entry ∧ entry ∈ entries ∧
      (entry.member?.isSome ∨ entry.qualifier?.isSome) := by
  induction entries generalizing given base roles body with
  | nil =>
    simp only [checkStruct, Except.ok.injEq, Prod.mk.injEq] at h
    simp [← h.2]
  | cons first rest ih =>
    have hlater : ∀ {given roles base body}, checkStruct name r given roles rest =
        .ok (base, body) → ∀ entry ∈ body, r.Accepted entry ∧ entry ∈ first :: rest ∧
          (entry.member?.isSome ∨ entry.qualifier?.isSome) := by
      intro given roles base body h entry hentry
      obtain ⟨haccepted, hmem, hsort⟩ := ih h entry hentry
      exact ⟨haccepted, List.mem_cons_of_mem first hmem, hsort⟩
    cases first with
    | type b =>
      cases given with
      | some _ => simp [checkStruct] at h
      | none =>
        rw [checkStruct] at h
        obtain ⟨target, -, h⟩ := bind_eq_ok_iff.mp h
        exact hlater h
    | member member =>
      rw [checkStruct] at h
      split at h
      · obtain ⟨_, hmember, h⟩ := bind_eq_ok_iff.mp h
        obtain ⟨⟨base', body'⟩, hrest, h⟩ := bind_eq_ok_iff.mp h
        obtain ⟨-, rfl⟩ := Prod.mk.inj (Except.ok.inj h)
        intro entry hentry
        rcases List.mem_cons.mp hentry with rfl | hentry
        · exact ⟨checkMember_accepts hmember, List.mem_cons_self, Or.inl rfl⟩
        · exact hlater hrest entry hentry
      · simp at h
    | qualifier q =>
      rw [checkStruct] at h
      obtain ⟨_, hq, h⟩ := bind_eq_ok_iff.mp h
      obtain ⟨⟨base', body'⟩, hrest, h⟩ := bind_eq_ok_iff.mp h
      obtain ⟨-, rfl⟩ := Prod.mk.inj (Except.ok.inj h)
      intro entry hentry
      rcases List.mem_cons.mp hentry with rfl | hentry
      · exact ⟨accepted_of_assertQualifiers hq, List.mem_cons_self, Or.inr rfl⟩
      · exact hlater hrest entry hentry
    | value v scalar => simp [checkStruct] at h

/-- All that is declared of a union is installed, and has been accepted. -/
theorem checkCases_accepts {fallback : Option String} {roles : List String}
    (h : checkCases name r fallback roles entries = .ok ()) :
    ∀ entry ∈ entries, r.Accepted entry ∧ (entry.member?.isSome ∨ entry.qualifier?.isSome) := by
  induction entries generalizing fallback roles with
  | nil => simp
  | cons first rest ih =>
    rw [List.forall_mem_cons]
    cases first with
    | type b => simp [checkCases] at h
    | member member =>
      simp only [checkCases] at h
      split at h
      · split at h
        · simp at h
        · obtain ⟨_, hmember, h⟩ := bind_eq_ok_iff.mp h
          exact ⟨⟨checkMember_accepts hmember, Or.inl rfl⟩, ih h⟩
      · obtain ⟨_, hmember, h⟩ := bind_eq_ok_iff.mp h
        exact ⟨⟨checkMember_accepts hmember, Or.inl rfl⟩, ih h⟩
    | qualifier q =>
      rw [checkCases] at h
      obtain ⟨_, hq, h⟩ := bind_eq_ok_iff.mp h
      exact ⟨⟨accepted_of_assertQualifiers hq, Or.inr rfl⟩, ih h⟩
    | value v scalar => simp [checkCases] at h

/-- A discriminator that is accepted is there. -/
theorem checkDiscriminator_accepts {discriminator : ObjectId}
    (h : checkDiscriminator name discriminator r = .ok ()) : r.Accepted (.type discriminator) := by
  obtain ⟨resolved, hresolved, -⟩ := bind_eq_ok_iff.mp h
  obtain ⟨x, hx, -⟩ := bind_eq_ok_iff.mp hresolved
  obtain ⟨-, m, f, d, ho, -⟩ := Repository.assertTemplateKind_eq_ok_iff.mp hx
  exact .type (Repository.modelOf?_of_object? ho)

/-! ## Structures and unions -/

/-- The template of a new datatype is there and empty, and since then only this datatype has been
edited. -/
def Begun (r : Repository (system limits)) (name : String) (kind : Kind)
    (r' : Repository (system limits)) : Prop :=
  (r.addTemplate name kind).Edited (· = r.nextModel) (· = r.nextModel) r'

namespace Begun

variable {kind : Kind} {r' r'' : Repository (system limits)}

theorem start (hr : r.WellFormed) (name : String) (kind : Kind) :
    Begun r name kind (r.addTemplate name kind) :=
  (hr.addTemplate name kind).edited

theorem canonicalModel (h : Begun r name kind r') :
    r'.canonicalModel r.nextObject = .ok r.nextModel :=
  h.sameBut.canonicalModel (Repository.canonicalModel_addTemplate name kind)

/-- The datatype that has been begun is of the kind that was asked for. -/
theorem kind_eq (h : Begun r name kind r') {d : Datatype Kind}
    (hd : r'.model? r.nextModel = some (.datatype d)) : d.kind = kind := by
  have hfresh : (r.addTemplate name kind).model? r.nextModel =
      some (.datatype (r.freshDatatype name kind)) := by
    rw [Repository.model?_addTemplate, if_pos rfl]
  obtain ⟨e, he, hk, -⟩ := (Repository.Edited.sameBut h).datatype hfresh
  rw [Repository.datatype_unique hd he, hk]
  rfl

theorem kindOf?_eq (h : Begun r name kind r') : r'.kindOf? r.nextModel = some kind := by
  obtain ⟨-, d, hd, -⟩ := Repository.canonicalModel_eq_ok_iff.mp h.canonicalModel
  exact Repository.kindOf?_eq_some_iff.mpr ⟨d, hd, h.kind_eq hd⟩

/-- All that was there before is as it was. -/
theorem sameBut (h : Begun r name kind r') :
    r.SameBut (· = r.nextModel) (· = r.nextModel) r' :=
  (Repository.sameBut_addTemplate (D := (· = r.nextModel)) rfl name kind).trans
    (Repository.Edited.sameBut h)

theorem trans (h : Begun r name kind r')
    (h' : r'.Edited (· = r.nextModel) (· = r.nextModel) r'') : Begun r name kind r'' :=
  Repository.Edited.trans h h'

theorem putQualifiers (h : Begun r name kind r') (qs : List Qualifier) :
    Begun r name kind (r'.putQualifiers r.nextModel qs) :=
  h.trans ⟨h.wellFormed.putQualifiers _ qs,
    Repository.sameBut_mapDatatype rfl fun _ => ⟨rfl, rfl, rfl⟩⟩

end Begun

variable {P : Repository (system limits) → Prop} {fails : Error → Repository (system limits) → Prop}

/-- What is left to show for a structure: that its base can be joined, and that its members can be
defined one after the other. What is known may speak of the entries that are left. -/
theorem newStruct_ensures_each {P : List Entry → Repository (system limits) → Prop}
    (hP : ∀ rest r', P rest r' → Begun r name .struct r')
    (hrefused : ∀ e, checkStruct name r none [] entries = .error e → fails e r)
    (hstart : ∀ body, checkStruct name r none [] entries = .ok (none, body) →
      P body (r.addTemplate name Kind.struct))
    (hbase : ∀ b body, checkStruct name r none [] entries = .ok (some b, body) →
      (Step.setBase r.nextObject (some b)).Ensures (r.addTemplate name Kind.struct)
        (fun _ => P body) fails)
    (hmember : ∀ member rest r', P (.member member :: rest) r' →
      (Step.defineMember r.nextObject member).Ensures r' (fun _ => P rest) fails)
    (hqualifier : ∀ q rest r', P (.qualifier q :: rest) r' → P rest r')
    (hqualifiers : ∀ r' qs, P [] r' → P [] (r'.putQualifiers r.nextModel qs)) :
    (newStruct name entries).Ensures r (fun _ => P []) fails := by
  simp only [newStruct, ensures_bind, ensures_query]
  refine ⟨fun checked hchecked => ?_, hrefused⟩
  obtain ⟨base, body⟩ := checked
  have hbody := checkStruct_accepts hchecked
  have hpopulate : ∀ r', P body r' →
      (Step.populateTemplate r.nextObject body).Ensures r' (fun _ => P []) fails := fun r' h' =>
    Step.populateTemplate_ensures (fun rest r' h' => (hP rest r' h').canonicalModel)
      (fun entry hentry rest r' h' => (hbody entry hentry).1.sameBut (hP rest r' h').sameBut)
      (fun entry hentry => (hbody entry hentry).2.2) hmember hqualifier hqualifiers h'
  simp only [Step.newTemplate, ensures_bind, ensures_ask, ensures_edit, ensures_note, ensures_pure]
  cases base with
  | none => exact hpopulate _ (hstart body hchecked)
  | some b =>
    rw [ensures_bind]
    exact (hbase b body hchecked).imp (fun _ r' h' => hpopulate r' h') fun _ _ h' => h'

/-- What is left to show for a structure, where the order of its members does not matter. -/
theorem newStruct_ensures (hP : ∀ r', P r' → Begun r name .struct r')
    (hstart : P (r.addTemplate name Kind.struct))
    (hrefused : ∀ e, checkStruct name r none [] entries = .error e → fails e r)
    (hbase : ∀ b, r.kind? b = some Kind.struct →
      (Step.setBase r.nextObject (some b)).Ensures (r.addTemplate name Kind.struct) (fun _ => P)
        fails)
    (hmember : ∀ member, .member member ∈ entries → r.Accepted (.member member) → ∀ r', P r' →
      (Step.defineMember r.nextObject member).Ensures r' (fun _ => P) fails)
    (hqualifiers : ∀ r' qs, P r' → P (r'.putQualifiers r.nextModel qs)) :
    (newStruct name entries).Ensures r (fun _ => P) fails := by
  have hbody : ∀ {base body}, checkStruct name r none [] entries = .ok (base, body) →
      ∀ entry ∈ body, r.Accepted entry ∧ entry ∈ entries := fun hchecked entry hentry =>
    ⟨(checkStruct_accepts hchecked entry hentry).1, (checkStruct_accepts hchecked entry hentry).2.1⟩
  refine (newStruct_ensures_each
    (P := fun rest r' => P r' ∧ ∀ entry ∈ rest, r.Accepted entry ∧ entry ∈ entries)
    (fun _ r' h' => hP r' h'.1) hrefused (fun body hchecked => ⟨hstart, hbody hchecked⟩)
    (fun b body hchecked => ?_) (fun member rest r' h' => ?_)
    (fun q rest r' h' => ⟨h'.1, (List.forall_mem_cons.mp h'.2).2⟩)
    fun r' qs h' => ⟨hqualifiers r' qs h'.1, h'.2⟩).imp (fun _ _ h' => h'.1) fun _ _ h' => h'
  · exact (hbase b (checkStruct_base (by simp) hchecked b rfl)).imp
      (fun _ _ h' => ⟨h', hbody hchecked⟩) fun _ _ h' => h'
  · obtain ⟨⟨haccepted, hmem⟩, hrest⟩ := List.forall_mem_cons.mp h'.2
    exact (hmember member hmem haccepted r' h'.1).imp (fun _ _ h'' => ⟨h'', hrest⟩)
      fun _ _ h'' => h''

/-- What is left to show for a union: that its discriminator gets its leaf, and that its cases can
be defined one after the other. What is known may speak of the entries that are left. -/
theorem newUnion_ensures_each {discriminator : ObjectId}
    {P : List Entry → Repository (system limits) → Prop}
    (hP : ∀ rest r', P rest r' → Begun r name .union r') (hrefused : ∀ e, fails e r)
    (hleaf : checkCases name r none [discriminatorRole] entries = .ok () →
      Begun r name .union ((r.addTemplate name Kind.union).mapEntries r.nextModel
        (· ++ [.type discriminator])) →
      (Step.updateInstances r.nextModel discriminatorRole
        (some (.accessor discriminatorMarker))).Ensures
          ((r.addTemplate name Kind.union).mapEntries r.nextModel (· ++ [.type discriminator]))
          (fun _ => P entries) fails)
    (hmember : ∀ member rest r', P (.member member :: rest) r' →
      (Step.defineMember r.nextObject member).Ensures r' (fun _ => P rest) fails)
    (hqualifier : ∀ q rest r', P (.qualifier q :: rest) r' → P rest r')
    (hqualifiers : ∀ r' qs, P [] r' → P [] (r'.putQualifiers r.nextModel qs))
    (hr : r.WellFormed) :
    (newUnion name discriminator entries).Ensures r (fun _ => P []) fails := by
  simp only [newUnion, ensures_bind, ensures_query]
  refine ⟨fun _ hdiscriminator => ⟨fun _ hcases => ?_, fun e _ => hrefused e⟩,
    fun e _ => hrefused e⟩
  have hbody := checkCases_accepts hcases
  have hstart := Begun.start hr name Kind.union
  simp only [Step.newTemplate, ensures_bind, ensures_ask, ensures_edit, ensures_note, ensures_pure]
  have hentry := (checkDiscriminator_accepts hdiscriminator).sameBut hstart.sameBut
  refine (Step.appendEntry_accepted hstart.canonicalModel hentry rfl).imp ?_ fun _ _ h => h.elim
  rintro _ r₁ rfl
  refine (hleaf hcases (Repository.Edited.mapEntries hstart rfl _)).imp ?_ fun _ _ h => h
  intro _ r₂ h₂
  exact Step.populateTemplate_ensures (fun rest r' h' => (hP rest r' h').canonicalModel)
    (fun entry hmem rest r' h' => (hbody entry hmem).1.sameBut (hP rest r' h').sameBut)
    (fun entry hmem => (hbody entry hmem).2) hmember hqualifier hqualifiers h₂

/-- What is left to show for a union, where the order of its cases does not matter. -/
theorem newUnion_ensures {discriminator : ObjectId} (hP : ∀ r', P r' → Begun r name .union r')
    (hrefused : ∀ e, fails e r)
    (hleaf : Begun r name .union ((r.addTemplate name Kind.union).mapEntries r.nextModel
        (· ++ [.type discriminator])) →
      (Step.updateInstances r.nextModel discriminatorRole
        (some (.accessor discriminatorMarker))).Ensures
          ((r.addTemplate name Kind.union).mapEntries r.nextModel (· ++ [.type discriminator]))
          (fun _ => P) fails)
    (hmember : ∀ member, .member member ∈ entries → r.Accepted (.member member) → ∀ r', P r' →
      (Step.defineMember r.nextObject member).Ensures r' (fun _ => P) fails)
    (hqualifiers : ∀ r' qs, P r' → P (r'.putQualifiers r.nextModel qs)) (hr : r.WellFormed) :
    (newUnion name discriminator entries).Ensures r (fun _ => P) fails := by
  refine (newUnion_ensures_each
    (P := fun rest r' => P r' ∧ ∀ entry ∈ rest, r.Accepted entry ∧ entry ∈ entries)
    (fun _ r' h' => hP r' h'.1) hrefused (fun hcases hbegun => ?_) (fun member rest r' h' => ?_)
    (fun q rest r' h' => ⟨h'.1, (List.forall_mem_cons.mp h'.2).2⟩)
    (fun r' qs h' => ⟨hqualifiers r' qs h'.1, h'.2⟩) hr).imp (fun _ _ h' => h'.1) fun _ _ h' => h'
  · have hbody : ∀ entry ∈ entries, r.Accepted entry ∧ entry ∈ entries := fun entry hentry =>
      ⟨(checkCases_accepts hcases entry hentry).1, hentry⟩
    exact (hleaf hbegun).imp (fun _ _ h' => ⟨h', hbody⟩) fun _ _ h' => h'
  · obtain ⟨⟨haccepted, hmem⟩, hrest⟩ := List.forall_mem_cons.mp h'.2
    exact (hmember member hmem haccepted r' h'.1).imp (fun _ _ h'' => ⟨h'', hrest⟩)
      fun _ _ h'' => h''

/-! ## Enumerations, aliases and constants -/

/-- A property of the repository since a datatype has been begun, which entries that declare no
member do not change. -/
structure Begins (r : Repository (system limits)) (name : String) (kind : Kind)
    (P : Repository (system limits) → Prop) : Prop where
  begun : ∀ {r'}, P r' → Begun r name kind r'
  start : P (r.addTemplate name kind)
  append : ∀ {r'} entry, entry.member? = none → P r' →
    P (r'.mapEntries r.nextModel (· ++ [entry]))

theorem begins_begun (hr : r.WellFormed) (name : String) (kind : Kind) :
    Begins r name kind (Begun r name kind) where
  begun h := h
  start := .start hr name kind
  append _ _ h := Repository.Edited.mapEntries h rfl _

section Begins

variable {kind : Kind} {r' : Repository (system limits)}

/-- An accepted entry that is no member is appended to a datatype that has been begun. -/
theorem Begins.appendEntry (hP : Begins r name kind P) (h : P r') {entry : Entry}
    (hentry : r.Accepted entry) (hmember : entry.member? = none) :
    (Step.appendEntry r.nextObject entry).Ensures r' (fun _ => P) fun _ _ => False := by
  have hbegun := hP.begun h
  refine (Step.appendEntry_accepted hbegun.canonicalModel (hentry.sameBut hbegun.sameBut)
    hmember).imp ?_ fun _ _ h => h
  rintro _ r₁ rfl
  exact hP.append entry hmember h

/-- What is left to show for an enumeration: that each enumerator gets its leaf. -/
theorem newEnum_ensures (hP : Begins r name .enum P) {enumerators : List (String × Option Int64)}
    (hleaf : ∀ r', P r' → ∀ role scalar,
      (Step.updateInstances r.nextModel role (some (.scalar scalar))).Ensures r' (fun _ => P)
        fun _ _ => False) :
    (newEnum name enumerators).Ensures r (fun _ => P) fun _ r' => r' = r := by
  simp only [newEnum, ensures_bind, ensures_query]
  refine ⟨fun values _ => ?_, fun _ _ => trivial⟩
  split
  · exact rfl
  · simp only [Step.newTemplate, ensures_bind, ensures_ask, ensures_edit, ensures_note,
      ensures_pure]
    refine (Step.ensures_forEach values (P := P) (fun enumerator _ r₁ h₁ => ?_) hP.start).imp
      (fun _ _ h => h) fun _ _ h => False.elim h
    rw [ensures_bind]
    exact (hP.appendEntry h₁ (.value _ _) rfl).imp (fun _ r₂ h₂ => hleaf r₂ h₂ _ _) fun _ _ h => h

/-- Nothing is left to show for an alias. -/
theorem newTypedef_ensures (hP : Begins r name .typedef P) (target : ObjectId)
    (qualifiers : List Qualifier) :
    (newTypedef name target qualifiers).Ensures r (fun _ => P) fun _ r' => r' = r := by
  simp only [newTypedef, ensures_bind, ensures_query]
  refine ⟨fun x hx => ⟨fun _ hqualifiers => ?_, fun _ _ => trivial⟩, fun _ _ => trivial⟩
  obtain ⟨-, m, f, d, ho, -⟩ := Repository.assertTemplateKind_eq_ok_iff.mp hx
  simp only [Step.newTemplate, ensures_bind, ensures_ask, ensures_edit, ensures_note,
    ensures_pure]
  refine (hP.appendEntry hP.start (.type (Repository.modelOf?_of_object? ho)) rfl).imp ?_
    fun _ _ h => h.elim
  intro _ r₁ h₁
  refine (Step.ensures_forEach qualifiers (P := P) (fun q hq r₂ h₂ => ?_) h₁).imp
    (fun _ _ h => h) fun _ _ h => False.elim h
  exact hP.appendEntry h₂
    (.qualifier (Repository.assertQualifiers_eq_ok_iff.mp hqualifiers q hq)) rfl

/-- Nothing is left to show for a constant. -/
theorem newConstant_ensures (hP : Begins r name .const P) (datatype : ObjectId) (value : Scalar) :
    (newConstant name datatype value).Ensures r (fun _ => P) fun _ r' => r' = r := by
  simp only [newConstant, ensures_bind, ensures_query, ensures_ask]
  refine ⟨fun resolved hresolved => ?_, fun _ _ => trivial⟩
  obtain ⟨x, hx, -⟩ := bind_eq_ok_iff.mp hresolved
  obtain ⟨-, m, f, d, ho, -⟩ := Repository.assertTemplateKind_eq_ok_iff.mp hx
  split
  · simp only [Step.newTemplate, ensures_bind, ensures_ask, ensures_edit, ensures_note,
      ensures_pure]
    refine (hP.appendEntry hP.start (.type (Repository.modelOf?_of_object? ho)) rfl).imp ?_
      fun _ _ h => h.elim
    intro _ r₁ h₁
    exact (hP.appendEntry h₁ (.value name value) rfl).imp (fun _ _ h => h) fun _ _ h => h.elim
  · exact rfl

end Begins

/-! ## Modules -/

/-- A property that is kept when a datatype gets a namespace, and when one is listed in a module. -/
structure Modular (P : Repository (system limits) → Prop) : Prop where
  putScope : ∀ {r} m {scope}, P r → r.MayEnclose scope → P (r.putScope m scope)
  list : ∀ {r m} child, P r → r.kindOf? m = some .module → P (r.mapEntries m fun entries =>
    if entries.contains (.type child) then entries else entries ++ [.type child])

namespace Modular

/-- Neither change makes anything else of a module. -/
theorem addToScope (hP : Modular P) (scope child : ObjectId) :
    Step.Keeps (fun r => P r ∧ r.kind? scope = some Kind.module) (Step.addToScope scope child) := by
  have hkind : ∀ {r : Repository (system limits)} {k f},
      (∀ d, (f d).kind = d.kind ∧ (f d).template = d.template ∧ (f d).registry = d.registry) →
      r.kind? scope = some Kind.module → (r.mapDatatype k f).kind? scope = some Kind.module :=
    fun hf hmodule => (Repository.sameBut_mapDatatype (F := fun _ => False) (D := fun _ => True)
      trivial hf).kind? hmodule
  refine Step.keeps_addToScope_of ?_ ?_
  · rintro r k outer ⟨h, hmodule⟩ houter
    exact ⟨hP.putScope k h houter, hkind (fun _ => ⟨rfl, rfl, rfl⟩) hmodule⟩
  · rintro r k ⟨h, hmodule⟩ hk
    have hlisted := (Repository.kindOf?_of_canonicalModel hk).trans hmodule
    exact ⟨hP.list child h hlisted, hkind (fun _ => ⟨rfl, rfl, rfl⟩) hmodule⟩

theorem addToModule (hP : Modular P) (scope child : ObjectId) :
    Step.Keeps P (addToModule scope child) := by
  refine ⟨fun r h => ?_⟩
  simp only [Idl.addToModule, ensures_bind, ensures_query]
  refine ⟨fun id hid => ?_, fun _ _ => h⟩
  exact ((hP.addToScope scope child).ensures r ⟨h, Repository.kind?_of_assertKind hid⟩).imp
    (fun _ _ h' => h'.1) fun _ _ h' => h'.1

/-- What is left to show for a module: that it may be added. -/
theorem newModule (hP : Modular P) (hrefused : P r) (hstart : P (r.addTemplate name Kind.module))
    (parent : Option ObjectId) :
    (newModule name parent).Ensures r (fun _ => P) fun _ => P := by
  simp only [Idl.newModule, ensures_bind, ensures_query]
  refine ⟨fun checked hmodule => ?_, fun _ _ => hrefused⟩
  simp only [Step.newTemplate, ensures_bind, ensures_ask, ensures_edit, ensures_note, ensures_pure]
  cases parent with
  | none => exact hstart
  | some scope =>
    obtain ⟨id, hid⟩ : ∃ id, r.assertKind Kind.module scope = .ok id := by
      cases hassert : r.assertKind Kind.module scope with
      | ok id => exact ⟨id, rfl⟩
      | error e => simp [hassert, Functor.map, Except.map] at hmodule
    rw [ensures_bind]
    exact ((hP.addToScope scope _).ensures _
      ⟨hstart, Repository.kind?_addTemplate (Repository.kind?_of_assertKind hid)⟩).imp
        (fun _ _ h' => h'.1) fun _ _ h' => h'.1

end Modular

/-! ## What is touched -/

theorem begun_defineMember {kind : Kind} {r' : Repository (system limits)}
    (h : Begun r name kind r') (member : Member) :
    (Step.defineMember r.nextObject member).Ensures r' (fun _ => Begun r name kind)
      fun _ => Begun r name kind :=
  (Step.defineMember_fields h.wellFormed h.canonicalModel member).imp
    (fun _ _ h' => h.trans h'.1) fun _ _ h' => h.trans h'

theorem newStruct_begun (hr : r.WellFormed) (name : String) (entries : List Entry) :
    (newStruct name entries).Ensures r (fun _ => Begun r name .struct)
      fun _ r' => r' = r ∨ Begun r name .struct r' := by
  have hstart := Begun.start hr name Kind.struct
  refine newStruct_ensures (fun _ h => h) hstart (fun _ _ => Or.inl rfl) (fun b hb => ?_)
    (fun member _ _ r' h' => ?_) fun r' qs h' => h'.putQualifiers qs
  · refine (Step.setBase_fields hstart.wellFormed hstart.canonicalModel fun b' m hb' hm => ?_).imp
      (fun _ _ h' => hstart.trans h'.edited) fun _ _ h' => Or.inr (hstart.trans h')
    obtain rfl := Option.some.inj hb'
    exact isAlias_of_struct (Repository.kind?_addTemplate hb) hm
  · exact (begun_defineMember h' member).imp (fun _ _ h => h) fun _ _ h => Or.inr h

theorem newUnion_begun (hr : r.WellFormed) (name : String) (discriminator : ObjectId)
    (entries : List Entry) :
    (newUnion name discriminator entries).Ensures r (fun _ => Begun r name .union)
      fun _ r' => r' = r ∨ Begun r name .union r' := by
  refine newUnion_ensures (fun _ h => h) (fun _ => Or.inl rfl) (fun h => ?_)
    (fun member _ _ r' h' => ?_) (fun r' qs h' => h'.putQualifiers qs) hr
  · obtain ⟨-, d, hd, -⟩ := Repository.canonicalModel_eq_ok_iff.mp h.canonicalModel
    exact (Step.updateInstances_updated h.wellFormed hd discriminatorRole _).imp
      (fun _ _ h' => h.trans h'.edited.weaken) fun _ _ h' => Or.inr (h.trans h'.edited.weaken)
  · exact (begun_defineMember h' member).imp (fun _ _ h => h) fun _ _ h => Or.inr h

theorem newTag_begun (hr : r.WellFormed) (name : String) :
    (Idl.newAnnotation name).Ensures r (fun _ => Begun r name .tag)
      fun _ r' => r' = r ∨ Begun r name .tag r' := by
  unfold newAnnotation
  simp only [Step.newTemplate, ensures_bind, ensures_ask, ensures_edit, ensures_note, ensures_pure]
  exact .start hr name Kind.tag

end Idl

end Metamodel
