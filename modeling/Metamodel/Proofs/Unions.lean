import Metamodel.Proofs.Installing
import Metamodel.Proofs.Rejection

/-!
# Metamodel.Proofs.Unions -- unions keep their discriminator and their default case

A union holds its discriminator in a field that it does not declare. The field is written when the
union is made, and every instance gets its own; no member may take the role afterwards. That there
is one default case at most is checked when the union is made, and not when it is edited. Main
statement: whatever is edited or released, unions and their instances keep the discriminator, and
they keep to one default case as long as no second one is defined.
-/

namespace Metamodel.Idl

open Step (Made Installs ensures_bind ensures_query ensures_ask ensures_edit ensures_note
  ensures_pure)

variable {limits : Limits} {r r' : Repository (system limits)} {single : Prop} {m : ModelId}

/-! ## Declarations of unions -/

/-- The default cases that a declaration lists, which are the members without labels. -/
def defaultCases (entries : List Entry) : List Member :=
  (entries.filterMap Entry.member?).filter fun member => member.labels.isEmpty

/-- The members of a union have different roles, none has that of the discriminator, and if it is to
be a single one, all default cases have the same role. -/
structure Cases (single : Prop) (entries : List Entry) : Prop where
  nodup : (Entry.members entries).keys.Nodup
  unmarked : discriminatorRole ∉ (Entry.members entries).keys
  agree : single → ∀ a b, .member a ∈ entries → .member b ∈ entries → a.labels = [] →
    b.labels = [] → a.role = b.role

namespace Cases

variable {entries entries' : List Entry}

theorem nil : Cases single [] where
  nodup := by simp [Entry.members, Table.keys]
  unmarked := by simp [Entry.members, Table.keys]
  agree _ a _ ha := by simp at ha

theorem of_members (h : Cases single entries)
    (heq : Entry.members entries' = Entry.members entries) : Cases single entries' where
  nodup := heq ▸ h.nodup
  unmarked := heq ▸ h.unmarked
  agree hsingle a b := by
    rw [← Entry.mem_values_members_iff, ← Entry.mem_values_members_iff, heq,
      Entry.mem_values_members_iff, Entry.mem_values_members_iff]
    exact h.agree hsingle a b

/-- A default case may be defined in the place of the one that is there. -/
theorem define (h : Cases single entries) {member : Member}
    (hrole : member.role ≠ discriminatorRole)
    (hdefault : single → member.labels = [] → ∀ other, .member other ∈ entries → other.labels = [] →
      other.role = member.role) : Cases single (Entry.define member entries) where
  nodup := by
    rw [Entry.members_define]
    exact Table.nodup_keys_insert h.nodup _ _
  unmarked := by
    rw [Entry.members_define, Table.keys_insert]
    split
    · exact h.unmarked
    · simp [h.unmarked, Ne.symm hrole]
  agree hsingle a b ha hb hla hlb := by
    rcases Entry.mem_define ha with heq | ha'
    · obtain rfl := Entry.member.inj heq
      rcases Entry.mem_define hb with heq | hb'
      · rw [Entry.member.inj heq]
      · exact (hdefault hsingle hla b hb' hlb).symm
    · rcases Entry.mem_define hb with heq | hb'
      · obtain rfl := Entry.member.inj heq
        exact hdefault hsingle hlb a ha' hla
      · exact h.agree hsingle a b ha' hb' hla hlb

theorem remove (h : Cases single entries) (role : String) :
    Cases single (Entry.remove role entries) where
  nodup := by
    rw [Entry.members_remove]
    exact Table.nodup_keys_erase h.nodup _
  unmarked := by
    rw [Entry.members_remove, Table.keys_erase]
    exact fun hmem => h.unmarked (List.mem_filter.mp hmem).1
  agree hsingle a b ha hb :=
    h.agree hsingle a b (List.mem_filter.mp ha).1 (List.mem_filter.mp hb).1

theorem role_ne (h : Cases single entries) {member : Member} (hmem : .member member ∈ entries) :
    member.role ≠ discriminatorRole := fun hrole =>
  h.unmarked (Entry.mem_keys_members_iff.mpr ⟨member, hmem, hrole⟩)

/-- Default cases that agree are one at most. -/
theorem length_defaultCases_le (h : Cases True entries) : (defaultCases entries).length ≤ 1 := by
  have hnodup : ((defaultCases entries).map (·.role)).Nodup := by
    refine h.nodup.sublist ?_
    rw [Entry.keys_members]
    exact List.filter_sublist.map _
  have hagree : ∀ a ∈ defaultCases entries, ∀ b ∈ defaultCases entries, a.role = b.role := by
    have hmem : ∀ a ∈ defaultCases entries, .member a ∈ entries ∧ a.labels = [] := by
      intro a ha
      obtain ⟨ha, hlabels⟩ := List.mem_filter.mp ha
      exact ⟨Entry.mem_values_members_iff.mp (by simpa [Entry.values_members] using ha),
        List.isEmpty_iff.mp hlabels⟩
    intro a ha b hb
    exact h.agree trivial a b (hmem a ha).1 (hmem b hb).1 (hmem a ha).2 (hmem b hb).2
  match hcases : defaultCases entries with
  | [] => simp
  | [_] => simp
  | a :: b :: rest =>
    rw [hcases] at hnodup hagree
    have hrole := hagree a List.mem_cons_self b (List.mem_cons_of_mem a List.mem_cons_self)
    simp [hrole] at hnodup

end Cases

/-- The members that a union is made of have other roles than those that are given, and there is one
default case, unless one is given already. -/
theorem checkCases_agree {name : String} {entries : List Entry} {fallback : Option String}
    {roles : List String} (h : checkCases name r fallback roles entries = .ok ()) :
    (∀ a, .member a ∈ entries → a.role ∉ roles ∧ (a.labels = [] → fallback = none)) ∧
      ∀ a b, .member a ∈ entries → .member b ∈ entries → a.labels = [] → b.labels = [] →
        a.role = b.role := by
  induction entries generalizing fallback roles with
  | nil => simp
  | cons first rest ih =>
    cases first with
    | type target => simp [checkCases] at h
    | value v scalar => simp [checkCases] at h
    | qualifier q =>
      rw [checkCases] at h
      obtain ⟨_, -, h⟩ := bind_eq_ok_iff.mp h
      simpa using ih h
    | member member =>
      simp only [checkCases] at h
      split at h
      · next hdefault =>
        -- A default case: there was none before, and none follows.
        split at h
        · simp at h
        · obtain ⟨_, hmember, h⟩ := bind_eq_ok_iff.mp h
          obtain ⟨hroles, hagree⟩ := ih h
          have hnone : ∀ a, .member a ∈ rest → a.labels ≠ [] := fun a ha hla => by
            simpa using (hroles a ha).2 hla
          refine ⟨fun a ha => ?_, fun a b ha hb hla hlb => ?_⟩
          · rcases List.mem_cons.mp ha with heq | ha
            · obtain rfl := Entry.member.inj heq
              exact ⟨checkMember_not_mem hmember, fun _ => rfl⟩
            · exact ⟨fun hmem => (hroles a ha).1 (List.mem_cons_of_mem _ hmem), fun _ => rfl⟩
          · rcases List.mem_cons.mp ha with heqa | ha
            · rcases List.mem_cons.mp hb with heqb | hb
              · rw [Entry.member.inj heqa, Entry.member.inj heqb]
              · exact (hnone b hb hlb).elim
            · exact (hnone a ha hla).elim
      · next hlabels =>
        obtain ⟨_, hmember, h⟩ := bind_eq_ok_iff.mp h
        obtain ⟨hroles, hagree⟩ := ih h
        have hother : ∀ a, .member a ∈ Entry.member member :: rest → a.labels = [] →
            .member a ∈ rest := by
          intro a ha hla
          rcases List.mem_cons.mp ha with heq | ha
          · exact (hlabels (Entry.member.inj heq ▸ hla)).elim
          · exact ha
        refine ⟨fun a ha => ⟨?_, fun hla => (hroles a (hother a ha hla)).2 hla⟩,
          fun a b ha hb hla hlb => hagree a b (hother a ha hla) (hother b hb hlb) hla hlb⟩
        rcases List.mem_cons.mp ha with heq | ha
        · obtain rfl := Entry.member.inj heq
          exact checkMember_not_mem hmember
        · exact fun hmem => (hroles a ha).1 (List.mem_cons_of_mem _ hmem)

/-! ## The invariant -/

/-- The declarations of unions keep to their rule, and every composite of a union has the
discriminator under its path. -/
structure Discriminated (single : Prop) (r : Repository (system limits)) : Prop where
  wellFormed : r.WellFormed
  cases : ∀ {m d}, r.model? m = some (.datatype d) → d.kind = .union → Cases single d.entries
  marked : ∀ {m d x f}, r.model? m = some (.datatype d) → d.kind = .union →
    r.object? x = some (.composite m f) →
    f.get? discriminatorRole = some (.accessor (Path.leaf (r.registeredName x) discriminatorMarker))

namespace Discriminated

/-- Whatever is made of a union gets the discriminator of the template. -/
theorem made (h : Discriminated single r) {owned : Bool} (hmade : Made owned r r') :
    Discriminated single r' where
  wellFormed := hmade.grew.1
  cases hd' hk := by
    obtain ⟨d, g, hd, rfl⟩ := hmade.grew.2.datatype_of hd'
    show Cases single d.entries
    exact h.cases hd hk
  marked {m d' x f} hd' hk ho := by
    obtain ⟨d, g, hd, rfl⟩ := hmade.grew.2.datatype_of hd'
    rcases hmade.grew.2.old_or_new ho with hold | hnew
    · rw [hmade.grew.2.registeredName hold]
      exact h.marked hd hk hold
    · obtain ⟨fT, hT⟩ := h.wellFormed.template hd
      have hmark := h.marked hd hk hT
      rw [h.wellFormed.registeredName_template hd, Path.leaf_empty] at hmark
      exact hmade.accessor hnew ho hd' (hmade.grew.2.object?_some hT) hmark

theorem mapDatatype (h : Discriminated single r) {k : ModelId} {f : Datatype Kind → Datatype Kind}
    (hr' : (r.mapDatatype k f).WellFormed)
    (hf : ∀ d, (f d).kind = d.kind ∧ (f d).registry = d.registry)
    (hentries : ∀ d, r.model? k = some (.datatype d) → d.kind = .union →
      Cases single (f d).entries) : Discriminated single (r.mapDatatype k f) where
  wellFormed := hr'
  cases {m d'} hd' hk := by
    obtain ⟨d, hd, rfl⟩ := Repository.model?_mapDatatype_datatype.mp hd'
    split
    · next hm =>
      subst hm
      rw [if_pos rfl, (hf d).1] at hk
      exact hentries d hd hk
    · next hm =>
      rw [if_neg hm] at hk
      exact h.cases hd hk
  marked {m d' x g} hd' hk ho := by
    obtain ⟨d, hd, rfl⟩ := Repository.model?_mapDatatype_datatype.mp hd'
    have hkind : d.kind = .union := by
      split at hk
      · rwa [(hf d).1] at hk
      · exact hk
    have hname := (Repository.preserves_mapDatatype (r := r) (k := k) (fun d => (hf d).2) x _
      ho).registeredName
    rw [hname]
    exact h.marked hd hkind ho

theorem mapEntries (h : Discriminated single r) {k : ModelId} {f : List Entry → List Entry}
    (hf : ∀ d, r.model? k = some (.datatype d) → d.kind = .union → Cases single (f d.entries)) :
    Discriminated single (r.mapEntries k f) :=
  h.mapDatatype (h.wellFormed.mapEntries k f) (fun _ => ⟨rfl, rfl⟩) hf

theorem putQualifiers (h : Discriminated single r) (k : ModelId) (qs : List Qualifier) :
    Discriminated single (r.putQualifiers k qs) :=
  h.mapDatatype (h.wellFormed.putQualifiers k qs) (fun _ => ⟨rfl, rfl⟩) fun _ => h.cases

theorem addTemplate (h : Discriminated single r) (name : String) {kind : Kind}
    (hkind : kind ≠ .union) : Discriminated single (r.addTemplate name kind) where
  wellFormed := h.wellFormed.addTemplate name kind
  cases {m d} hd hk := by
    rw [Repository.model?_addTemplate] at hd
    split at hd
    · obtain rfl := Model.datatype.inj (Option.some.inj hd)
      exact (hkind hk).elim
    · exact h.cases hd hk
  marked {m d x f} hd hk ho := by
    rw [Repository.model?_addTemplate] at hd
    split at hd
    · obtain rfl := Model.datatype.inj (Option.some.inj hd)
      exact (hkind hk).elim
    · next hm =>
      rw [Repository.object?_addTemplate] at ho
      split at ho
      · exact (hm (Object.composite.inj (Option.some.inj ho)).1.symm).elim
      · rw [(Repository.preserves_addTemplate h.wellFormed name kind x _ ho).registeredName]
        exact h.marked hd hk ho

/-- A field may be written unless it is the discriminator of a union. -/
theorem writeField (h : Discriminated single r) {x : ObjectId} {role : String}
    {value : Option Value}
    (hrole : ∀ m d f, r.model? m = some (.datatype d) → d.kind = .union →
      r.object? x = some (.composite m f) → role ≠ discriminatorRole) :
    Discriminated single (r.writeField x role value) where
  wellFormed := h.wellFormed.writeField x role value
  cases hd := h.cases (by simpa using hd)
  marked {m d y g} hd hk ho := by
    rw [Repository.model?_writeField] at hd
    obtain ⟨f, hf, rfl⟩ := Repository.composite_writeField.mp ho
    rw [(Repository.preserves_writeField x role value y _ hf).registeredName]
    have hmark := h.marked hd hk hf
    split
    · next hy =>
      subst hy
      have hne := hrole m d f hd hk hf
      cases value with
      | none => rw [Option.elim_none, Table.get?_erase, if_neg hne, hmark]
      | some v => rw [Option.elim_some, Table.get?_insert, if_neg hne, hmark]
    · exact hmark

theorem free (h : Discriminated single r) {id : ObjectId} (hid : r.NoTemplate id) :
    Discriminated single (r.free id) where
  wellFormed := h.wellFormed.free hid
  cases hd' hk := by
    obtain ⟨d, g, hd, rfl⟩ := Repository.datatype_of_free hd'
    show Cases single d.entries
    exact h.cases hd hk
  marked {m d' x f} hd' hk ho := by
    obtain ⟨d, g, hd, rfl⟩ := Repository.datatype_of_free hd'
    rw [Repository.object?_free] at ho
    split at ho
    · simp at ho
    · next hx =>
      rw [(Repository.lasts_free hx).registeredName]
      exact h.marked hd hk ho

end Discriminated

/-! ## Operations -/

/-- Fields of a datatype may be written, unless it is a union and the field its discriminator. -/
theorem installs_discriminated {kind : Kind} {role : String}
    (hrole : kind = .union → role ≠ discriminatorRole) :
    Installs (fun r : Repository (system limits) =>
      Discriminated single r ∧ r.kindOf? m = some kind) m role := by
  have hkind : ∀ {r' : Repository (system limits)} {d : Datatype Kind}, r'.kindOf? m = some kind →
      r'.model? m = some (.datatype d) → d.kind = .union → role ≠ discriminatorRole := by
    intro r' d hkind hd hk
    obtain ⟨e, he, hke⟩ := Repository.kindOf?_eq_some_iff.mp hkind
    obtain rfl := Repository.datatype_unique hd he
    exact hrole (hke.symm.trans hk)
  have hgrew : ∀ {r r' : Repository (system limits)},
      (Discriminated single r ∧ r.kindOf? m = some kind) → Made true r r' →
        Discriminated single r' ∧ r'.kindOf? m = some kind := by
    rintro r r' ⟨h, hk⟩ hmade
    obtain ⟨d, hd, hkd⟩ := Repository.kindOf?_eq_some_iff.mp hk
    obtain ⟨g, hg⟩ := hmade.grew.2.datatype hd
    exact ⟨h.made hmade, Repository.kindOf?_eq_some_iff.mpr ⟨_, hg, hkd⟩⟩
  have hwrite : ∀ {r : Repository (system limits)} {x f value},
      (Discriminated single r ∧ r.kindOf? m = some kind) → r.object? x = some (.composite m f) →
        Discriminated single (r.writeField x role value) ∧
          (r.writeField x role value).kindOf? m = some kind := by
    rintro r x f value ⟨h, hk⟩ ho
    refine ⟨h.writeField fun n d g hd hu ho' => ?_, by simpa [Repository.kindOf?] using hk⟩
    obtain rfl := (Repository.composite_unique ho ho').1
    exact hkind hk hd hu
  exact {
    wellFormed := fun h => h.1.wellFormed
    datatype := fun h => by
      obtain ⟨d, hd, -⟩ := Repository.kindOf?_eq_some_iff.mp h.2
      exact ⟨d, hd⟩
    made := hgrew
    write := fun h hmade _ ho => hwrite (hgrew h hmade) (hmade.grew.2.object?_some ho)
    erase := hwrite }

theorem discriminated_declare (h : Discriminated single r) {template : ObjectId}
    (hm : r.canonicalModel template = .ok m) {kind : Kind} (hkind : r.kindOf? m = some kind)
    {member : Member} (hrole : kind = .union → member.role ≠ discriminatorRole)
    (hdefault : kind = .union → single → member.labels = [] → ∀ other,
      .member other ∈ r.entriesOf m → other.labels = [] → other.role = member.role) :
    (Step.defineMember template member).Ensures r (fun _ => Discriminated single)
      fun _ => Discriminated single := by
  refine (Step.defineMember_installs hm (installs_discriminated hrole) ?_ ⟨h, hkind⟩).imp
    (fun _ _ h' => h'.1) fun _ _ h' => h'.1
  rintro r' ⟨h', hkind'⟩ hsame
  refine ⟨h'.mapEntries fun d hd hk => ?_, (Repository.kindOf?_mapEntries ..).trans hkind'⟩
  obtain ⟨e, he, hke⟩ := Repository.kindOf?_eq_some_iff.mp hkind'
  obtain rfl := Repository.datatype_unique hd he
  rw [Repository.entriesOf_datatype hd] at hsame
  exact (h'.cases hd hk).define (hrole (hke.symm.trans hk)) (hsame ▸ hdefault (hke.symm.trans hk))

theorem discriminated_rebase (h : Discriminated single r) {template : ObjectId}
    (hm : r.canonicalModel template = .ok m) (hkind : r.kindOf? m = some .struct)
    (base : Option ObjectId) :
    (Step.setBase template base).Ensures r (fun _ => Discriminated single)
      fun _ => Discriminated single := by
  refine (Step.setBase_installs hm (fun role => installs_discriminated (by simp)) ?_
    ⟨h, hkind⟩).imp (fun _ _ h' => h'.1) fun _ _ h' => h'.1
  rintro r' ⟨h', hkind'⟩
  refine ⟨h'.mapEntries fun d hd hu => ?_, (Repository.kindOf?_mapEntries ..).trans hkind'⟩
  obtain ⟨e, he, hk⟩ := Repository.kindOf?_eq_some_iff.mp hkind'
  obtain rfl := Repository.datatype_unique hd he
  simp [hk] at hu

/-- No declared member of a union has the role of the discriminator. -/
theorem discriminated_removeMember (h : Discriminated single r) (template : ObjectId)
    (role : String) :
    (Step.removeMember template role).Ensures r (fun _ => Discriminated single)
      fun _ => Discriminated single := by
  refine Step.ensures_canonical (fun _ => h) fun m hm => ?_
  obtain ⟨-, d, hd, -⟩ := Repository.canonicalModel_eq_ok_iff.mp hm
  have hkind : r.kindOf? m = some d.kind := Repository.kindOf?_eq_some_iff.mpr ⟨d, hd, rfl⟩
  refine (Step.removeMember_installs hm (fun hdeclares => ⟨installs_discriminated fun hu => ?_, ?_⟩)
    ⟨h, hkind⟩).imp (fun _ _ h' => h'.1) fun _ _ h' => h'.1
  · rintro rfl
    rw [Repository.Declares, Entry.any_declares_iff_mem_keys, Repository.entriesOf_datatype hd]
      at hdeclares
    exact (h.cases hd hu).unmarked hdeclares
  · refine ⟨h.mapEntries fun e he hu => ?_, (Repository.kindOf?_mapEntries ..).trans hkind⟩
    exact (h.cases he hu).remove role

theorem discriminated_newInstance (template : ObjectId) (under : String) (owned : Bool) :
    Step.Keeps (Discriminated single : Repository (system limits) → Prop)
      (Step.newInstance template under owned) :=
  ⟨fun _ h => Step.Ensures.imp (Step.newInstance_made h.wellFormed template under owned)
    (fun _ _ h' => h.made h'.1) fun _ _ h' => h.made h'⟩

/-! ## Constructors and edits -/

/-- A datatype that is no union may be begun. -/
theorem begins_discriminated (h : Discriminated single r) (name : String) {kind : Kind}
    (hkind : kind ≠ .union) :
    Begins r name kind fun r' => Begun r name kind r' ∧ Discriminated single r' where
  begun h' := h'.1
  start := ⟨.start h.wellFormed name kind, h.addTemplate name hkind⟩
  append {r'} entry hentry h' := by
    refine ⟨Repository.Edited.mapEntries h'.1 rfl _, h'.2.mapEntries fun d hd hu => ?_⟩
    exact (h'.2.cases hd hu).of_members (Entry.members_append hentry)

theorem discriminated_newStruct (h : Discriminated single r) (name : String)
    (entries : List Entry) :
    (newStruct name entries).Ensures r (fun _ => Discriminated single)
      fun _ => Discriminated single := by
  have hbegins : Begins r name .struct fun r' =>
      Begun r name .struct r' ∧ Discriminated single r' :=
    begins_discriminated h name (by simp)
  refine (newStruct_ensures (P := fun r' => Begun r name .struct r' ∧ Discriminated single r')
    (fun _ h' => h'.1) hbegins.start (fun _ _ => h) (fun b hb => ?_) (fun member _ _ r' h' => ?_)
    fun r' qs h' => ⟨h'.1.putQualifiers qs, h'.2.putQualifiers _ qs⟩).imp (fun _ _ h' => h'.2)
      fun _ _ h' => h'
  · have hstart := hbegins.start
    have halias : ∀ b' n, some b = some b' → (r.addTemplate name Kind.struct).modelOf? b' = some n →
        (r.addTemplate name Kind.struct).isAlias n = false := by
      rintro b' n ⟨⟩ hn
      exact isAlias_of_struct (Repository.kind?_addTemplate hb) hn
    refine ((Step.setBase_fields hstart.1.wellFormed hstart.1.canonicalModel halias).and
      (discriminated_rebase hstart.2 hstart.1.canonicalModel hstart.1.kindOf?_eq (some b))).imp
        (fun _ _ h' => ⟨hstart.1.trans h'.1.edited, h'.2⟩) fun _ _ h' => h'.2
  · exact ((begun_defineMember h'.1 member).and (discriminated_declare h'.2 h'.1.canonicalModel
      h'.1.kindOf?_eq (by simp) (by simp))).imp (fun _ _ h => h) fun _ _ h => h.2

/-- A union gets its discriminator before it has members or instances. -/
theorem Discriminated.addUnion (h : Discriminated single r) (name : String)
    (discriminator : ObjectId) :
    Discriminated single (((r.addTemplate name Kind.union).mapEntries r.nextModel
      (· ++ [.type discriminator])).writeField r.nextObject discriminatorRole
        (some (.accessor discriminatorMarker))) := by
  set r₁ := (r.addTemplate name Kind.union).mapEntries r.nextModel (· ++ [.type discriminator])
    with hr₁
  have hwf : r₁.WellFormed := (h.wellFormed.addTemplate name Kind.union).mapEntries _ _
  -- What is new is one model and one object, its template.
  have hmodel : ∀ {m d}, r₁.model? m = some (.datatype d) →
      (m = r.nextModel ∧ d.entries = [.type discriminator] ∧ d.template = r.nextObject) ∨
        (m ≠ r.nextModel ∧ r.model? m = some (.datatype d)) := by
    intro m d hd
    obtain ⟨e, he, rfl⟩ := Repository.model?_mapDatatype_datatype.mp hd
    rw [Repository.model?_addTemplate] at he
    split at he
    · next hm =>
      obtain rfl := Model.datatype.inj (Option.some.inj he)
      subst hm
      exact Or.inl ⟨rfl, by simp [Repository.freshDatatype], by simp [Repository.freshDatatype]⟩
    · next hm =>
      rw [if_neg hm]
      exact Or.inr ⟨hm, he⟩
  refine ⟨hwf.writeField _ _ _, fun {m d} hd hk => ?_, fun {m d x g} hd hk ho => ?_⟩
  · rcases hmodel (by simpa using hd) with ⟨-, hentries, -⟩ | ⟨-, hd⟩
    · rw [hentries]
      exact Cases.nil.of_members rfl
    · exact h.cases hd hk
  · rw [Repository.model?_writeField] at hd
    obtain ⟨f, hf, rfl⟩ := Repository.composite_writeField.mp ho
    rw [(Repository.preserves_writeField _ _ _ x _ hf).registeredName]
    have hobject : (r.addTemplate name Kind.union).object? x = some (.composite m f) := hf
    rw [Repository.object?_addTemplate] at hobject
    rcases hmodel hd with ⟨rfl, -, htemplate⟩ | ⟨hm, hd⟩
    · have hx : x = r.nextObject := by
        split at hobject
        · next hx => exact hx
        · exact (Nat.lt_irrefl _ (h.wellFormed.model_lt hobject)).elim
      subst hx
      have hname := hwf.registeredName_template hd
      rw [htemplate] at hname
      rw [if_pos rfl, Option.elim_some, Table.get?_insert, if_pos rfl, hname, Path.leaf_empty]
    · split at hobject
      · exact (hm (Object.composite.inj (Option.some.inj hobject)).1.symm).elim
      · next hx =>
        have hadded := Repository.preserves_addTemplate h.wellFormed name Kind.union x _ hobject
        have hlisted : (r.addTemplate name Kind.union).Preserves r₁ :=
          Repository.preserves_mapDatatype fun _ => rfl
        rw [if_neg hx, (hlisted x _ hf).registeredName, hadded.registeredName]
        exact h.marked hd hk hobject

/-- The template of a union that has just been begun is its only instance. -/
theorem discriminated_discriminator (h : Discriminated single r) (name : String)
    (discriminator : ObjectId)
    (hbegun : Begun r name .union ((r.addTemplate name Kind.union).mapEntries r.nextModel
      (· ++ [.type discriminator]))) :
    (Step.updateInstances r.nextModel discriminatorRole
      (some (.accessor discriminatorMarker))).Ensures
        ((r.addTemplate name Kind.union).mapEntries r.nextModel (· ++ [.type discriminator]))
        (fun _ r' => Begun r name .union r' ∧ Discriminated single r' ∧
          r'.entriesOf r.nextModel = [.type discriminator]) fun _ _ => False := by
  obtain ⟨d, hd, htemplate, hothers, hlisted⟩ : ∃ d, ((r.addTemplate name Kind.union).mapEntries
      r.nextModel (· ++ [.type discriminator])).model? r.nextModel = some (.datatype d) ∧
        d.template = r.nextObject ∧ Step.otherInstances (.datatype d) d.template = [] ∧
          d.entries = [.type discriminator] := by
    refine ⟨_, Repository.model?_mapEntries
      ((Repository.model?_addTemplate ..).trans (if_pos rfl)) _, rfl, ?_, rfl⟩
    simp [Step.otherInstances, Repository.freshDatatype, Model.registry?, Model.datatype?,
      Table.insert, Table.empty, Table.put, system]
  have hleaf : (Step.updateInstances r.nextModel discriminatorRole
      (some (.accessor discriminatorMarker))).Ensures
        ((r.addTemplate name Kind.union).mapEntries r.nextModel (· ++ [.type discriminator]))
        (fun _ => Discriminated single) fun _ _ => False := by
    refine Step.ensures_updateInstances hbegun.wellFormed hd ?_
    rw [hothers, htemplate]
    exact h.addUnion name discriminator
  refine ((Step.updateInstances_updated hbegun.wellFormed hd discriminatorRole _).and
    hleaf).imp ?_ fun _ _ h' => h'.2
  rintro _ r' ⟨hupdated, hdisc⟩
  refine ⟨hbegun.trans hupdated.edited.weaken, hdisc, ?_⟩
  rw [hupdated.edited.sameBut.entriesOf hd (by simp), Repository.entriesOf_datatype hd, hlisted]

theorem discriminated_newUnion (h : Discriminated single r) (name : String)
    (discriminator : ObjectId) (entries : List Entry) :
    (newUnion name discriminator entries).Ensures r (fun _ => Discriminated single)
      fun _ => Discriminated single := by
  cases hcases : checkCases name r none [discriminatorRole] entries with
  | error e =>
    simp only [newUnion, ensures_bind, ensures_query, hcases]
    exact ⟨fun _ _ => ⟨fun _ h => by simp at h, fun _ _ => h⟩, fun _ _ => h⟩
  | ok _ =>
    obtain ⟨hroles, hagree⟩ := checkCases_agree hcases
    -- What has been defined so far is among the members that have been checked.
    refine (newUnion_ensures (P := fun r' => Begun r name .union r' ∧ Discriminated single r' ∧
      ∀ a, .member a ∈ r'.entriesOf r.nextModel → .member a ∈ entries) (fun _ h' => h'.1)
      (fun _ => h) (fun hbegun => ?_) (fun member hmem _ r' h' => ?_) ?_ h.wellFormed).imp
        (fun _ _ h' => h'.2.1) fun _ _ h' => h'
    · refine (discriminated_discriminator h name discriminator hbegun).imp ?_
        fun _ _ h' => h'.elim
      rintro _ r₁ ⟨hbegun₁, hdisc, hentries⟩
      exact ⟨hbegun₁, hdisc, fun a ha => by simp [hentries] at ha⟩
    · obtain ⟨hbegun, hdisc, hentries⟩ := h'
      have hm := hbegun.canonicalModel
      refine ((Step.defineMember_fields hbegun.wellFormed hm member).and
        (discriminated_declare hdisc hm hbegun.kindOf?_eq (fun _ => ?_) fun _ _ hla b hb hlb =>
          hagree b member (hentries b hb) hmem hlb hla)).imp ?_ fun _ _ h' => h'.2
      · simpa using (hroles member hmem).1
      · rintro _ r₁ ⟨⟨hedited, hdefined, -⟩, hdisc₁⟩
        refine ⟨hbegun.trans hedited, hdisc₁, fun a ha => ?_⟩
        rw [hdefined] at ha
        rcases Entry.mem_define ha with heq | ha
        · exact heq ▸ hmem
        · exact hentries a ha
    · rintro r' qs ⟨hbegun, hdisc, hentries⟩
      refine ⟨hbegun.putQualifiers qs, hdisc.putQualifiers _ qs, fun a ha => hentries a ?_⟩
      rwa [Repository.entriesOf_putQualifiers] at ha

theorem discriminated_newTag (name : String) :
    Step.Keeps (Discriminated single : Repository (system limits) → Prop)
      (Idl.newAnnotation name) :=
  (Step.keeps_newTemplate_of fun h => h.addTemplate name (by simp)).bind fun made =>
    Step.keeps_pure made.1

theorem discriminated_newEnum (h : Discriminated single r) (name : String)
    (enumerators : List (String × Option Int64)) :
    (newEnum name enumerators).Ensures r (fun _ => Discriminated single)
      fun _ => Discriminated single := by
  refine (newEnum_ensures (begins_discriminated h name (by simp)) fun r' h' role scalar => ?_).imp
    (fun _ _ h' => h'.2) ?_
  · obtain ⟨hbegun, hdisc⟩ := h'
    obtain ⟨-, d, hd, -⟩ := Repository.canonicalModel_eq_ok_iff.mp hbegun.canonicalModel
    have hinstalls : Installs (fun r' : Repository (system limits) =>
        Discriminated single r' ∧ r'.kindOf? r.nextModel = some Kind.enum) r.nextModel role :=
      installs_discriminated (by simp)
    refine ((updateInstances_leaf hbegun.wellFormed hd role (v := .scalar scalar) rfl).and
      (hinstalls.install ⟨hdisc, hbegun.kindOf?_eq⟩ (Step.made_refl hbegun.wellFormed)
        (.of_leaf rfl))).imp ?_ fun _ _ h' => h'.1
    rintro _ r₁ ⟨hedited, hdisc₁, -⟩
    exact ⟨hbegun.trans hedited.weaken, hdisc₁⟩
  · rintro _ r' rfl
    exact h

theorem discriminated_newTypedef (h : Discriminated single r) (name : String) (target : ObjectId)
    (qualifiers : List Qualifier) :
    (newTypedef name target qualifiers).Ensures r (fun _ => Discriminated single)
      fun _ => Discriminated single := by
  refine (newTypedef_ensures (begins_discriminated h name (by simp)) target qualifiers).imp
    (fun _ _ h' => h'.2) ?_
  rintro _ r' rfl
  exact h

theorem discriminated_newConstant (h : Discriminated single r) (name : String)
    (datatype : ObjectId) (value : Scalar) :
    (newConstant name datatype value).Ensures r (fun _ => Discriminated single)
      fun _ => Discriminated single := by
  refine (newConstant_ensures (begins_discriminated h name (by simp)) datatype value).imp
    (fun _ _ h' => h'.2) ?_
  rintro _ r' rfl
  exact h

theorem discriminated_addToScope (scope child : ObjectId) :
    Step.Keeps (Discriminated single : Repository (system limits) → Prop)
      (Step.addToScope scope child) := by
  apply Step.keeps_addToScope_of
  · intro r m outer h houter
    exact h.mapDatatype (h.wellFormed.putScope m houter) (fun _ => ⟨rfl, rfl⟩) fun _ => h.cases
  · intro r m h _
    refine h.mapEntries fun d hd hk => (h.cases hd hk).of_members ?_
    split
    · rfl
    · exact Entry.members_append rfl

theorem discriminated_addToModule (scope child : ObjectId) :
    Step.Keeps (Discriminated single : Repository (system limits) → Prop)
      (addToModule scope child) :=
  (Step.keeps_query _).bind fun _ => discriminated_addToScope scope child

theorem discriminated_newModule (name : String) (parent : Option ObjectId) :
    Step.Keeps (Discriminated single : Repository (system limits) → Prop)
      (newModule name parent) := by
  refine (Step.keeps_query _).bind fun _ => ?_
  refine (Step.keeps_newTemplate_of fun h => h.addTemplate name (by simp)).bind fun made => ?_
  cases parent with
  | none => exact Step.keeps_pure made.1
  | some scope =>
    exact (discriminated_addToScope scope made.1).bind fun _ => Step.keeps_pure made.1

theorem discriminated_defineMember (h : Discriminated single r) (template : ObjectId)
    (member : Member)
    (hdefault : single → member.labels = [] → ∀ m, r.canonicalModel template = .ok m →
      r.kindOf? m = some .union → ∀ other, .member other ∈ r.entriesOf m → other.labels = [] →
        other.role = member.role) :
    (defineMember template member).Ensures r (fun _ => Discriminated single)
      fun _ => Discriminated single := by
  refine defineMember_ensures (fun _ => h) fun hkind => ?_
  refine Step.ensures_canonical (fun _ => h) fun m hm => ?_
  rw [← Repository.kindOf?_of_canonicalModel hm] at hkind
  rcases hkind with hstruct | ⟨hunion, hrole⟩
  · exact discriminated_declare h hm hstruct (by simp) (by simp)
  · exact discriminated_declare h hm hunion (fun _ => hrole) fun _ hsingle hlabels =>
      hdefault hsingle hlabels m hm hunion

/-- Only structures get a base. -/
theorem discriminated_setBase (h : Discriminated single r) (template : ObjectId)
    (base : Option ObjectId) :
    (setBase template base).Ensures r (fun _ => Discriminated single)
      fun _ => Discriminated single := by
  refine (setBase_ensures (P := fun _ => Discriminated single) (fun _ => h)
    fun target hstruct _ => ?_).imp ?_ fun _ _ h' => h'
  · refine Step.ensures_canonical (fun _ => h) fun m hm => ?_
    exact discriminated_rebase h hm ((Repository.kindOf?_of_canonicalModel hm).trans hstruct) target
  · rintro _ r' ⟨-, -, h'⟩
    exact h'

/-! ## Runs -/

/-- A constructor or an edit of the facade, the removal of a member, or the making or the release of
an instance. -/
def Operation.Maintains : Operation → Prop
  | repository (.removeMember _ _) => True
  | repository (.newInstance _ _ _) => True
  | repository (.releaseInstance _) => True
  | repository _ => False
  | _ => True

/-- The rule under which a union has one default case at most: one is defined only in the place of
the one that is there. -/
def Operation.AgreesOnDefault (r : Repository (system limits)) (operation : Operation) : Prop :=
  ∀ template member, operation = .defineMember template member → member.labels = [] →
    ∀ m, r.canonicalModel template = .ok m → r.kindOf? m = some .union →
      ∀ other, .member other ∈ r.entriesOf m → other.labels = [] → other.role = member.role

theorem Operation.perform_discriminated (h : Discriminated single r) {operation : Operation}
    (hop : operation.Maintains) (hrule : single → operation.AgreesOnDefault r) :
    Discriminated single (operation.perform r) := by
  cases operation with
  | repository inner =>
    cases inner with
    | removeMember template role => exact (discriminated_removeMember h template role).repo
    | newInstance template under owned =>
      exact (discriminated_newInstance template under owned).repo h
    | releaseInstance id =>
      exact (Step.keeps_releaseInstance_of (fun h' => h'.wellFormed) (fun h' hid => h'.free hid)
        id).repo h
    | _ => exact hop.elim
  | newTag name => exact (discriminated_newTag name).repo h
  | newStruct name entries => exact (discriminated_newStruct h name entries).repo
  | newUnion name discriminator entries =>
    exact (discriminated_newUnion h name discriminator entries).repo
  | newEnum name enumerators => exact (discriminated_newEnum h name enumerators).repo
  | newTypedef name target qualifiers =>
    exact (discriminated_newTypedef h name target qualifiers).repo
  | newModule name parent => exact (discriminated_newModule name parent).repo h
  | addToModule scope child => exact (discriminated_addToModule scope child).repo h
  | newConstant name datatype value =>
    exact (discriminated_newConstant h name datatype value).repo
  | defineMember template member =>
    refine (discriminated_defineMember h template member fun hsingle hlabels => ?_).repo
    exact hrule hsingle template member rfl hlabels
  | setBase template base => exact (discriminated_setBase h template base).repo

theorem discriminated_initial : Discriminated single (initial limits) := by
  have hinitial : (initial limits).WellFormed ∧
      ∀ m d, (initial limits).model? m = some (.datatype d) → d.kind ≠ .union := by
    refine initial_of_addTemplate (P := fun r => r.WellFormed ∧
      ∀ m d, r.model? m = some (.datatype d) → d.kind ≠ .union)
      (fun {r} name {kind} hkind h => ⟨h.1.addTemplate name kind, fun m d hd => ?_⟩)
      ⟨Repository.wellFormed_empty, fun m d hd => by simp at hd⟩
    rw [Repository.model?_addTemplate] at hd
    split at hd
    · obtain rfl := Model.datatype.inj (Option.some.inj hd)
      rintro rfl
      simp at hkind
    · exact h.2 m d hd
  exact ⟨hinitial.1, fun hd hk => (hinitial.2 _ _ hd hk).elim,
    fun hd hk => (hinitial.2 _ _ hd hk).elim⟩

/-- Whatever is edited, made or released, no member of a union has the role of the discriminator,
and the union's template and all its instances hold the discriminator, each under its own name. And
if a default case is only ever defined in the place of the one that is there, there is one at most.
-/
theorem union_of_reached
    (h : Reached Operation.perform (fun _ operation => operation.Maintains) (initial limits) r)
    (hm : r.kindOf? m = some .union) :
    (∀ member, .member member ∈ r.entriesOf m → member.role ≠ discriminatorRole) ∧
      r.templateField? m discriminatorRole = some (.accessor discriminatorMarker) ∧
      (∀ id, r.modelOf? id = some m → r.field? id discriminatorRole =
        some (.accessor (r.registeredName id ++ discriminatorMarker))) ∧
      (Reached Operation.perform
          (fun r operation => operation.Maintains ∧ operation.AgreesOnDefault r) (initial limits) r →
        (defaultCases (r.entriesOf m)).length ≤ 1) := by
  obtain ⟨d, hd, hk⟩ := Repository.kindOf?_eq_some_iff.mp hm
  have hdisc : Discriminated False r := h.invariant discriminated_initial fun _ _ hr hop =>
    Operation.perform_discriminated hr hop False.elim
  have hwf := hdisc.wellFormed
  refine ⟨fun member hmember => ?_, ?_, fun id hid => ?_, fun hagree => ?_⟩
  · rw [Repository.entriesOf_datatype hd] at hmember
    exact (hdisc.cases hd hk).role_ne hmember
  · obtain ⟨f, hT⟩ := hwf.template hd
    have hmark := hdisc.marked hd hk hT
    rw [hwf.registeredName_template hd, Path.leaf_empty] at hmark
    rw [Repository.templateField?_eq hd hT, hmark]
  · obtain ⟨f, ho⟩ := hwf.composite_of_modelOf? hd hid
    have hfields : r.fields? id = some f := Repository.fields?_eq_some_iff.mpr ⟨m, ho⟩
    have hmark := hdisc.marked hd hk ho
    rw [Path.leaf, if_pos (Or.inr rfl)] at hmark
    rw [Repository.field?, hfields, Option.bind_some, hmark]
  · have hsingle : Discriminated True r := hagree.invariant discriminated_initial
      fun _ _ hr hrule => Operation.perform_discriminated hr hrule.1 fun _ => hrule.2
    rw [Repository.entriesOf_datatype hd]
    exact (hsingle.cases hd hk).length_defaultCases_le

/-- A union of two cases has an instance, loses a case, and gets its default case redefined. -/
theorem union_after_edits :
    let r₀ := Operation.run (initial ⟨4, 4⟩)
      [.newUnion "U" ⟨6⟩ [.member ⟨"a", ⟨6⟩, [], [.int 1]⟩, .member ⟨"b", ⟨6⟩, [], []⟩],
        .repository (.newInstance ⟨21⟩ "u" false), .repository (.removeMember ⟨21⟩ "a")]
    let r := Operation.perform r₀ (.defineMember ⟨21⟩ ⟨"b", ⟨0⟩, [], []⟩)
    r.kindOf? ⟨21⟩ = some .union ∧
      r.entriesOf ⟨21⟩ = [.type ⟨6⟩, .member ⟨"b", ⟨0⟩, [], []⟩] ∧
      r.instanceName? ⟨22⟩ = some "u" ∧
      (∀ id, r.modelOf? id = some ⟨21⟩ → r.field? id discriminatorRole =
        some (.accessor (r.registeredName id ++ discriminatorMarker))) ∧
      (defaultCases (r.entriesOf ⟨21⟩)).length ≤ 1 := by
  intro r₀ r
  have hkind : r.kindOf? ⟨21⟩ = some .union := by decide +kernel
  have hentries : r.entriesOf ⟨21⟩ = [.type ⟨6⟩, .member ⟨"b", ⟨0⟩, [], []⟩] := by decide +kernel
  have hname : r.instanceName? ⟨22⟩ = some "u" := by decide +kernel
  have hmodel : r₀.canonicalModel ⟨21⟩ = .ok ⟨21⟩ := by decide +kernel
  have hentries₀ : r₀.entriesOf ⟨21⟩ = [.type ⟨6⟩, .member ⟨"b", ⟨6⟩, [], []⟩] := by decide +kernel
  have h₀ : Reached Operation.perform
      (fun r operation => operation.Maintains ∧ operation.AgreesOnDefault r) (initial ⟨4, 4⟩) r₀ := by
    simp only [r₀, Operation.run, List.foldl_cons, List.foldl_nil]
    refine .next (.next (.next .start ?_) ?_) ?_
    all_goals exact ⟨trivial, by simp [Operation.AgreesOnDefault]⟩
  clear_value r₀
  have hrule : Operation.AgreesOnDefault r₀ (.defineMember ⟨21⟩ ⟨"b", ⟨0⟩, [], []⟩) := by
    rintro template member ⟨⟩ - m hm - other hother -
    obtain rfl := Except.ok.inj (hmodel.symm.trans hm)
    rw [hentries₀] at hother
    simp at hother
    rw [hother]
  have h : Reached Operation.perform
      (fun r operation => operation.Maintains ∧ operation.AgreesOnDefault r) (initial ⟨4, 4⟩) r :=
    .next h₀ ⟨trivial, hrule⟩
  obtain ⟨-, -, hmarked, hdefault⟩ := union_of_reached (h.mono fun _ _ hop => hop.1) hkind
  exact ⟨hkind, hentries, hname, hmarked, hdefault h⟩

/-- A second default case is defined in a union that has been made with one. -/
theorem two_default_cases :
    let r₀ := Operation.run (initial ⟨4, 4⟩) [.newUnion "U" ⟨6⟩ [.member ⟨"b", ⟨6⟩, [], []⟩]]
    let r := Operation.perform r₀ (.defineMember ⟨21⟩ ⟨"c", ⟨6⟩, [], []⟩)
    Reached Operation.perform (fun _ operation => operation.Maintains) (initial ⟨4, 4⟩) r ∧
      ((defineMember ⟨21⟩ ⟨"c", ⟨6⟩, [], []⟩).run r₀).answer = .ok () ∧
      r.kindOf? ⟨21⟩ = some .union ∧ (defaultCases (r.entriesOf ⟨21⟩)).length = 2 := by
  intro r₀ r
  have hanswer : ((defineMember ⟨21⟩ ⟨"c", ⟨6⟩, [], []⟩).run r₀).answer = .ok () := by
    decide +kernel
  have hkind : r.kindOf? ⟨21⟩ = some .union := by decide +kernel
  have hcases : (defaultCases (r.entriesOf ⟨21⟩)).length = 2 := by decide +kernel
  have h₀ : Reached Operation.perform (fun _ operation => operation.Maintains) (initial ⟨4, 4⟩)
      r₀ := by
    simp only [r₀, Operation.run, List.foldl_cons, List.foldl_nil]
    exact .next .start trivial
  clear_value r₀
  exact ⟨.next h₀ trivial, hanswer, hkind, hcases⟩

end Metamodel.Idl
