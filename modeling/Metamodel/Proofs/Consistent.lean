import Metamodel.Proofs.Editing

/-!
# Metamodel.Proofs.Consistent -- operations that do all or nothing

A repository is `Consistent` if no datatype contains itself, what is held is held once, and every
composite follows its template. In such a repository an operation that edits a datatype fails, if
at all, before it changes anything: its checks come first, then the value of a member is made or
refused as a whole, and after that no copy can fail. Main statements: each operation, with what it
needs to be all or nothing.
-/

namespace Metamodel

open Relation (TransGen)

variable {κ : Type} {ts : TypeSystem κ} {r r' : Repository ts} {E : ModelId → ModelId → Prop}

namespace Repository

/-! ## The invariant -/

/-- No datatype contains itself, what is held is held once, and composites follow their templates.
-/
structure Consistent (r : Repository ts) : Prop where
  acyclic : r.Acyclic
  coherent : r.Coherent r.Contains

theorem Coherent.consistent (h : r.Coherent E) (hE : ∀ m, ¬ TransGen E m m) : r.Consistent where
  acyclic := (h.bounded.orderly hE).acyclic
  coherent := ⟨h.bounded.self, h.tidy, h.synced⟩

theorem Coherent.mono (h : r.Coherent E) {E' : ModelId → ModelId → Prop}
    (hE : ∀ m n, E m n → E' m n) : r.Coherent E' :=
  ⟨h.bounded.mono hE, h.tidy, h.synced⟩

namespace Consistent

theorem wellFormed (h : r.Consistent) : r.WellFormed := h.coherent.bounded.wellFormed

theorem tidy (h : r.Consistent) : r.Tidy := h.coherent.tidy

theorem orderly (h : r.Consistent) : r.Orderly := h.coherent.bounded.orderly h.acyclic

/-- Copies of what there is leave it in step. -/
theorem copied (h : r.Consistent) (hr' : Step.Copied r r') : r'.Consistent :=
  (h.coherent.copied hr').consistent h.acyclic

/-- Edges from `m` to what does not lead back to it may be added. -/
theorem addEdges (h : r.Consistent) (m : ModelId) :
    r.Coherent (AddEdges r.Contains m) ∧ ∀ n, ¬ TransGen (AddEdges r.Contains m) n n :=
  ⟨h.coherent.mono fun _ _ => Or.inl, acyclic_addEdges h.acyclic m⟩

end Consistent

theorem Coherent.mapDatatype (h : r.Coherent E) {k : ModelId} {f : Datatype κ → Datatype κ}
    (hr' : (r.mapDatatype k f).WellFormed)
    (hf : ∀ d, (f d).kind = d.kind ∧ (f d).registry = d.registry ∧ (f d).template = d.template) :
    (r.mapDatatype k f).Coherent E where
  bounded := h.bounded.mapDatatype hr' fun d => ⟨(hf d).1, (hf d).2.2⟩
  tidy := h.tidy.mapDatatype hf
  synced := h.synced.mapDatatype fun d => (hf d).2

theorem Coherent.mapEntries (h : r.Coherent E) (m : ModelId) (f : List Entry → List Entry) :
    (r.mapEntries m f).Coherent E :=
  h.mapDatatype (h.bounded.wellFormed.mapEntries m f) fun _ => ⟨rfl, rfl, rfl⟩

theorem coherent_declarative : Declarative (Coherent E : Repository ts → Prop) where
  wellFormed h := h.bounded.wellFormed
  addTemplate name kind h :=
    ⟨h.bounded.addTemplate name kind, h.tidy.addTemplate h.bounded.wellFormed name kind,
      h.synced.addTemplate h.bounded.wellFormed name kind⟩
  mapEntries m f _ h := h.mapEntries m f
  putQualifiers m qs h :=
    h.mapDatatype (h.bounded.wellFormed.putQualifiers m qs) fun _ => ⟨rfl, rfl, rfl⟩
  putScope m _ h hs :=
    h.mapDatatype (h.bounded.wellFormed.putScope m hs) fun _ => ⟨rfl, rfl, rfl⟩

theorem consistent_declarative : Declarative (Consistent : Repository ts → Prop) where
  wellFormed := Consistent.wellFormed
  addTemplate name kind h :=
    (coherent_declarative.addTemplate name kind h.coherent).consistent h.acyclic
  mapEntries m f _ h := (h.coherent.mapEntries m f).consistent h.acyclic
  putQualifiers m qs h := (coherent_declarative.putQualifiers m qs h.coherent).consistent h.acyclic
  putScope m _ h hs := (coherent_declarative.putScope m h.coherent hs).consistent h.acyclic

theorem Evolved.mapEntries {r₀ : Repository ts} (h : r₀.Evolved E r) (m : ModelId)
    (f : List Entry → List Entry) : r₀.Evolved E (r.mapEntries m f) :=
  h.trans ⟨h.coherent.mapEntries m f, preserves_mapDatatype fun _ => rfl,
    steady_mapDatatype fun _ => ⟨rfl, rfl⟩⟩

theorem Coherent.writeElement (h : r.Coherent E) (id : ObjectId) (index : Nat) {value : Value}
    (hvalue : r.Fresh value) : (r.writeElement id index value).Coherent E :=
  ⟨h.bounded.writeElement id index value, h.tidy.writeElement id index hvalue,
    h.synced.writeElement id index value⟩

/-- A release of what nothing holds leaves the rest in step. -/
theorem Coherent.release (h : r.Coherent E) {root : ObjectId} (hno : r.NoTemplate root)
    (hroot : r.Unheld root) : (r.freeAll (r.owned root)).Coherent E where
  bounded := freeAll_of_free bounded_closed.free h.bounded fun _ hx =>
    h.bounded.wellFormed.noTemplate_of_owned hno hx
  tidy := h.tidy.release hroot
  synced := h.synced.freeAll fun ho ha hx => h.tidy.not_mem_owned hroot ho ha hx

end Repository

namespace Step

open Repository (Consistent Loose coherent_declarative)

variable {α β : Type}

/-! ## Instances, collections and elements -/

/-- The step leaves a consistent repository, or fails and leaves the repository as it was. -/
def AllOrNothing (x : Step ts α) (r : Repository ts) : Prop :=
  x.Ensures r (fun _ => Consistent) fun _ r' => r' = r

theorem AllOrNothing.keeps {x : Step ts α}
    (h : ∀ r : Repository ts, r.Consistent → AllOrNothing x r) : Keeps Consistent x :=
  ⟨fun r hr => (h r hr).imp (fun _ _ h' => h') fun _ _ h' => h'.symm ▸ hr⟩

/-- Of a step that is all or nothing a failure leaves no trace. -/
theorem AllOrNothing.repo_of_error {x : Step ts α} (h : AllOrNothing x r) {e : Error}
    (he : (x.run r).answer = .error e) : (x.run r).repo = r :=
  h.fails_of_answer he

theorem MakesWhole.allOrNothing {x : Step ts Value} (hx : MakesWhole x r) (h : r.Consistent) :
    AllOrNothing x r :=
  Ensures.imp hx (fun _ _ h' => h.copied h'.1) fun _ _ h' => h'

theorem allOrNothing_newInstance (h : r.Consistent) (template : ObjectId) (under : String)
    (owned : Bool) : AllOrNothing (newInstance template under owned) r :=
  (newInstance_whole h.orderly h.tidy template under owned).allOrNothing h

theorem allOrNothing_createRoleInstance (h : r.Consistent) (datatype : ObjectId) (role : String)
    (qualifiers : List Qualifier) :
    AllOrNothing (createRoleInstance datatype role qualifiers) r :=
  (createRoleInstance_whole h.orderly h.tidy datatype role qualifiers).allOrNothing h

theorem allOrNothing_newCollection (h : r.Consistent) (content : ObjectId) (bound : Bound)
    (name : String) (owned : Bool) : AllOrNothing (newCollection content bound name owned) r := by
  refine Ensures.imp (newCollection_makes h.wellFormed content bound name owned) ?_ fun _ _ h' => h'
  rintro id r' ⟨hgrew, -, hold⟩
  exact h.copied (copied_of_oldComposites hgrew hold)

theorem allOrNothing_element (h : r.Consistent) (id : ObjectId) (index : Nat) :
    AllOrNothing (element id index) r := by
  refine element_ensures (fun _ => rfl) (fun _ _ => h) fun s content _ _ => ?_
  refine (cloneValue_whole h.orderly h.tidy content _ _).imp ?_ fun _ _ h' => h'
  rintro value r' ⟨hcopied, hloose⟩
  have hfresh := h.tidy.fresh h.wellFormed hcopied.grew.2 hloose
  exact ((h.coherent.copied hcopied).writeElement id index hfresh).consistent h.acyclic

/-- A leaf is overwritten after the element has been made, so that a refusal may leave the element.
-/
theorem consistent_setElement (id : ObjectId) (index : Nat) {value : Value}
    (hvalue : value.object? = none) :
    Keeps (Consistent : Repository ts → Prop) (setElement id index value) := by
  refine keeps_setElement_of_element (AllOrNothing.keeps fun r h => allOrNothing_element h id index)
    fun r h => ?_
  exact (h.coherent.writeElement id index (Repository.fresh_of_leaf hvalue)).consistent h.acyclic

theorem consistent_releaseInstance (h : r.Consistent) {id : ObjectId} (hid : r.Unheld id) :
    (releaseInstance id).Ensures r (fun _ => Consistent) fun _ => Consistent :=
  releaseInstance_ensures h fun _ hm hne =>
    (h.coherent.release (h.wellFormed.noTemplate_of_modelOf hm hne) hid).consistent h.acyclic

/-! ## Members -/

theorem updateInstances_consistent (h : r.Consistent) {m : ModelId} {d : Datatype κ}
    (hd : r.model? m = some (.datatype d)) (role : String) {value : Option Value}
    (hvalue : ∀ v, value = some v → v.object? = none) :
    (updateInstances m role value).Ensures r
      (fun _ r' => r'.Consistent ∧ ∃ d', r'.model? m = some (.datatype d')) fun _ _ => False := by
  have hfresh : ∀ v, value = some v → r.Fresh v := fun v hv =>
    Repository.fresh_of_leaf (hvalue v hv)
  have hplaced : ∀ y, value = some (.composite y) → r.Placed (r.Contains m) y := by
    intro y hy
    have := hvalue _ hy
    simp [Value.object?] at this
  refine (updateInstances_ensures h.acyclic h.coherent hd role hfresh hplaced).imp ?_
    fun _ _ h' => h'
  intro _ r' h'
  obtain ⟨d', hd', -⟩ := h'.steady.datatype hd
  exact ⟨h'.coherent.consistent h.acyclic, d', hd'⟩

/-- All that is asked of a member, by the time that its datatype is changed. -/
structure Accepts (r : Repository ts) (m : ModelId) (template : ObjectId) (member : Member) :
    Prop where
  canonical : r.canonicalModel template = .ok m
  role : Role.isValid member.role = true
  qualifiers : r.assertQualifiers member.qualifiers = .ok ()
  admits : Admits r m member
  value : ∃ v, ((createRoleInstance member.datatype member.role member.qualifiers).run r).answer =
    .ok v

/-- A member is declared if all that is asked of it holds; else nothing is done. -/
theorem defineMember_ensures (h : r.Consistent) (template : ObjectId) (member : Member) :
    (defineMember template member).Ensures r (fun _ => Consistent)
      fun _ r' => r' = r ∧ ∀ m, ¬ Accepts r m template member := by
  simp only [defineMember, ensures_bind, ensures_query]
  refine ⟨fun m hm => ?_, fun e he => ⟨trivial, fun m ha => by simp [ha.canonical] at he⟩⟩
  obtain ⟨-, d, hd, -⟩ := Repository.canonicalModel_eq_ok_iff.mp hm
  split
  · simp only [ensures_bind, ensures_query, ensures_edit, ensures_note]
    refine ⟨fun _ _ => ?_, fun e he => ⟨trivial, fun m ha => by simp [ha.qualifiers] at he⟩⟩
    refine (checkContainment_ensures m member r).imp ?_ ?_
    · rintro _ r' ⟨rfl, hcheck⟩
      refine (((createRoleInstance_placed h.orderly hcheck).and
        (createRoleInstance_whole h.orderly h.tidy _ _ _)).and (ensures_answer _ _)).imp ?_ ?_
      · rintro v r₁ ⟨⟨⟨-, hplaced⟩, hcopied, hloose⟩, -⟩
        -- The value is there; from here on nothing fails.
        obtain ⟨hcoherent, hacyclic⟩ := h.addEdges m
        have h₂ := (hcoherent.evolved.copied hcopied).mapEntries m (Entry.define member)
        obtain ⟨d₂, hd₂, -⟩ := h₂.steady.datatype hd
        have hfresh := (h.tidy.fresh h.wellFormed hcopied.grew.2 hloose).mapEntries m
          (Entry.define member)
        refine (updateInstances_ensures hacyclic h₂.coherent hd₂ member.role (fun w hw => ?_)
          fun y hy => ?_).imp (fun _ _ h' => h'.coherent.consistent hacyclic) fun _ _ h' => h'.elim
        · exact Option.some.inj hw ▸ hfresh
        · exact (hplaced y (Option.some.inj hy)).steady
            (Repository.steady_mapDatatype fun _ => ⟨rfl, rfl⟩)
      · rintro e r₁ ⟨⟨-, rfl⟩, he⟩
        refine ⟨rfl, fun n ha => ?_⟩
        obtain ⟨v, hv⟩ := ha.value
        simp [hv] at he
    · rintro e r' ⟨rfl, hno⟩
      refine ⟨rfl, fun n ha => hno ?_⟩
      obtain rfl : m = n := Except.ok.inj (hm.symm.trans ha.canonical)
      exact ha.admits
  · next hrole => exact ⟨rfl, fun _ ha => hrole ha.role⟩

theorem allOrNothing_defineMember (h : r.Consistent) (template : ObjectId) (member : Member) :
    AllOrNothing (defineMember template member) r :=
  (defineMember_ensures h template member).imp (fun _ _ h' => h') fun _ _ h' => h'.1

theorem allOrNothing_removeMember (h : r.Consistent) (template : ObjectId) (role : String) :
    AllOrNothing (removeMember template role) r := by
  simp only [AllOrNothing, removeMember, ensures_bind, ensures_query, ensures_ask]
  refine ⟨fun m hm => ?_, fun _ _ => trivial⟩
  obtain ⟨-, d, hd, -⟩ := Repository.canonicalModel_eq_ok_iff.mp hm
  split
  · simp only [ensures_bind, ensures_edit, ensures_note, ensures_pure]
    -- The entry is gone; to remove a field everywhere cannot fail.
    have h₁ : (r.mapEntries m (Entry.remove role)).Consistent :=
      (h.coherent.mapEntries m _).consistent h.acyclic
    obtain ⟨d₁, hd₁, -⟩ := h.coherent.evolved.mapEntries m (Entry.remove role)
      |>.steady.datatype hd
    exact (updateInstances_consistent h₁ hd₁ role (by simp)).imp (fun _ _ h' => h'.1)
      fun _ _ h' => h'.elim
  · exact h

/-! ## Bases -/

/-- Fields are removed, and none of the removals fails. -/
theorem dropInherited_ensures (hE : ∀ m, ¬ TransGen E m m) (h : r.Coherent E) {m : ModelId}
    {d : Datatype κ} (hd : r.model? m = some (.datatype d)) (roles : List String) :
    (dropInherited m roles).Ensures r (fun _ => r.Evolved E) fun _ _ => False := by
  refine ensures_forEach roles (fun role _ r₁ h₁ => ?_) h.evolved
  rw [ensures_bind, ensures_ask]
  split
  · exact h₁
  · obtain ⟨d₁, hd₁, -⟩ := h₁.steady.datatype hd
    exact (updateInstances_ensures hE h₁.coherent hd₁ role (by simp) (by simp)).imp
      (fun _ _ h' => h₁.trans h') fun _ _ h' => h'

/-- The fields of the old base are removed, unless it is not known which these are. -/
theorem leaveBase_ensures (hE : ∀ m, ¬ TransGen E m m) (h : r.Coherent E) {m : ModelId}
    {d : Datatype κ} (hd : r.model? m = some (.datatype d)) :
    (leaveBase m).Ensures r (fun _ => r.Evolved E)
      fun e r' => r' = r ∧ ∃ b, Entry.base? (r.entriesOf m) = some b ∧
        r.inheritedRoles b = .error e := by
  rw [leaveBase, ensures_bind, ensures_ask]
  cases Entry.base? (r.entriesOf m) with
  | none => exact h.evolved
  | some b =>
    simp only [ensures_bind, ensures_query]
    refine ⟨fun roles _ => ?_, fun e he => ⟨trivial, b, rfl, he⟩⟩
    exact (dropInherited_ensures hE h hd roles).imp (fun _ _ h' => h') fun _ _ h' => h'.elim

/-- Fields that may all stand in the template are installed, and none of the copies fails. What is
installed follows what it was copied from. -/
theorem installInherited_ensures (hE : ∀ m, ¬ TransGen E m m) (h : r.Coherent E) {m : ModelId}
    {d : Datatype κ} (hd : r.model? m = some (.datatype d)) {fields : Table String Value}
    (hnodup : fields.keys.Nodup)
    (hfields : ∀ v ∈ fields.values, r.Copyable v ∧ ∀ x, v = .composite x → r.Placed (E m) x) :
    (installInherited m fields).Ensures r
      (fun _ r' => r.Evolved E r' ∧ ∀ k v, fields.get? k = some v →
        ∃ w, r'.templateField? m k = some w ∧ r'.Follows "" v w) fun _ _ => False := by
  refine (installInherited_ensures_fields (P := r.Evolved E) (R := fun r => r.Follows "") hnodup
    (fun field hfield r₁ h₁ => ?_) h.evolved).imp ?_ fun _ _ h => h
  · -- What was found before the first field was installed still holds.
    obtain ⟨hcopyable, hplaced⟩ := hfields field.2 (List.mem_map.mpr ⟨field, hfield, rfl⟩)
    have hr₁ := h₁.coherent.bounded.wellFormed
    have hcopyable₁ := hcopyable.later h₁.preserves h₁.steady
    obtain ⟨d₁, hd₁, -⟩ := h₁.steady.datatype hd
    rw [ensures_bind]
    refine ((cloneValue_copies (h₁.coherent.bounded.orderly hE) h₁.coherent.tidy hcopyable₁ ""
      true).and (cloneValue_placed hr₁ (fun x hx => (hplaced x hx).steady h₁.steady) "" true)).imp
        ?_ fun _ _ h' => h'.1
    rintro v r₂ ⟨⟨hcopied, hloose, hfollows⟩, -, hplaced₂⟩
    have h₂ := h₁.copied hcopied
    obtain ⟨d₂, hd₂, -⟩ := h₂.steady.datatype hd
    have hsame : ∀ k, r₂.templateField? m k = r₁.templateField? m k :=
      (hcopied.grew.2.sameBut (F := fun _ => False) (D := fun _ => False)).templateField? hr₁ hd₁
        (by simp)
    refine ((updateInstances_ensures hE h₂.coherent hd₂ field.1 (fun w hw => ?_) fun y hy => ?_).and
      (updateInstances_updated hcopied.grew.1 hd₂ field.1 (some v))).imp ?_ fun _ _ h' => h'.1
    · exact Option.some.inj hw ▸ h₁.coherent.tidy.fresh hr₁ hcopied.grew.2 hloose
    · exact hplaced₂ y (Option.some.inj hy)
    · rintro _ r₃ ⟨h₃, hupdated⟩
      refine ⟨h₂.trans h₃, fun a b hab => ?_, ⟨v, ?_, hfollows.preserves h₃.preserves⟩,
        fun k hk => ?_⟩
      · exact (hab.preserves hcopied.grew.2.preserves).preserves h₃.preserves
      · rw [hupdated.field, if_pos rfl]
      · rw [hupdated.field, if_neg (Ne.symm hk), hsame]
  · rintro _ r' ⟨h', -, hinstalled, -⟩
    exact ⟨h', fun k v hv => hinstalled (k, v) (Table.mem_of_get? hv)⟩

/-- The datatype has every field of the base, each following the one of the base. -/
def Inherited (r r' : Repository ts) (m : ModelId) (base : ObjectId) : Prop :=
  ∀ n, r.modelOf? base = some n → n ≠ m ∧ (∃ d, r.model? n = some (.datatype d)) ∧
    ∀ k v, r.templateField? n k = some v → ∃ w, r'.templateField? m k = some w ∧
      r'.Follows "" v w

/-- All that is asked of a base, by the time that the datatype is changed. -/
structure AcceptsBase (r : Repository ts) (m : ModelId) (template : ObjectId)
    (base : Option ObjectId) : Prop where
  canonical : r.canonicalModel template = .ok m
  admits : ∀ b, base = some b → AdmitsBase r m b
  leaves : ∀ b, Entry.base? (r.entriesOf m) = some b → ∃ roles, r.inheritedRoles b = .ok roles

/-- A base that is no alias is joined if all that is asked of it holds, and then all that it has is
copied; else nothing is done. -/
theorem setBase_ensures (h : r.Consistent) {template : ObjectId} {base : Option ObjectId}
    (hbase : ∀ b m, base = some b → r.modelOf? b = some m → r.isAlias m = false) :
    (setBase template base).Ensures r
      (fun _ r' => r'.Consistent ∧ ∃ m, r.canonicalModel template = .ok m ∧
        ∀ b, base = some b → Inherited r r' m b)
      fun _ r' => r' = r ∧ ∀ m, ¬ AcceptsBase r m template base := by
  simp only [setBase, ensures_bind, ensures_query]
  refine ⟨fun m hm => ?_, fun e he => ⟨trivial, fun m ha => by simp [ha.canonical] at he⟩⟩
  obtain ⟨-, d, hd, -⟩ := Repository.canonicalModel_eq_ok_iff.mp hm
  have hunique : ∀ {n}, r.canonicalModel template = .ok n → m = n := fun hn =>
    Except.ok.inj (hm.symm.trans hn)
  refine (checkBase_ensures m base r).imp ?_ fun _ _ h' => ⟨h'.1, fun n ha => ?_⟩
  swap
  · obtain ⟨-, b, hb, hno⟩ := h'
    exact hno (hunique ha.canonical ▸ ha.admits b hb)
  rintro bm r' ⟨rfl, hnone, hbm⟩
  obtain ⟨hcoherent, hacyclic⟩ := h.addEdges m
  refine ((leaveBase_ensures hacyclic hcoherent hd).and (leaveBase_fields h.wellFormed hd)).imp ?_
    fun e _ h' => ⟨h'.1.1, fun n ha => ?_⟩
  swap
  · obtain ⟨⟨-, b, hb, he⟩, -⟩ := h'
    obtain rfl := hunique ha.canonical
    obtain ⟨roles, hroles⟩ := ha.leaves b hb
    simp [hroles] at he
  rintro _ r₁ ⟨h₁, hleft, -⟩
  -- The fields of the old base are gone; from here on nothing fails.
  rw [ensures_edit]
  have h₂ := h₁.mapEntries m (Entry.rebase base)
  have hsame := (hleft.weaken.mapEntries (D := (· = m)) rfl (Entry.rebase base)).sameBut
  obtain ⟨d₂, hd₂, -⟩ := h₂.steady.datatype hd
  refine joinBase_ensures (fun hk => ⟨h₂.coherent.consistent hacyclic, m, hm, ?_⟩) fun k hk => ?_
  · simp [hnone hk]
  obtain ⟨b, rfl, hb, hbk⟩ := hbm k hk
  obtain ⟨⟨e₀, he₀⟩, hno⟩ := not_reaches_of_checkBase h.wellFormed hb hbk (hbase b k rfl hbk)
  have hne : k ≠ m := by
    rintro rfl
    exact hno .refl
  obtain ⟨e, f, he, ho, hplaced⟩ := offers_of_checkBase h.orderly hb hbk (hbase b k rfl hbk)
    h₂.steady h₂.coherent.bounded
  refine ⟨e, f, he, ho, ?_⟩
  have hnodup : f.keys.Nodup := h₂.coherent.bounded.wellFormed.roles_nodup ho
  refine (installInherited_ensures hacyclic h₂.coherent hd₂ hnodup fun v hv => ?_).imp ?_
    fun _ _ h' => h'.elim
  · exact ⟨h₂.coherent.tidy.copyable ho hv, hplaced v hv⟩
  · rintro _ r₃ ⟨h₃, hfollows⟩
    refine ⟨h₃.coherent.consistent hacyclic, m, hm, fun b' hb' n hn => ?_⟩
    obtain rfl := Option.some.inj hb'
    obtain rfl := Option.some.inj (hbk.symm.trans hn)
    refine ⟨hne, ⟨e₀, he₀⟩, fun role v hv => hfollows role v ?_⟩
    rw [← Repository.templateField?_eq he ho, hsame.templateField? h.wellFormed he₀ hne, hv]

/-- A change of the base is all or nothing, unless the base is an alias. -/
theorem allOrNothing_setBase (h : r.Consistent) (template : ObjectId) {base : Option ObjectId}
    (hbase : ∀ b m, base = some b → r.modelOf? b = some m → r.isAlias m = false) :
    AllOrNothing (setBase template base) r :=
  (setBase_ensures h hbase).imp (fun _ _ h' => h'.1) fun _ _ h' => h'.1

end Step

end Metamodel
