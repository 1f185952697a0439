import Metamodel.Proofs.Containment
import Metamodel.Proofs.Invariant
import Metamodel.Proofs.Steady

/-!
# Metamodel.Proofs.Acyclic -- no datatype comes to contain itself

`r.Bounded E` says that what templates contain is among the edges `E`, a relation that is fixed
while an operation runs. Most operations add no edge. A definition of a member and a change of a
base add edges from the one datatype that is edited, to datatypes that do not lead back to it,
since that has been checked before. Main statement: in every run that changes no base to an alias
and writes no field directly, no datatype ever contains itself.
-/

namespace Metamodel

open Relation (ReflTransGen TransGen)

/-! ## Edges that close no circle -/

/-- A relation with edges from `m` to all that does not lead back to it. -/
def AddEdges {α : Type} (C : α → α → Prop) (m a b : α) : Prop :=
  C a b ∨ a = m ∧ ¬ ReflTransGen C b m

/-- A path that uses a new edge ends where nothing leads back to `m`. -/
theorem transGen_addEdges {α : Type} {C : α → α → Prop} {m a b : α}
    (h : TransGen (AddEdges C m) a b) :
    TransGen C a b ∨ ReflTransGen C a m ∧ ¬ ReflTransGen C b m := by
  induction h with
  | single hab =>
    rcases hab with hab | ⟨rfl, hb⟩
    · exact Or.inl (.single hab)
    · exact Or.inr ⟨.refl, hb⟩
  | tail _ hbc ih =>
    rcases hbc with hbc | ⟨rfl, hc⟩
    · rcases ih with hab | ⟨ham, hb⟩
      · exact Or.inl (hab.tail hbc)
      · exact Or.inr ⟨ham, fun hc => hb (.head hbc hc)⟩
    · rcases ih with hab | ⟨-, hb⟩
      · exact Or.inr ⟨hab.to_reflTransGen, hc⟩
      -- A second new edge would start where nothing leads back to.
      · exact (hb .refl).elim

theorem acyclic_addEdges {α : Type} {C : α → α → Prop} (h : ∀ a, ¬ TransGen C a a) (m a : α) :
    ¬ TransGen (AddEdges C m) a a := by
  intro hpath
  rcases transGen_addEdges hpath with hcycle | ⟨ham, hback⟩
  · exact h a hcycle
  · exact hback ham

variable {κ : Type} {ts : TypeSystem κ} {r₀ r r' : Repository ts}

namespace Repository

/-! ## Bounds on what templates contain -/

/-- An object that a template may contain: it is no template, and bound, if at all, to one of the
given models. -/
structure Placed (r : Repository ts) (E : ModelId → Prop) (id : ObjectId) : Prop where
  index_lt : id.index < r.objects.size
  noTemplate : r.NoTemplate id
  model : ∀ n, r.modelOf? id = some n → E n

theorem Placed.steady {E : ModelId → Prop} {id : ObjectId} (h : r.Placed E id)
    (hr' : r.Steady r') : r'.Placed E id where
  index_lt := Nat.lt_of_lt_of_le h.index_lt hr'.objects_le
  noTemplate := hr'.noTemplate h.index_lt h.noTemplate
  model n hn := h.model n (hr'.modelOf? h.index_lt hn)

/-- The repository is well formed, and what templates contain is among the edges. -/
structure Bounded (E : ModelId → ModelId → Prop) (r : Repository ts) : Prop where
  wellFormed : r.WellFormed
  placed : ∀ {m d f role id}, r.model? m = some (.datatype d) →
    r.object? d.template = some (.composite m f) → f.get? role = some (.composite id) →
    r.Placed (E m) id

variable {E : ModelId → ModelId → Prop}

theorem Bounded.contains (h : r.Bounded E) {m n : ModelId} (hmn : r.Contains m n) : E m n := by
  obtain ⟨d, f, role, id, hd, hf, hid, hn⟩ := hmn
  obtain ⟨m', ho⟩ := fields?_eq_some_iff.mp hf
  obtain ⟨f', ho'⟩ := h.wellFormed.template hd
  obtain ⟨rfl, rfl⟩ := composite_unique ho' ho
  exact (h.placed hd ho hid).model n hn

/-- What templates contain is among what they contain. -/
theorem Bounded.self (h : r.Bounded E) : r.Bounded r.Contains := by
  refine ⟨h.wellFormed, fun {m d f role id} hd ho hid => ?_⟩
  have hplaced := h.placed hd ho hid
  refine ⟨hplaced.index_lt, hplaced.noTemplate, fun n hn => ?_⟩
  exact ⟨d, f, role, id, hd, fields?_eq_some_iff.mpr ⟨m, ho⟩, hid, hn⟩

theorem Bounded.mono (h : r.Bounded E) {E' : ModelId → ModelId → Prop}
    (hE : ∀ m n, E m n → E' m n) : r.Bounded E' := by
  refine ⟨h.wellFormed, fun hd ho hid => ?_⟩
  have hplaced := h.placed hd ho hid
  exact ⟨hplaced.index_lt, hplaced.noTemplate, fun n hn => hE _ n (hplaced.model n hn)⟩

/-- A bound is kept if every field of a template was there before or holds what it may. -/
theorem Bounded.step (h : r.Bounded E) (hr' : r'.WellFormed) (hsteady : r.Steady r')
    (hfields : ∀ {m d' f' role id}, r'.model? m = some (.datatype d') →
      r'.object? d'.template = some (.composite m f') → f'.get? role = some (.composite id) →
      (∃ d f, r.model? m = some (.datatype d) ∧ r.object? d.template = some (.composite m f) ∧
        f.get? role = some (.composite id)) ∨ r'.Placed (E m) id) : r'.Bounded E := by
  refine ⟨hr', fun hd' ho' hid => ?_⟩
  rcases hfields hd' ho' hid with ⟨d, f, hd, ho, hid⟩ | hplaced
  · exact (h.placed hd ho hid).steady hsteady
  · exact hplaced

/-- A bound is kept if no template is new and none has got another field. -/
theorem Bounded.same (h : r.Bounded E) (hr' : r'.WellFormed) (hsteady : r.Steady r')
    (hobject : ∀ {m d f}, r.model? m = some (.datatype d) →
      r'.object? d.template = some (.composite m f) → r.object? d.template = some (.composite m f))
    (hdatatype : ∀ {m d'}, r'.model? m = some (.datatype d') →
      ∃ d, r.model? m = some (.datatype d) ∧ d.template = d'.template) : r'.Bounded E := by
  refine h.step hr' hsteady fun hd' ho' hid => Or.inl ?_
  obtain ⟨d, hd, ht⟩ := hdatatype hd'
  exact ⟨d, _, hd, hobject hd (ht ▸ ho'), hid⟩

theorem Bounded.mapDatatype (h : r.Bounded E) {k : ModelId} {f : Datatype κ → Datatype κ}
    (hr' : (r.mapDatatype k f).WellFormed)
    (hf : ∀ d, (f d).kind = d.kind ∧ (f d).template = d.template) :
    (r.mapDatatype k f).Bounded E := by
  refine h.same hr' (steady_mapDatatype hf) (fun _ ho => ho) fun hd' => ?_
  obtain ⟨d, hd, rfl⟩ := model?_mapDatatype_datatype.mp hd'
  refine ⟨d, hd, ?_⟩
  split
  · exact (hf d).2.symm
  · rfl

theorem Bounded.grew (h : r.Bounded E) (hr' : Step.Grew r r') : r'.Bounded E := by
  refine h.same hr'.1 hr'.2.steady (fun hd ho => ?_) fun hd' => ?_
  · rwa [hr'.2.object? (h.wellFormed.template_lt hd)] at ho
  · obtain ⟨d, g, hd, rfl⟩ := hr'.2.datatype_of hd'
    exact ⟨d, hd, rfl⟩

theorem Bounded.addTemplate (h : r.Bounded E) (name : String) (kind : κ) :
    (r.addTemplate name kind).Bounded E := by
  refine h.step (h.wellFormed.addTemplate name kind) (steady_addTemplate name kind) ?_
  intro m d' f' role id hd' ho' hid
  rw [object?_addTemplate] at ho'
  split at ho'
  · -- The new template has no fields.
    obtain ⟨-, rfl⟩ := Object.composite.inj (Option.some.inj ho')
    simp at hid
  · next hne =>
    rw [model?_addTemplate] at hd'
    split at hd'
    · obtain rfl := Model.datatype.inj (Option.some.inj hd')
      exact (hne rfl).elim
    · exact Or.inl ⟨d', f', hd', ho', hid⟩

theorem Bounded.writeElement (h : r.Bounded E) (id : ObjectId) (index : Nat) (value : Value) :
    (r.writeElement id index value).Bounded E :=
  h.same (h.wellFormed.writeElement id index value) (steady_writeElement id index value)
    (fun _ ho => composite_writeElement.mp ho) fun hd' => ⟨_, by simpa using hd', rfl⟩

theorem Bounded.free (h : r.Bounded E) {id : ObjectId} (hid : r.NoTemplate id) :
    (r.free id).Bounded E := by
  refine h.same (h.wellFormed.free hid) (steady_free id) (fun {m d f} hd ho => ?_) fun hd' => ?_
  · rwa [object?_free, if_neg (hid m d hd)] at ho
  · obtain ⟨d, _, hd, rfl⟩ := datatype_of_free hd'
    exact ⟨d, hd, rfl⟩

theorem Bounded.mapEntries (h : r.Bounded E) (m : ModelId) (f : List Entry → List Entry) :
    (r.mapEntries m f).Bounded E :=
  h.mapDatatype (h.wellFormed.mapEntries m f) fun _ => ⟨rfl, rfl⟩

theorem bounded_closed : Closed (Bounded E : Repository ts → Prop) where
  wellFormed := Bounded.wellFormed
  grew h := h.grew
  addTemplate name kind h := h.addTemplate name kind
  mapEntries m f _ h := h.mapEntries m f
  putQualifiers m qs h := h.mapDatatype (h.wellFormed.putQualifiers m qs) fun _ => ⟨rfl, rfl⟩
  putScope m _ h hs := h.mapDatatype (h.wellFormed.putScope m hs) fun _ => ⟨rfl, rfl⟩
  writeElement id index value h := h.writeElement id index value
  free h := h.free

/-- A field of a template may be given what the template may contain; other fields do not matter. -/
theorem Bounded.writeField (h : r.Bounded E) {id : ObjectId} {role : String} {value : Option Value}
    (hvalue : ∀ m d y, r.model? m = some (.datatype d) → d.template = id →
      value = some (.composite y) → r.Placed (E m) y) : (r.writeField id role value).Bounded E := by
  have hsteady : r.Steady (r.writeField id role value) := steady_writeField id role value
  refine h.step (h.wellFormed.writeField id role value) hsteady ?_
  intro m d f' role' x hd ho' hx
  rw [model?_writeField] at hd
  obtain ⟨f, ho, rfl⟩ := composite_writeField.mp ho'
  split at hx
  · next hid =>
    cases value with
    | none =>
      simp only [Option.elim_none, Table.get?_erase] at hx
      split at hx
      · simp at hx
      · exact Or.inl ⟨d, f, hd, ho, hx⟩
    | some v =>
      simp only [Option.elim_some, Table.get?_insert] at hx
      split at hx
      · exact Or.inr ((hvalue m d x hd hid hx).steady hsteady)
      · exact Or.inl ⟨d, f, hd, ho, hx⟩
  · exact Or.inl ⟨d, f, hd, ho, hx⟩

end Repository

namespace Step

open Repository (bounded_closed)

variable {E : ModelId → ModelId → Prop}

/-! ## Fields of all instances -/

/-- `r` is bounded, and since `r₀` no object has become something else. -/
structure Within (E : ModelId → ModelId → Prop) (r₀ r : Repository ts) : Prop where
  bounded : r.Bounded E
  steady : r₀.Steady r

theorem within_refl (h : r.Bounded E) : Within E r r := ⟨h, .refl r⟩

theorem Within.grew (h : Within E r₀ r) (hr' : Grew r r') : Within E r₀ r' :=
  ⟨h.bounded.grew hr', h.steady.trans hr'.2.steady⟩

/-- Writing the field of an instance adds no edge. -/
theorem within_setField {id : ObjectId} (hid : id.index < r₀.objects.size)
    (hno : r₀.NoTemplate id) (role : String) (value : Option Value) :
    Keeps (Within E r₀) (setField id role value) := by
  refine ⟨fun r h => ensures_setField h fun _ _ _ => ⟨h.bounded.writeField fun m d y hd ht _ => ?_,
    h.steady.trans (Repository.steady_writeField id role value)⟩⟩
  exact (h.steady.noTemplate hid hno m d hd ht).elim

theorem within_growing (r₀ : Repository ts) : Repository.Growing (Within E r₀) where
  wellFormed h := h.bounded.wellFormed
  grew h hgrew := h.grew hgrew

/-- The instances of a datatype besides its template are templates of nothing. -/
theorem noTemplate_of_otherInstances (h : r.WellFormed) {m : ModelId} {d : Datatype κ}
    (hd : r.model? m = some (.datatype d)) {target : ObjectId × String}
    (ht : target ∈ otherInstances (.datatype d) d.template) :
    ∃ f, r.object? target.1 = some (.composite m f) ∧ r.NoTemplate target.1 := by
  obtain ⟨hmem, hne⟩ := List.mem_filter.mp ht
  cases hg : d.registry with
  | none => simp [Model.registry?, Model.datatype?, hg] at hmem
  | some g =>
    have hkey : target.1 ∈ g.keys := by
      simp only [Model.registry?, Model.datatype?, Option.bind_some, hg, Option.elim_some] at hmem
      exact List.mem_map.mpr ⟨target, hmem, rfl⟩
    obtain ⟨f, ho⟩ := (h.registry_keys hd hg target.1).mp hkey
    refine ⟨f, ho, fun n e he heq => ?_⟩
    have := h.eq_template_of_composite ho hd he heq
    simp [this] at hne

/-- An update adds edges from the datatype that is updated to what its template may contain. -/
theorem updateInstances_within {m : ModelId} (role : String) {value : Option Value}
    (h : Within E r₀ r)
    (hvalue : ∀ y, value = some (.composite y) →
      (∃ d, r.model? m = some (.datatype d)) ∧ r.Placed (E m) y) :
    (updateInstances m role value).Ensures r (fun _ => Within E r₀) fun _ => Within E r₀ := by
  simp only [updateInstances, ensures_bind, ensures_query]
  refine ⟨fun model hmodel => ?_, fun _ _ => h⟩
  have hm := Repository.model_eq_ok_iff.mp hmodel
  split
  · exact h
  · next template ht =>
    -- The template is the only object whose fields count.
    have htemplate : (setField template role value).Ensures r
        (fun _ => Within E r) fun _ => Within E r := by
      refine ensures_setField (within_refl h.bounded) fun _ _ _ => ⟨h.bounded.writeField ?_,
        Repository.steady_writeField ..⟩
      intro n e y he hid hy
      obtain ⟨⟨d, hd⟩, hplaced⟩ := hvalue y hy
      obtain rfl := Option.some.inj (hm.symm.trans hd)
      obtain rfl : d.template = template := by simpa [Model.template?] using ht
      exact h.bounded.wellFormed.template_injective he hd hid ▸ hplaced
    rw [ensures_bind]
    refine htemplate.imp (fun _ r₁ h₁ => ?_) fun _ r₁ h₁ => ⟨h₁.bounded, h.steady.trans h₁.steady⟩
    have htargets : ∀ target ∈ otherInstances model template,
        target.1.index < r.objects.size ∧ r.NoTemplate target.1 := by
      intro target htarget
      cases model with
      | shape s => simp [otherInstances, Model.registry?, Model.datatype?] at htarget
      | datatype d =>
        obtain rfl : d.template = template := by simpa [Model.template?] using ht
        obtain ⟨f, ho, hno⟩ := noTemplate_of_otherInstances h.bounded.wellFormed hm htarget
        exact ⟨Repository.index_lt_of_object? ho, hno⟩
    have hpropagate := keeps_propagate_of_setField (within_growing r) value fun target htarget =>
      within_setField (E := E) (htargets target htarget).1 (htargets target htarget).2 role
    refine ((hpropagate.bind fun _ => keeps_note _).ensures r₁ h₁).imp ?_ ?_
    · exact fun _ r₂ h₂ => ⟨h₂.bounded, h.steady.trans h₂.steady⟩
    · exact fun _ r₂ h₂ => ⟨h₂.bounded, h.steady.trans h₂.steady⟩

theorem within_remove (m : ModelId) (role : String) :
    Keeps (Within E r₀) (updateInstances m role none) :=
  ⟨fun _ h => updateInstances_within role h (by simp)⟩

/-! ## Members -/

/-- The datatype may declare the member: it has dimensions, or its datatype does not lead back. -/
def Admits (r : Repository ts) (m : ModelId) (member : Member) : Prop :=
  member.qualifiers.any r.isCollectionQualifier = true ∨
    r.reachesModel member.datatype m = .ok false

theorem checkContainment_ensures (m : ModelId) (member : Member) (r : Repository ts) :
    (checkContainment m member).Ensures r (fun _ r' => r' = r ∧ Admits r m member)
      fun _ r' => r' = r ∧ ¬ Admits r m member := by
  simp only [checkContainment, ensures_bind, ensures_ask]
  split
  · next hwrapped => exact ⟨rfl, Or.inl hwrapped⟩
  · next hplain =>
    simp only [ensures_bind, ensures_query]
    refine ⟨fun reaches hreaches => ?_, fun e he => ⟨trivial, fun h => ?_⟩⟩
    · cases reaches with
      | true => exact ⟨rfl, fun h => h.elim hplain fun hno => by simp [hno] at hreaches⟩
      | false => exact ⟨rfl, Or.inr hreaches⟩
    · exact h.elim hplain fun hno => by simp [hno] at he

/-- A member without dimensions is made as an instance of its datatype. -/
theorem createRoleInstance_bound (h : r.WellFormed) (datatype : ObjectId) (role : String)
    (qualifiers : List Qualifier) :
    (createRoleInstance datatype role qualifiers).Ensures r
      (fun v r' => ∀ y, v = .composite y → qualifiers.any r.isCollectionQualifier = false ∧
        ∃ t n, r.seed datatype = .ok (.plain t) ∧ r.IsPlain t n ∧ r'.modelOf? y = some n)
      fun _ _ => True := by
  simp only [createRoleInstance, ensures_bind, ensures_query, ensures_ask]
  refine ⟨fun id hid => ?_, fun _ _ => trivial⟩
  obtain rfl := (Repository.assertTemplateKind_eq_ok_iff.mp hid).1
  split
  · rw [ensures_map]
    exact (ensures_true _ _).imp (fun _ _ _ _ hy => by simp at hy) fun _ _ h => h
  · next hnone =>
    refine (newInstance_bound h id role true).imp (fun v r' hv y hy => ⟨?_, hv y hy⟩)
      fun _ _ h => h
    rw [List.any_eq_false]
    exact List.find?_eq_none.mp hnone

end Step

/-! ## The invariant -/

namespace Repository

/-- Templates contain objects that are no templates, and no datatype contains itself. -/
structure Orderly (r : Repository ts) : Prop where
  bounded : r.Bounded r.Contains
  acyclic : r.Acyclic

theorem Bounded.orderly {E : ModelId → ModelId → Prop} (h : r.Bounded E)
    (hE : ∀ m, ¬ TransGen E m m) : r.Orderly :=
  ⟨h.self, fun m hm => hE m (TransGen.mono (fun _ _ => h.contains) m m hm)⟩

/-- What keeps every bound keeps datatypes from containing themselves. -/
theorem orderly_closed : Closed (Orderly : Repository ts → Prop) where
  wellFormed h := h.bounded.wellFormed
  grew h hr' := (h.bounded.grew hr').orderly h.acyclic
  addTemplate name kind h := (h.bounded.addTemplate name kind).orderly h.acyclic
  mapEntries m f _ h := (h.bounded.mapEntries m f).orderly h.acyclic
  putQualifiers m qs h := (bounded_closed.putQualifiers m qs h.bounded).orderly h.acyclic
  putScope m _ h hs := (bounded_closed.putScope m h.bounded hs).orderly h.acyclic
  writeElement id index value h := (h.bounded.writeElement id index value).orderly h.acyclic
  free h hid := (h.bounded.free hid).orderly h.acyclic

/-- New edges from `m` close no circle if what they lead to does not lead back. -/
theorem Orderly.addEdges (h : r.Orderly) (m : ModelId) :
    r.Bounded (AddEdges r.Contains m) ∧ ∀ n, ¬ TransGen (AddEdges r.Contains m) n n :=
  ⟨h.bounded.mono fun _ _ => Or.inl, acyclic_addEdges h.acyclic m⟩

end Repository

namespace Step

open Repository (Orderly)

/-- The value of an accepted member may stand in the template. -/
theorem createRoleInstance_placed (h : r.Orderly) {m : ModelId} {member : Member}
    (hcheck : Admits r m member) :
    (createRoleInstance member.datatype member.role member.qualifiers).Ensures r
      (fun v r' => Grew r r' ∧ ∀ y, v = .composite y → r'.Placed (AddEdges r.Contains m m) y)
      fun _ => Grew r := by
  have hr := h.bounded.wellFormed
  refine ((createRoleInstance_makes hr _ _ _).and (createRoleInstance_bound hr _ _ _)).imp ?_
    fun _ _ h => h.1
  rintro v r' ⟨⟨hgrew, hloose⟩, hbound⟩
  refine ⟨hgrew, ?_⟩
  rintro y rfl
  obtain ⟨hplain, t, n, hseed, htn, hn⟩ := hbound y rfl
  refine ⟨hloose.denotes.index_lt rfl, hloose.noTemplate hr hgrew.2 rfl, fun k hk => ?_⟩
  -- The edge is new; what it leads to has been searched.
  refine Or.inr ⟨rfl, ?_⟩
  obtain rfl := Option.some.inj (hn.symm.trans hk)
  have hreaches : r.reachesModel member.datatype m = .ok false := by
    rcases hcheck with hany | hreaches
    · simp [hany] at hplain
    · exact hreaches
  exact Repository.not_reaches_of_reachesModel hr (Repository.seed_plain hseed).2 htn.modelOf?
    hreaches

theorem orderly_defineMember (template : ObjectId) (member : Member) :
    Keeps (Orderly : Repository ts → Prop) (defineMember template member) := by
  refine ⟨fun r h => ?_⟩
  simp only [defineMember, ensures_bind, ensures_query]
  refine ⟨fun m hm => ?_, fun _ _ => h⟩
  obtain ⟨-, d, hd, -⟩ := Repository.canonicalModel_eq_ok_iff.mp hm
  split
  · simp only [ensures_bind, ensures_query, ensures_edit, ensures_note]
    refine ⟨fun _ _ => ?_, fun _ _ => h⟩
    refine (checkContainment_ensures m member r).imp ?_ fun _ r' hr' => hr'.1 ▸ h
    rintro _ r' ⟨rfl, hcheck⟩
    refine (createRoleInstance_placed h hcheck).imp ?_
      fun _ _ hgrew => Repository.orderly_closed.grew h hgrew
    rintro v r₁ ⟨hgrew, hplaced⟩
    obtain ⟨hbounded, hacyclic⟩ := h.addEdges m
    obtain ⟨g, hg⟩ := hgrew.2.datatype hd
    have h₂ := (hbounded.grew hgrew).mapEntries m (Entry.define member)
    refine (updateInstances_within member.role (within_refl h₂) fun y hy => ?_).imp
      (fun _ _ h' => h'.bounded.orderly hacyclic) fun _ _ h' => h'.bounded.orderly hacyclic
    refine ⟨⟨_, Repository.model?_mapDatatype_datatype.mpr ⟨_, hg, rfl⟩⟩, ?_⟩
    exact (hplaced y (Option.some.inj hy)).steady
      (Repository.steady_mapDatatype fun _ => ⟨rfl, rfl⟩)
  · exact h

theorem orderly_remove (m : ModelId) (role : String) :
    Keeps (Orderly : Repository ts → Prop) (updateInstances m role none) := by
  refine ⟨fun r h => ?_⟩
  exact ((within_remove m role).ensures r (within_refl h.bounded)).imp
    (fun _ _ h' => h'.bounded.orderly h.acyclic) fun _ _ h' => h'.bounded.orderly h.acyclic

/-! ## Bases -/

/-- The object may become the base of the datatype: it may have instances, and does not lead
back. -/
structure AdmitsBase (r : Repository ts) (m : ModelId) (b : ObjectId) : Prop where
  kind : r.assertTemplateKind b = .ok b
  apart : r.reachesModel b m = .ok false

theorem checkBase_ensures (m : ModelId) (base : Option ObjectId) (r : Repository ts) :
    (checkBase m base).Ensures r
      (fun bm r' => r' = r ∧ (bm = none → base = none) ∧ ∀ n, bm = some n → ∃ b, base = some b ∧
        AdmitsBase r m b ∧ r.modelOf? b = some n)
      fun _ r' => r' = r ∧ ∃ b, base = some b ∧ ¬ AdmitsBase r m b := by
  cases base with
  | none => exact ⟨rfl, fun _ => rfl, by simp⟩
  | some b =>
    simp only [checkBase, ensures_bind, ensures_query]
    refine ⟨fun b' hb' => ⟨fun n hn => ⟨fun reaches hreaches => ?_, fun e he => ?_⟩,
      fun e he => ?_⟩, fun e he => ?_⟩
    · cases reaches with
      | true => exact ⟨rfl, b, rfl, fun h => by simp [h.apart] at hreaches⟩
      | false =>
        obtain rfl := (Repository.assertTemplateKind_eq_ok_iff.mp hb').1
        refine ⟨rfl, by simp, fun k hk => ⟨_, rfl, ⟨hb', hreaches⟩, ?_⟩⟩
        exact Option.some.inj hk ▸ Repository.modelOf_eq_ok_iff.mp hn
    · exact ⟨trivial, b, rfl, fun h => by simp [h.apart] at he⟩
    · obtain ⟨-, k, f, d, ho, -⟩ := Repository.assertTemplateKind_eq_ok_iff.mp hb'
      simp [Repository.modelOf_of_object? ho] at he
    · exact ⟨trivial, b, rfl, fun h => by simp [h.kind] at he⟩

/-- A copy of what a template may contain may stand in the same template. -/
theorem cloneValue_placed (hr : r.WellFormed) {S : ModelId → Prop} {value : Value}
    (hvalue : ∀ x, value = .composite x → r.Placed S x) (under : String) (owned : Bool) :
    (cloneValue value under owned).Ensures r
      (fun v r' => Grew r r' ∧ ∀ y, v = .composite y → r'.Placed S y) fun _ => Grew r := by
  have hbound : (cloneValue value under owned).Ensures r
      (fun v r' => ∀ y, v = .composite y → ∃ x n, value = .composite x ∧
        r.modelOf? x = some n ∧ r'.modelOf? y = some n) fun _ _ => True := by
    cases value with
    | accessor path => exact fun y hy => by simp at hy
    | scalar s => exact fun y hy => by simp at hy
    | collection id =>
      refine (ensures_map (x := copyCollection id under owned)).mpr ?_
      exact (ensures_true _ _).imp (fun _ _ _ y hy => by simp at hy) fun _ _ h => h
    | composite x =>
      refine (newInstance_bound hr x under owned).imp (fun v r' hv y hy => ?_) fun _ _ h => h
      obtain ⟨t, n, hseed, htn, hn⟩ := hv y hy
      obtain rfl := hr.seed_of_noTemplate (hvalue x rfl).noTemplate hseed
      exact ⟨t, n, rfl, htn.modelOf?, hn⟩
  refine ((cloneValue_makes hr value under owned).and hbound).imp ?_ fun _ _ h => h.1
  rintro v r' ⟨⟨hgrew, hloose⟩, hv⟩
  refine ⟨hgrew, ?_⟩
  rintro y rfl
  obtain ⟨x, n, rfl, hxn, hyn⟩ := hv y rfl
  refine ⟨hloose.denotes.index_lt rfl, hloose.noTemplate hr hgrew.2 rfl, fun k hk => ?_⟩
  obtain rfl := Option.some.inj (hyn.symm.trans hk)
  exact (hvalue x rfl).model n hxn

/-- Fields that may all stand in the template of a datatype can be installed there. -/
theorem within_installInherited {m : ModelId} {d : Datatype κ} {fields : Table String Value}
    (hd : r₀.model? m = some (.datatype d))
    (hfields : ∀ v ∈ fields.values, ∀ x, v = .composite x → r₀.Placed (E m) x) :
    Keeps (Within E r₀) (installInherited m fields) := by
  refine keeps_forEach fields.entries fun field hfield => ⟨fun r h => ?_⟩
  have hplaced : ∀ x, field.2 = .composite x → r.Placed (E m) x := fun x hx =>
    (hfields field.2 (List.mem_map.mpr ⟨field, hfield, rfl⟩) x hx).steady h.steady
  rw [ensures_bind]
  refine (cloneValue_placed h.bounded.wellFormed hplaced "" true).imp ?_ fun _ _ h' => h.grew h'
  rintro v r₁ ⟨hgrew, hv⟩
  refine updateInstances_within field.1 (h.grew hgrew) fun y hy => ⟨?_, hv y (Option.some.inj hy)⟩
  obtain ⟨d', hd', -⟩ := (h.steady.trans hgrew.2.steady).datatype hd
  exact ⟨d', hd'⟩

/-- The template of `k` has fields that may all stand in the template of `m`. -/
def Offers (E : ModelId → ModelId → Prop) (r : Repository ts) (k m : ModelId) : Prop :=
  ∃ e f, r.model? k = some (.datatype e) ∧ r.object? e.template = some (.composite k f) ∧
    ∀ v ∈ f.values, ∀ x, v = .composite x → r.Placed (E m) x

/-- What has been accepted as a base of `m` does not lead to it, unless it is an alias: then what
has been searched is not the datatype whose fields are installed. -/
theorem not_reaches_of_checkBase (hr : r.WellFormed) {m k : ModelId} {b : ObjectId}
    (hb : AdmitsBase r m b) (hk : r.modelOf? b = some k) (halias : r.isAlias k = false) :
    (∃ e, r.model? k = some (.datatype e)) ∧ ¬ ReflTransGen r.Contains k m := by
  obtain ⟨-, k', f, e, ho, he, htemplate⟩ := Repository.assertTemplateKind_eq_ok_iff.mp hb.kind
  obtain rfl : k' = k := by simpa [Repository.modelOf?, ho, Object.model] using hk
  rw [Repository.isAlias_datatype he] at halias
  exact ⟨⟨e, he⟩, Repository.not_reaches_of_reachesModel hr
    (Repository.IsPlain.resolve ⟨f, e, ho, he, htemplate, halias⟩) hk hb.apart⟩

/-- What has been accepted as a base of `m` offers its fields to it, unless it is an alias. -/
theorem offers_of_checkBase (h : r.Orderly) {m k : ModelId} {b : ObjectId}
    (hb : AdmitsBase r m b) (hk : r.modelOf? b = some k) (halias : r.isAlias k = false)
    (hsteady : r.Steady r') (hr' : r'.Bounded (AddEdges r.Contains m)) :
    Offers (AddEdges r.Contains m) r' k m := by
  obtain ⟨⟨e, he⟩, hno⟩ := not_reaches_of_checkBase h.bounded.wellFormed hb hk halias
  obtain ⟨e', he', -⟩ := hsteady.datatype he
  obtain ⟨f', ho'⟩ := hr'.wellFormed.template he'
  refine ⟨e', f', he', ho', ?_⟩
  -- What the template of the base contains does not lead to `m`, since the base does not.
  rintro v hv x rfl
  obtain ⟨role, hrole⟩ := Table.get?_of_mem_values (hr'.wellFormed.roles_nodup ho') hv
  have hx := hr'.placed he' ho' hrole
  refine ⟨hx.index_lt, hx.noTemplate, fun n hn => Or.inr ⟨rfl, fun hnm => ?_⟩⟩
  rcases hx.model n hn with hkn | ⟨rfl, -⟩
  · exact hno (.head hkn hnm)
  · exact hno .refl

/-- The fields of the template of a new base are what is installed. -/
theorem joinBase_ensures {m : ModelId} {bm : Option ModelId} {ok : Repository ts → Prop}
    {fails : Error → Repository ts → Prop} (hnone : bm = none → ok r)
    (hsome : ∀ k, bm = some k → ∃ e f, r.model? k = some (.datatype e) ∧
      r.object? e.template = some (.composite k f) ∧
        (installInherited m f).Ensures r (fun _ => ok) fails) :
    (joinBase m bm).Ensures r (fun _ => ok) fails := by
  cases bm with
  | none => exact hnone rfl
  | some k =>
    obtain ⟨e, f, he, ho, hinstall⟩ := hsome k rfl
    have hfields : r.fields e.template = .ok f := Repository.fields_eq_ok_iff.mpr ⟨k, ho⟩
    simp only [joinBase, ensures_bind, ensures_query, Repository.template?_datatype he]
    refine ⟨fun seed hseed => ?_, fun e' he' => by simp at he'⟩
    obtain rfl := Except.ok.inj hseed
    rw [hfields]
    refine ⟨fun fields h => ?_, fun e' he' => by simp at he'⟩
    exact Except.ok.inj h ▸ hinstall

/-- A change of the base closes no circle, unless the base is an alias. -/
theorem orderly_setBase (h : r.Orderly) (template : ObjectId) {base : Option ObjectId}
    (hbase : ∀ b m, base = some b → r.modelOf? b = some m → r.isAlias m = false) :
    (setBase template base).Ensures r (fun _ => Orderly) fun _ => Orderly := by
  simp only [setBase, ensures_bind, ensures_query]
  refine ⟨fun m hm => ?_, fun _ _ => h⟩
  obtain ⟨-, d, hd, -⟩ := Repository.canonicalModel_eq_ok_iff.mp hm
  refine (checkBase_ensures m base r).imp ?_ fun _ r' hr' => hr'.1 ▸ h
  rintro bm r' ⟨rfl, -, hbm⟩
  obtain ⟨hbounded, hacyclic⟩ := h.addEdges m
  have horderly : ∀ {r₁}, Within (AddEdges r'.Contains m) r' r₁ → r₁.Orderly :=
    fun h₁ => h₁.bounded.orderly hacyclic
  refine ((keeps_leaveBase m fun role => within_remove m role).ensures r'
    (within_refl hbounded)).imp ?_ fun _ _ h₁ => horderly h₁
  intro _ r₁ h₁
  rw [ensures_edit]
  have h₂ : Within (AddEdges r'.Contains m) r' (r₁.mapEntries m (Entry.rebase base)) :=
    ⟨h₁.bounded.mapEntries m _,
      h₁.steady.trans (Repository.steady_mapDatatype fun _ => ⟨rfl, rfl⟩)⟩
  obtain ⟨d₂, hd₂, -⟩ := h₂.steady.datatype hd
  refine joinBase_ensures (fun _ => horderly h₂) fun k hk => ?_
  obtain ⟨b, rfl, hb, hbk⟩ := hbm k hk
  obtain ⟨e, f, he, ho, hplaced⟩ := offers_of_checkBase h hb hbk (hbase b k rfl hbk) h₂.steady
    h₂.bounded
  refine ⟨e, f, he, ho, ?_⟩
  exact ((within_installInherited hd₂ hplaced).ensures _ (within_refl h₂.bounded)).imp
    (fun _ _ h' => h'.bounded.orderly hacyclic) fun _ _ h' => h'.bounded.orderly hacyclic

end Step

end Metamodel
