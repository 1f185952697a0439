import Metamodel.Proofs.Copies
import Metamodel.Proofs.Lasting

/-!
# Metamodel.Proofs.Making -- what is made with an instance

Instances, copies, and what a template holds for a member are made from the inside out, so that a
composite refers to older objects only, and all collections that are made on the way are of one
sort: they belong to a template, or their elements are counted. Main statement: so it is in every
well-formed repository, for all arguments, and however the making ends. What goes into a template is
made as `owned`: the length of all that it holds is symbolic, and a release of it by itself is
refused.
-/

namespace Metamodel

variable {κ : Type} {ts : TypeSystem κ} {r r' r'' : Repository ts} {owned : Bool}

namespace Step

open Repository (Loose)

/-- `r'` is `r` with composites and collections added. The collections have their origin in a
template if they are `owned`, and only then; a composite refers to older objects, and has each
accessor of its template under its own path. -/
structure Made (owned : Bool) (r r' : Repository ts) : Prop where
  grew : Grew r r'
  origin : ∀ {x s}, r.objects.size ≤ x.index → r'.shape x = .ok s →
    (s.origin = .template ↔ owned = true)
  older : ∀ {x m f v y}, r.objects.size ≤ x.index → r'.object? x = some (.composite m f) →
    v ∈ f.values → v.object? = some y → y.index < x.index
  accessor : ∀ {x m d f fT role leaf}, r.objects.size ≤ x.index →
    r'.object? x = some (.composite m f) → r'.model? m = some (.datatype d) →
    r'.object? d.template = some (.composite m fT) → fT.get? role = some (.accessor leaf) →
    f.get? role = some (.accessor (Path.leaf (r'.registeredName x) leaf))

/-- Only collections are new. -/
theorem made_of_oldComposites (h : Grew r r') (hold : OldComposites r r')
    (horigin : ∀ {x s}, r.objects.size ≤ x.index → r'.shape x = .ok s →
      (s.origin = .template ↔ owned = true)) : Made owned r r' where
  grew := h
  origin := horigin
  older hx ho := (Nat.not_le_of_lt (hold _ _ _ ho) hx).elim
  accessor hx ho := (Nat.not_le_of_lt (hold _ _ _ ho) hx).elim

theorem made_refl (h : r.WellFormed) : Made owned r r := by
  refine made_of_oldComposites (grew_refl h) (fun _ _ _ => Repository.index_lt_of_object?) ?_
  intro x s hx hs
  obtain ⟨m, es, ho, -⟩ := Repository.shape_eq_ok_iff.mp hs
  exact (Nat.not_le_of_lt (Repository.index_lt_of_object? ho) hx).elim

namespace Made

theorem trans (h : Made owned r r') (h' : Made owned r' r'') : Made owned r r'' where
  grew := h.grew.trans h'.grew
  origin {x s} hx hs := by
    obtain ⟨m, es, ho, -⟩ := Repository.shape_eq_ok_iff.mp hs
    rcases h'.grew.2.old_or_new ho with hold | hnew
    · obtain ⟨t, ht⟩ := h.grew.1.shape_of_collection hold
      obtain rfl := Except.ok.inj (hs.symm.trans (h'.grew.2.shape_ok ht))
      exact h.origin hx ht
    · exact h'.origin hnew hs
  older {x m f v y} hx ho hv hy := by
    rcases h'.grew.2.old_or_new ho with hold | hnew
    · exact h.older hx hold hv hy
    · exact h'.older hnew ho hv hy
  accessor {x m d f fT role leaf} hx ho hd hT hrole := by
    rcases h'.grew.2.old_or_new ho with hold | hnew
    · obtain ⟨d₁, g, hd₁, rfl⟩ := h'.grew.2.datatype_of hd
      rw [h'.grew.2.object? (h.grew.1.template_lt hd₁)] at hT
      rw [h'.grew.2.registeredName hold]
      exact h.accessor hx hold hd₁ hT hrole
    · exact h'.accessor hnew ho hd hT hrole

/-- An instance of values that are there, with an accessor for each one of the template. -/
theorem withInstance (h : Made owned r r') {m : ModelId} {d : Datatype κ}
    {fT f : Table String Value} {path : String} (hgrew : Grew r (r'.withInstance m f path))
    (hd : r'.model? m = some (.datatype d)) (hT : r'.object? d.template = some (.composite m fT))
    (hf : fT.Fieldwise (fun v w => r'.Denotes w ∧
      ∀ leaf, v = .accessor leaf → w = .accessor (Path.leaf path leaf)) f) :
    Made owned r (r'.withInstance m f path) where
  grew := hgrew
  origin {x s} hx hs := by
    obtain ⟨k, es, ho, hk⟩ := Repository.shape_eq_ok_iff.mp hs
    rcases Repository.eq_or_of_object?_withInstance ho with ⟨-, hcomposite⟩ | ho
    · simp at hcomposite
    · exact h.origin hx (Repository.shape_eq_ok_iff.mpr
        ⟨k, es, ho, Repository.model?_mapDatatype_shape.mp hk⟩)
  older {x k g v y} hx ho hv hy := by
    rcases Repository.eq_or_of_object?_withInstance ho with ⟨rfl, hcomposite⟩ | ho
    · obtain ⟨rfl, rfl⟩ := Object.composite.inj hcomposite
      obtain ⟨w, -, hdenotes, -⟩ := hf.of_mem_right hv
      exact hdenotes.index_lt hy
    · exact h.older hx ho hv hy
  accessor {x k e g gT role leaf} hx ho he hgT' hrole := by
    obtain ⟨e₁, _, he₁, rfl⟩ := Repository.model?_withInstance_datatype he
    have hne : e₁.template ≠ r'.nextObject := by
      obtain ⟨eT, heT⟩ := h.grew.1.template he₁
      exact Repository.ne_nextObject heT
    have hgT : r'.object? e₁.template = some (.composite k gT) := by
      rwa [Repository.object?_withInstance, if_neg hne] at hgT'
    rcases Repository.eq_or_of_object?_withInstance ho with ⟨rfl, hcomposite⟩ | hold
    · obtain ⟨rfl, rfl⟩ := Object.composite.inj hcomposite
      obtain rfl := Repository.datatype_unique hd he₁
      obtain rfl := (Repository.composite_unique hT hgT).2
      obtain ⟨w, hw, -, haccessor⟩ := hf.of_get? hrole
      rw [Repository.registeredName_withInstance hd, hw, haccessor leaf rfl]
    · have hname := (Repository.preserves_withInstance m f path x _ hold).registeredName
      rw [hname]
      exact h.accessor hx hold he₁ hgT hrole

end Made

/-! ## Collections -/

theorem made_buildCollection (h : r.WellFormed) {element : ObjectId} (capacity : Option Nat)
    (name : String) {origin : Origin} (helement : element.index < r.objects.size)
    (hsource : ∀ source, origin = .derived source → source.index < r.objects.size)
    (horigin : origin = .template ↔ owned = true) :
    (buildCollection element capacity name origin).Ensures r (fun _ => Made owned r)
      fun _ _ => False := by
  simp only [buildCollection, ensures_bind, ensures_ask, ensures_edit, ensures_pure]
  refine made_of_oldComposites
    ⟨h.addCollection capacity name helement hsource, r.extends_addCollection ..⟩ ?_ ?_
  · intro a m f ha
    rw [Repository.object?_addCollection] at ha
    split at ha
    · simp at ha
    · exact Repository.index_lt_of_object? ha
  · intro x s hx hs
    obtain ⟨m, es, ho, hm⟩ := Repository.shape_eq_ok_iff.mp hs
    rw [Repository.object?_addCollection] at ho
    split at ho
    · obtain ⟨rfl, -⟩ := Object.collection.inj (Option.some.inj ho)
      rw [Repository.model?_addCollection, if_pos rfl] at hm
      obtain rfl := Model.shape.inj (Option.some.inj hm)
      exact horigin
    · exact (Nat.not_le_of_lt (Repository.index_lt_of_object? ho) hx).elim

theorem builtOrigin_eq_template_iff : builtOrigin owned = .template ↔ owned = true := by
  cases owned <;> simp [builtOrigin]

theorem builtOrigin_ne_derived {source : ObjectId} : builtOrigin owned ≠ .derived source := by
  cases owned <;> simp [builtOrigin]

theorem made_copyCollection (h : r.WellFormed) (source : ObjectId) (under : String) :
    (copyCollection source under owned).Ensures r (fun _ => Made owned r)
      fun _ => Made owned r := by
  simp only [copyCollection, ensures_bind, ensures_query]
  refine ⟨fun s hs => ?_, fun _ _ => made_refl h⟩
  obtain ⟨m, es, ho, -⟩ := Repository.shape_eq_ok_iff.mp hs
  have hlt := Repository.index_lt_of_object? ho
  refine (made_buildCollection h s.capacity _ (Nat.lt_trans (h.element_lt hs) hlt) ?_ ?_).imp
    (fun _ _ h => h) fun _ _ h => h.elim
  · intro source' hsource
    cases owned with
    | true => simp at hsource
    | false =>
      obtain rfl : source = source' := by simpa using hsource
      exact hlt
  · cases owned <;> simp

theorem made_nestCollections (h : r.WellFormed) {element : ObjectId}
    (helement : element.index < r.objects.size) (cs : List (Option Nat)) (name : String) :
    (nestCollections element owned cs name).Ensures r (fun _ => Made owned r) fun _ _ => False := by
  induction cs generalizing name with
  | nil => exact made_refl h
  | cons c inner ih =>
    rw [nestCollections, ensures_bind]
    refine ((nestCollections_ensures h helement owned inner "").and (ih "")).imp ?_ fun _ _ h => h.1
    rintro content r₁ ⟨⟨h₁, hlt, -⟩, hmade⟩
    exact (made_buildCollection h₁.1 c name hlt
      (fun _ hsource => (builtOrigin_ne_derived hsource).elim) builtOrigin_eq_template_iff).imp
      (fun _ _ hmade' => hmade.trans hmade') fun _ _ h => h

theorem made_newCollections (h : r.WellFormed) (element : ObjectId) (q : Qualifier)
    (name : String) :
    (newCollections element q name owned).Ensures r (fun _ => Made owned r)
      fun _ => Made owned r := by
  simp only [newCollections, ensures_bind, ensures_query]
  refine ⟨fun _ hcontent => ⟨fun cs _ => ?_, fun _ _ => made_refl h⟩, fun _ _ => made_refl h⟩
  obtain ⟨o, ho⟩ := checkContent_eq_ok hcontent
  exact (made_nestCollections h (Repository.index_lt_of_object? ho) cs name).imp
    (fun _ _ h => h) fun _ _ h => h.elim

/-! ## Copies and instances -/

/-- A step that makes a value which nothing holds, with others of its sort. -/
def MakesSort (owned : Bool) (x : Step ts Value) (r : Repository ts) : Prop :=
  x.Ensures r (fun v r' => Made owned r r' ∧ Loose r r' v) fun _ => Made owned r

theorem MakesValue.makesSort {x : Step ts Value} (h : MakesValue x r)
    (hx : x.Ensures r (fun _ => Made owned r) fun _ => Made owned r) : MakesSort owned x r :=
  (Ensures.and h hx).imp (fun _ _ h' => ⟨h'.2, h'.1.2⟩) fun _ _ h' => h'.2

theorem cloneWith_made (h : r.WellFormed) {make : ObjectId → String → Step ts Value}
    {under : String} (hmake : ∀ id, MakesSort owned (make id under) r) (value : Value) :
    (cloneWith make owned value under).Ensures r
      (fun w r' => Made owned r r' ∧ Loose r r' w ∧
        ∀ leaf, value = .accessor leaf → w = .accessor (Path.leaf under leaf))
      fun _ => Made owned r := by
  cases value with
  | accessor leaf => exact ⟨made_refl h, .of_leaf rfl, fun _ heq => by rw [Value.accessor.inj heq]⟩
  | scalar s => exact ⟨made_refl h, .of_leaf rfl, by simp⟩
  | composite id =>
    exact Ensures.imp (hmake id) (fun _ _ h' => ⟨h'.1, h'.2, by simp⟩) fun _ _ h' => h'
  | collection id =>
    have hcopy : MakesSort owned (Value.collection <$> copyCollection id under owned) r :=
      ((copyCollection_makes h id under owned).makesValue h).makesSort
        (ensures_map.mpr (made_copyCollection h id under))
    exact Ensures.imp hcopy (fun _ _ h' => ⟨h'.1, h'.2, by simp⟩) fun _ _ h' => h'

theorem cloneFieldsWith_made (h : r.WellFormed) {make : ObjectId → String → Step ts Value}
    {under : String} (fields : Table String Value)
    (hmake : ∀ r₁, Made owned r r₁ → ∀ id, MakesSort owned (make id under) r₁) :
    (cloneFieldsWith make owned fields under).Ensures r
      (fun copies r' => Made owned r r' ∧ fields.Fieldwise (fun v w => Loose r r' w ∧
        ∀ leaf, v = .accessor leaf → w = .accessor (Path.leaf under leaf)) copies)
      fun _ => Made owned r := by
  rw [cloneFieldsWith, ensures_bind]
  refine (ensures_mapEach (P := Made owned r)
    (R := fun r₁ field copy => copy.1 = field.1 ∧ Loose r r₁ copy.2 ∧
      ∀ leaf, field.2 = .accessor leaf → copy.2 = .accessor (Path.leaf under leaf))
    fields.entries ?_ (made_refl h)).imp ?_ fun _ _ h => h
  · intro field _ r₁ h₁
    simp only [ensures_bind, ensures_pure]
    refine (cloneWith_made h₁.grew.1 (hmake r₁ h₁) field.2).imp ?_ fun _ _ h₂ => h₁.trans h₂
    rintro copy r₂ ⟨h₂, hloose, hleaf⟩
    exact ⟨h₁.trans h₂, fun _ _ h => ⟨h.1, h.2.1.extend h₂.grew.2, h.2.2⟩, trivial,
      .since h₁.grew.2 hloose h₂.grew.2, hleaf⟩
  · rintro copies r' ⟨h', -, hcopies⟩
    exact ⟨h', hcopies⟩

theorem instantiate_made (h : r.WellFormed) (owned : Bool) (depth : Nat) (id : ObjectId)
    (under : String) : MakesSort owned (instantiate owned depth id under) r := by
  induction depth generalizing r id under with
  | zero => exact made_refl h
  | succ depth ih =>
    refine (instantiate_makes h owned _ id under).makesSort ?_
    apply instantiate_ensures h
    case hrefused => exact fun _ _ => made_refl h
    case hnested => exact fun element q _ => made_newCollections h element q under
    case hleaf => exact fun _ _ _ _ _ => made_refl h
    case hcomposite =>
      intro t m d fT _ _ hd hkind hT
      refine (cloneFieldsWith_made h fT fun r₁ h₁ id => ih h₁.grew.1 id _).imp ?_ fun _ _ h => h
      rintro copies r₁ ⟨h₁, hcopies⟩
      obtain ⟨g, hg⟩ := h₁.grew.2.datatype hd
      obtain ⟨hgrew, -⟩ := h₁.grew.withCopies h (Path.join under (r.registeredName t)) hd hkind hT
        hcopies fun _ _ hvw => hvw.1
      exact h₁.withInstance hgrew hg (h₁.grew.2.object?_some hT)
        (hcopies.imp fun _ _ _ _ hvw => ⟨hvw.1.denotes, hvw.2⟩)

theorem newInstance_made (h : r.WellFormed) (id : ObjectId) (under : String) (owned : Bool) :
    MakesSort owned (newInstance id under owned) r :=
  newInstance_ensures_iff.mpr (instantiate_made h owned _ id under)

theorem cloneValue_made (h : r.WellFormed) (value : Value) (under : String) (owned : Bool) :
    MakesSort owned (cloneValue value under owned) r := by
  rw [MakesSort, cloneValue]
  refine (cloneWith_made h (fun id => ?_) value).imp (fun _ _ h' => ⟨h'.1, h'.2.1⟩) fun _ _ h' => h'
  exact newInstance_made h id under owned

/-- What a template holds for a member belongs to it. -/
theorem createRoleInstance_made (h : r.WellFormed) (datatype : ObjectId) (role : String)
    (qualifiers : List Qualifier) :
    MakesSort true (createRoleInstance datatype role qualifiers) r := by
  refine (createRoleInstance_makes h datatype role qualifiers).makesSort ?_
  simp only [createRoleInstance, ensures_bind, ensures_query, ensures_ask]
  refine ⟨fun datatype _ => ?_, fun _ _ => made_refl h⟩
  split
  · exact ensures_map.mpr (made_newCollections h datatype _ role)
  · exact Ensures.imp (newInstance_made h datatype role true) (fun _ _ h' => h'.1) fun _ _ h' => h'

end Step

/-! ## What is made for a template -/

/-- Every collection with this number or a later one has its origin in a template. -/
def Repository.SymbolicFrom (n : Nat) (r : Repository ts) : Prop :=
  ∀ ⦃x s⦄, n ≤ x.index → r.shape x = .ok s → s.origin = .template

namespace Step

open Repository (Loose)

/-- A step that makes a value for a template: nothing holds it, and all collections that are made on
the way have their origin in the template. -/
def MakesOwned (x : Step ts Value) (r : Repository ts) : Prop :=
  x.Ensures r (fun v r' => Grew r r' ∧ Loose r r' v ∧ r'.SymbolicFrom r.objects.size)
    fun _ => Grew r

theorem MakesSort.makesOwned {x : Step ts Value} (h : MakesSort true x r) : MakesOwned x r :=
  Ensures.imp h (fun _ _ h' => ⟨h'.1.grew, h'.2, fun _ _ hx hs => (h'.1.origin hx hs).mpr rfl⟩)
    fun _ _ h' => h'.grew

theorem cloneValue_makesOwned (h : r.WellFormed) (value : Value) (under : String) :
    MakesOwned (cloneValue value under true) r :=
  (cloneValue_made h value under true).makesOwned

theorem createRoleInstance_makesOwned (h : r.WellFormed) (datatype : ObjectId) (role : String)
    (qualifiers : List Qualifier) :
    MakesOwned (createRoleInstance datatype role qualifiers) r :=
  (createRoleInstance_made h datatype role qualifiers).makesOwned

end Step

end Metamodel
