import Mathlib.Order.Interval.Finset.Nat
import Metamodel.Proofs.Atomicity
import Metamodel.Proofs.Forms
import Metamodel.Proofs.Making
import Metamodel.Proofs.Releasing
import Metamodel.Proofs.Transparency
import Metamodel.Proofs.Upholding

/-!
# Metamodel.Proofs.Undoing -- what a release takes back of an instance

An instance is made of new objects: composites, copies of collections, and the collections nested in
each other that an alias stands for. A release follows fields and elements. Of nested collections
only the outermost is held by anything; the inner ones are what its elements are copied from, and
they stay when it is released. Main statement: releasing an instance just made leaves all objects,
datatypes and registries as they were, but for these inner collections, of which there are none
unless an alias with several dimensions was unwrapped.
-/

namespace Metamodel

variable {κ : Type} {ts : TypeSystem κ} {r r' r'' : Repository ts}

namespace Repository

/-! ## Templates and what goes with an object in a later repository -/

theorem isTemplate_iff {x : ObjectId} :
    r.isTemplate x = true ↔
      ∃ m d, r.modelOf? x = some m ∧ r.model? m = some (.datatype d) ∧ d.template = x := by
  unfold isTemplate
  rw [Option.any_eq_true]
  constructor
  · rintro ⟨m, hm, h⟩
    obtain ⟨hkind, htemplate⟩ := Bool.and_eq_true_iff.mp h
    obtain ⟨k, hk⟩ := Option.isSome_iff_exists.mp hkind
    obtain ⟨d, hd, -⟩ := kindOf?_eq_some_iff.mp hk
    rw [template?_datatype hd, beq_iff_eq] at htemplate
    exact ⟨m, d, hm, hd, Option.some.inj htemplate⟩
  · rintro ⟨m, d, hm, hd, rfl⟩
    refine ⟨m, hm, ?_⟩
    simp [kindOf?_eq_some_iff.mpr ⟨d, hd, rfl⟩, template?_datatype hd]

theorem NoTemplate.isTemplate {x : ObjectId} (h : r.NoTemplate x) : r.isTemplate x = false := by
  rw [Bool.eq_false_iff]
  intro htemplate
  obtain ⟨m, d, -, hd, rfl⟩ := isTemplate_iff.mp htemplate
  exact h m d hd rfl

/-- An object does not become a template where no datatype is new. -/
theorem isTemplate_later {x : ObjectId} {o : Object} (ho : r.object? x = some o)
    (ho' : r'.object? x = some o)
    (hdatatype : ∀ {m d'}, r'.model? m = some (.datatype d') →
      ∃ d g, r.model? m = some (.datatype d) ∧ d' = { d with registry := g })
    (htemplate : r.isTemplate x = false) : r'.isTemplate x = false := by
  rw [Bool.eq_false_iff] at htemplate ⊢
  intro hlater
  obtain ⟨m, d', hm, hd', hx⟩ := isTemplate_iff.mp hlater
  obtain ⟨d, g, hd, rfl⟩ := hdatatype hd'
  rw [modelOf?_of_object? ho', ← modelOf?_of_object? ho] at hm
  exact htemplate (isTemplate_iff.mpr ⟨m, d, hm, hd, hx⟩)

namespace GoesWith

variable {a b x : ObjectId}

theorem trans (h : r.GoesWith a b) (h' : r.GoesWith b x) : r.GoesWith a x := by
  induction h' with
  | root => exact h
  | held _ ho hx hlive htemplate ih => exact ih.held ho hx hlive htemplate

/-- What goes with an object goes with it where only additions are made. -/
theorem later (h : r.GoesWith a x)
    (hobject : ∀ {y o}, r.object? y = some o → r'.object? y = some o)
    (hdatatype : ∀ {m d'}, r'.model? m = some (.datatype d') →
      ∃ d g, r.model? m = some (.datatype d) ∧ d' = { d with registry := g }) :
    r'.GoesWith a x := by
  induction h with
  | root => exact .root
  | held _ ho hx hlive htemplate ih =>
    obtain ⟨p, hp⟩ := isLive_iff.mp hlive
    exact ih.held (hobject ho) hx (isLive_iff.mpr ⟨p, hobject hp⟩)
      (isTemplate_later hp (hobject hp) hdatatype htemplate)

/-- With a new object go new ones only. -/
theorem new (h : r'.GoesWith a x) (hext : r.Extends r') (ha : r.objects.size ≤ a.index) :
    r.objects.size ≤ x.index := by
  induction h with
  | root => exact ha
  | held _ ho hx _ _ ih =>
    obtain ⟨v, hv, hvx⟩ := Object.mem_held_iff.mp hx
    exact (hext.held_new ho ih hv).1 _ hvx

end GoesWith

/-! ## What is made, piece by piece -/

/-- The collection is what the elements of a new collection are copied from. -/
def Prototype (r r' : Repository ts) (x : ObjectId) : Prop :=
  r'.isCollection x = true ∧
    ∃ y s, r.objects.size ≤ y.index ∧ r'.shape y = .ok s ∧ s.element = x

/-- `r'` is `r` with these roots: whatever is new goes with one of them, or is the prototype of the
elements of a new collection, if there may be such at all; and the registries list new objects
behind those that they had listed. -/
structure Assembled (nested : Prop) (r r' : Repository ts) (roots : ObjectId → Prop) : Prop where
  reached : ∀ {x}, r.objects.size ≤ x.index → x.index < r'.objects.size →
    (∃ a, roots a ∧ r'.GoesWith a x) ∨ nested ∧ r.Prototype r' x
  registry : ∀ {m d}, r.model? m = some (.datatype d) → ∃ more : List (ObjectId × String),
    (∀ e ∈ more, r.objects.size ≤ e.1.index) ∧
    r'.model? m = some (.datatype
      { d with registry := d.registry.map fun g => ⟨g.entries ++ more⟩ })

theorem Prototype.later {x : ObjectId} (h : r.Prototype r' x)
    (hobject : ∀ {y o}, r'.object? y = some o → r''.object? y = some o)
    (hshape : ∀ {m s}, r'.model? m = some (.shape s) → r''.model? m = some (.shape s)) :
    r.Prototype r'' x := by
  obtain ⟨hx, y, s, hy, hs, helement⟩ := h
  obtain ⟨m, es, ho⟩ := isCollection_iff.mp hx
  obtain ⟨n, fs, hyo, hn⟩ := shape_eq_ok_iff.mp hs
  exact ⟨isCollection_iff.mpr ⟨m, es, hobject ho⟩, y, s, hy,
    shape_eq_ok_iff.mpr ⟨n, fs, hobject hyo, hshape hn⟩, helement⟩

namespace Assembled

variable {nested : Prop} {roots roots' : ObjectId → Prop}

theorem mono (h : Assembled nested r r' roots) (hroots : ∀ a, roots a → roots' a) :
    Assembled nested r r' roots' where
  reached hx hlt := (h.reached hx hlt).imp_left fun ⟨a, ha, hax⟩ => ⟨a, hroots a ha, hax⟩
  registry := h.registry

/-- Nothing has been made yet. -/
theorem refl (r : Repository ts) : Assembled nested r r roots where
  reached hx hlt := (Nat.not_lt_of_le hx hlt).elim
  registry {m d} hd := ⟨[], by simp, by cases hg : d.registry <;> simp [hd, ← hg]⟩

theorem trans (h : Assembled nested r r' roots) (hext : r.Extends r')
    (h' : Assembled nested r' r'' roots') (hext' : r'.Extends r'') :
    Assembled nested r r'' (fun a => roots a ∨ roots' a) where
  reached {x} hx hlt := by
    rcases Nat.lt_or_ge x.index r'.objects.size with hold | hnew
    · rcases h.reached hx hold with ⟨a, ha, hax⟩ | ⟨hnested, hprototype⟩
      · exact Or.inl ⟨a, Or.inl ha, hax.later hext'.object?_some hext'.datatype_of⟩
      · exact Or.inr ⟨hnested, hprototype.later hext'.object?_some hext'.shape⟩
    · rcases h'.reached hnew hlt with ⟨a, ha, hax⟩ | ⟨hnested, hcollection, y, s, hy, hs, helement⟩
      · exact Or.inl ⟨a, Or.inr ha, hax⟩
      · have hy' : r.objects.size ≤ y.index := Nat.le_trans hext.objects_le hy
        exact Or.inr ⟨hnested, hcollection, y, s, hy', hs, helement⟩
  registry hd := by
    obtain ⟨more, hmore, hd'⟩ := h.registry hd
    obtain ⟨more', hmore', hd''⟩ := h'.registry hd'
    refine ⟨more ++ more', fun e he => ?_, ?_⟩
    · rcases List.mem_append.mp he with he | he
      · exact hmore e he
      · exact Nat.le_trans hext.objects_le (hmore' e he)
    · rw [hd'']
      simp [Option.map_map, Function.comp_def]

/-- An instance holds the roots of its fields, and is the only root. -/
theorem withInstance (hr : r.WellFormed) (hr' : r'.WellFormed) (hext : r.Extends r') {m : ModelId}
    {d : Datatype κ} {f : Table String Value} (path : String)
    (hd : r'.model? m = some (.datatype d)) (halias : ts.isAlias d.kind = false)
    (hf : ∀ v ∈ f.values, Loose r r' v)
    (h : Assembled nested r r' fun a => ∃ v ∈ f.values, v.object? = some a) :
    Assembled nested r (r'.withInstance m f path) (· = r'.nextObject) where
  reached {x} hx hlt := by
    have hext' := hext.withInstance path hd hf
    have hroot : (r'.withInstance m f path).object? r'.nextObject = some (.composite m f) := by
      rw [object?_withInstance, if_pos rfl]
    rw [size_objects_withInstance] at hlt
    rcases Nat.lt_or_ge x.index r'.objects.size with hold | hnew
    · rcases h.reached hx hold with ⟨a, ⟨v, hv, hva⟩, hax⟩ | ⟨hnested, hprototype⟩
      · -- The new instance holds the root, and so all that goes with it.
        obtain ⟨hnew, hdenotes⟩ := hext'.held_new hroot hext.objects_le hv
        obtain ⟨o, ho⟩ := hdenotes.object? hva
        have hheld : (r'.withInstance m f path).GoesWith r'.nextObject a :=
          GoesWith.root.held hroot (Object.mem_held_iff.mpr ⟨v, hv, hva⟩)
            (isLive_iff.mpr ⟨o, ho⟩) (hext'.noTemplate hr (hnew a hva)).isTemplate
        exact Or.inl ⟨_, rfl,
          hheld.trans (hax.later object?_withInstance_of_some model?_withInstance_datatype)⟩
      · refine Or.inr ⟨hnested, hprototype.later object?_withInstance_of_some ?_⟩
        exact model?_mapDatatype_shape.mpr
    · obtain rfl : x = r'.nextObject :=
        ObjectId.eq_iff.mpr (Nat.le_antisymm (Nat.le_of_lt_succ hlt) hnew)
      exact Or.inl ⟨_, rfl, .root⟩
  registry {k e} he := by
    obtain ⟨more, hmore, he'⟩ := h.registry he
    by_cases hk : k = m
    · subst hk
      obtain rfl := datatype_unique hd he'
      obtain ⟨g, hg⟩ : ∃ g, e.registry = some g := by
        cases hg : e.registry with
        | some g => exact ⟨g, rfl⟩
        | none =>
          rw [(hr'.registry_none_iff hd).mp (by simp [hg])] at halias
          simp at halias
      -- The number of the new instance has not been used, so that its path comes last.
      have hkey : r'.nextObject ∉ (Table.mk (g.entries ++ more)).keys := by
        intro hkey
        obtain ⟨f', ho⟩ := (hr'.registry_keys hd (by rw [hg]; rfl) _).mp hkey
        simp at ho
      refine ⟨more ++ [(r'.nextObject, path)], fun entry hentry => ?_, ?_⟩
      · rcases List.mem_append.mp hentry with hentry | hentry
        · exact hmore entry hentry
        · obtain rfl := List.mem_singleton.mp hentry
          exact hext.objects_le
      · refine model?_mapDatatype_datatype.mpr ⟨_, hd, ?_⟩
        simp [hg, Table.insert_eq_append hkey]
    · refine ⟨more, hmore, model?_mapDatatype_datatype.mpr ⟨_, he', ?_⟩⟩
      rw [if_neg hk]

end Assembled

end Repository

namespace Step

open Repository (Loose Prototype Assembled isCollection_iff)

variable {nested : Prop} {owned : Bool}

/-! ## Collections -/

/-- One collection is made, and no datatype changes. -/
theorem buildCollection_adds (r : Repository ts) (element : ObjectId) (capacity : Option Nat)
    (name : String) (origin : Origin) :
    (buildCollection element capacity name origin).Ensures r
      (fun id r' => id = r.nextObject ∧ r'.objects.size = r.objects.size + 1 ∧
        ∀ {m d}, r.model? m = some (.datatype d) → r'.model? m = some (.datatype d))
      fun _ _ => False := by
  simp only [buildCollection, ensures_bind, ensures_ask, ensures_edit, ensures_pure]
  refine ⟨trivial, by simp, fun hd => ?_⟩
  rw [Repository.model?_addCollection, if_neg (Repository.ne_nextModel hd), hd]

/-- Of nested collections that are made, all but the outermost are prototypes. -/
structure Nested (r r' : Repository ts) (count : Nat) (id : ObjectId) : Prop where
  size : r'.objects.size = r.objects.size + count
  reached : ∀ {x}, r.objects.size ≤ x.index → x.index < r'.objects.size →
    x = id ∨ r.Prototype r' x
  datatype : ∀ {m d}, r.model? m = some (.datatype d) → r'.model? m = some (.datatype d)

theorem nestCollections_nested (h : r.WellFormed) {element : ObjectId}
    (helement : element.index < r.objects.size) (cs : List (Option Nat)) (name : String) :
    (nestCollections element owned cs name).Ensures r (fun id r' => Nested r r' cs.length id)
      fun _ _ => False := by
  induction cs generalizing name with
  | nil => exact ⟨rfl, fun hx hlt => (Nat.not_lt_of_le hx hlt).elim, fun hd => hd⟩
  | cons c inner ih =>
    rw [nestCollections, ensures_bind]
    refine ((nestCollections_ensures h helement owned inner "").and
      ((nestCollections_nests h helement owned inner "").and (ih ""))).imp ?_ fun _ _ h => h.1
    rintro content r₁ ⟨⟨h₁, hlt, hloose, -⟩, hnests, hinner⟩
    refine ((buildCollection_ensures h₁.1 c name hlt
      fun _ hsource => (builtOrigin_ne_derived hsource).elim).and
      (buildCollection_adds r₁ content c name _)).imp ?_ fun _ _ h => h.1
    rintro id r₂ ⟨⟨h₂, -, -, hshape⟩, rfl, hsize, hdatatype⟩
    refine ⟨by rw [hsize, hinner.size, List.length_cons]; omega, fun {x} hx hxlt => ?_,
      fun hd => hdatatype (hinner.datatype hd)⟩
    rw [hsize] at hxlt
    rcases Nat.lt_or_ge x.index r₁.objects.size with hold | hnew
    · refine Or.inr ?_
      rcases hinner.reached hx hold with rfl | hprototype
      · -- The outermost of the inner ones is what the elements of the new one are copied from.
        cases inner with
        | nil =>
          obtain rfl : x = element := hnests
          exact (Nat.not_lt_of_le hx helement).elim
        | cons c' inner =>
          obtain ⟨m, es, ho⟩ := (hloose (List.cons_ne_nil c' inner)).denotes
          exact ⟨isCollection_iff.mpr ⟨m, es, h₂.2.object?_some ho⟩, _, _, h₁.2.objects_le,
            hshape, rfl⟩
      · exact hprototype.later h₂.2.object?_some h₂.2.shape
    · exact Or.inl (ObjectId.eq_iff.mpr (Nat.le_antisymm (Nat.le_of_lt_succ hxlt) hnew))

theorem newCollections_nested (h : r.WellFormed) (element : ObjectId) (q : Qualifier)
    (name : String) :
    (newCollections element q name owned).Ensures r
      (fun id r' => Nested r r' q.bounds.length id) fun _ _ => True := by
  simp only [newCollections, ensures_bind, ensures_query]
  refine ⟨fun _ hcontent => ⟨fun cs hcs => ?_, fun _ _ => trivial⟩, fun _ _ => trivial⟩
  obtain ⟨o, ho⟩ := checkContent_eq_ok hcontent
  rw [(Repository.forall₂_of_capacities hcs).length_eq]
  exact (nestCollections_nested h (Repository.index_lt_of_object? ho) cs name).imp
    (fun _ _ h => h) fun _ _ h => h.elim

/-- One dimension needs no prototype. -/
theorem Nested.assembled {count : Nat} {id : ObjectId} (h : Nested r r' count id)
    (hid : r.objects.size ≤ id.index ∧ id.index < r'.objects.size) (hcount : nested ∨ count ≤ 1) :
    Assembled nested r r' (· = id) where
  reached {x} hx hlt := by
    rcases h.reached hx hlt with rfl | hprototype
    · exact Or.inl ⟨x, rfl, .root⟩
    · rcases hcount with hnested | hcount
      · exact Or.inr ⟨hnested, hprototype⟩
      · have hsize := h.size
        obtain rfl : x = id := ObjectId.eq_iff.mpr (by omega)
        exact Or.inl ⟨x, rfl, .root⟩
  registry {m d} hd := ⟨[], by simp, by cases hg : d.registry <;> simp [h.datatype hd, ← hg]⟩

theorem newCollections_assembled (h : r.WellFormed) (element : ObjectId) (q : Qualifier)
    (name : String) (hq : nested ∨ q.bounds.length ≤ 1) :
    (newCollections element q name owned).Ensures r
      (fun id r' => Assembled nested r r' (· = id)) fun _ _ => True := by
  refine ((newCollections_makes h element q name owned).and
    (newCollections_nested h element q name)).imp ?_ fun _ _ _ => trivial
  rintro id r' ⟨⟨-, hloose, -⟩, hnested⟩
  exact hnested.assembled ⟨hloose.new id rfl, hloose.denotes.index_lt rfl⟩ hq

theorem copyCollection_assembled (r : Repository ts) (source : ObjectId) (under : String) :
    (copyCollection source under owned).Ensures r
      (fun id r' => Assembled nested r r' (· = id)) fun _ _ => True := by
  simp only [copyCollection, ensures_bind, ensures_query]
  refine ⟨fun s _ => ?_, fun _ _ => trivial⟩
  refine (buildCollection_adds r s.element s.capacity _ _).imp ?_ fun _ _ _ => trivial
  rintro id r' ⟨rfl, hsize, hdatatype⟩
  have hnested : Nested r r' 1 r.nextObject := by
    refine ⟨hsize, fun {x} hx hlt => Or.inl (ObjectId.eq_iff.mpr ?_), hdatatype⟩
    rw [hsize] at hlt
    exact Nat.le_antisymm (Nat.le_of_lt_succ hlt) hx
  refine hnested.assembled ⟨Nat.le_refl _, ?_⟩ (Or.inr (Nat.le_refl 1))
  rw [hsize]
  exact Nat.lt_succ_self _

/-! ## Copies and instances -/

/-- The step makes one value, and all that is new belongs to it. -/
def MakesAssembled (nested : Prop) (x : Step ts Value) (r : Repository ts) : Prop :=
  x.Ensures r (fun v r' => Assembled nested r r' fun a => v.object? = some a) fun _ _ => True

theorem makesAssembled_collection {x : Step ts ObjectId}
    (h : x.Ensures r (fun id r' => Assembled nested r r' (· = id)) fun _ _ => True) :
    MakesAssembled nested (Value.collection <$> x) r := by
  refine ensures_map.mpr (h.imp ?_ fun _ _ h => h)
  intro id r' h'
  exact h'.mono fun a ha => by rw [ha]; rfl

/-- Unless prototypes are allowed for, these templates have one dimension at most, now and later,
and they include all composites that a canonical template holds. -/
structure Shallow (nested : Prop) (P : ObjectId → Prop) (r : Repository ts) : Prop where
  single : ∀ {r' id element q}, Grew r r' → P id → r'.seed id = .ok (.nested element q) →
    nested ∨ q.bounds.length ≤ 1
  held : ∀ {m d f x}, r.model? m = some (.datatype d) →
    r.object? d.template = some (.composite m f) → .composite x ∈ f.values → P x

theorem Shallow.grew {P : ObjectId → Prop} (h : Shallow nested P r) (hr : r.WellFormed)
    (hgrew : Grew r r') : Shallow nested P r' where
  single hgrew' := h.single (hgrew.trans hgrew')
  held {m d f x} hd hT hx := by
    obtain ⟨e, g, he, rfl⟩ := hgrew.2.datatype_of hd
    rw [hgrew.2.object? (hr.template_lt he)] at hT
    exact h.held he hT hx

theorem cloneFieldsWith_assembled (h : r.WellFormed) {make : ObjectId → String → Step ts Value}
    {under : String} (fields : Table String Value)
    (hmakes : ∀ r₁, Grew r r₁ → ∀ x, MakesValue (make x under) r₁)
    (hmake : ∀ r₁, Grew r r₁ → ∀ x, .composite x ∈ fields.values →
      MakesAssembled nested (make x under) r₁) :
    (cloneFieldsWith make owned fields under).Ensures r
      (fun copies r' => Assembled nested r r' fun a => ∃ v ∈ copies.values, v.object? = some a)
      fun _ _ => True := by
  rw [cloneFieldsWith, ensures_bind]
  -- So far, all that is new belongs to the copies that are done.
  refine (ensures_mapEach_answers (P := fun done r₁ => Grew r r₁ ∧
    Assembled nested r r₁ fun a => ∃ field ∈ done, Value.object? field.2 = some a)
    fields.entries [] ?_ ⟨grew_refl h, .refl r⟩).imp ?_ fun _ _ h => h
  · rintro ⟨role, value⟩ hfield done r₁ ⟨h₁, hdone⟩
    simp only [ensures_bind, ensures_pure]
    have hvalue : MakesAssembled nested (cloneWith make owned value under) r₁ := by
      cases value with
      | accessor path => exact .refl r₁
      | scalar s => exact .refl r₁
      | composite x => exact hmake r₁ h₁ x (List.mem_map.mpr ⟨_, hfield, rfl⟩)
      | collection x =>
        exact makesAssembled_collection (copyCollection_assembled r₁ x under)
    refine ((cloneWith_makes h₁.1 fun x _ => hmakes r₁ h₁ x).and hvalue).imp ?_ fun _ _ _ => trivial
    rintro copy r₂ ⟨⟨h₂, -⟩, hcopy⟩
    refine ⟨h₁.trans h₂, (hdone.trans h₁.2 hcopy h₂.2).mono ?_⟩
    rintro a (⟨field, hfield, ha⟩ | ha)
    · exact ⟨field, List.mem_append_left _ hfield, ha⟩
    · exact ⟨_, List.mem_append_right _ List.mem_cons_self, ha⟩
  · rintro copies r' ⟨-, hcopies⟩
    refine hcopies.mono ?_
    rintro a ⟨field, hfield, ha⟩
    exact ⟨_, List.mem_map.mpr ⟨field, hfield, rfl⟩, ha⟩

/-- All that is made with an instance belongs to it, but for prototypes. -/
theorem instantiate_assembled {P : ObjectId → Prop} (h : r.WellFormed) (hP : Shallow nested P r)
    (depth : Nat) {id : ObjectId} (hid : P id) (under : String) :
    MakesAssembled nested (instantiate owned depth id under) r := by
  induction depth generalizing r id under with
  | zero => exact trivial
  | succ depth ih =>
    apply instantiate_ensures h
    case hrefused => exact fun _ _ => trivial
    case hnested =>
      intro element q hseed
      have hq := hP.single (grew_refl h) hid hseed
      exact ensures_map.mp
        (makesAssembled_collection (newCollections_assembled h element q under hq))
    case hleaf => exact fun _ _ _ _ _ => .refl r
    case hcomposite =>
      intro t m d fT _ _ hd hkind hT
      have hmakes : ∀ r₁, Grew r r₁ → ∀ x, MakesValue (instantiate owned depth x
          (Path.join under (r.registeredName t))) r₁ :=
        fun r₁ h₁ x => instantiate_makes h₁.1 owned depth x _
      have hmake : ∀ r₁, Grew r r₁ → ∀ x, .composite x ∈ fT.values →
          MakesAssembled nested (instantiate owned depth x
            (Path.join under (r.registeredName t))) r₁ :=
        fun r₁ h₁ x hx => ih h₁.1 (hP.grew h h₁) (hP.held hd hT hx) _
      refine ((cloneFieldsWith_ensures h fT hmakes).and
        (cloneFieldsWith_assembled h fT hmakes hmake)).imp ?_ fun _ _ _ => trivial
      rintro copies r₁ ⟨⟨h₁, hcopies⟩, hassembled⟩
      obtain ⟨g, hg⟩ := h₁.2.datatype hd
      have hloose : ∀ v ∈ copies.values, Loose r r₁ v := by
        intro v hv
        obtain ⟨_, _, hloose⟩ := hcopies.of_mem_right hv
        exact hloose
      refine (Assembled.withInstance h h₁.1 h₁.2 _ hg hkind.2.1 hloose hassembled).mono ?_
      exact fun a ha => by rw [ha]; rfl

/-- All that is made with an instance belongs to it, but for prototypes. -/
theorem newInstance_assembled {P : ObjectId → Prop} (h : r.WellFormed) (hP : Shallow nested P r)
    {id : ObjectId} (hid : P id) (under : String) :
    MakesAssembled nested (newInstance id under owned) r :=
  newInstance_ensures_iff.mpr (instantiate_assembled h hP _ hid under)

/-! ## Releases -/

/-- `r'` is what `r` was before something was made, but for objects that are left: collections,
which were made as prototypes of the elements of others. -/
structure Undone (r made r' : Repository ts) (left : Finset ObjectId) : Prop where
  object? : ∀ x ∉ left, r'.object? x = r.object? x
  model? : ∀ m, m.index < r.models.size → r'.model? m = r.model? m
  left : ∀ x ∈ left, r.objects.size ≤ x.index ∧ r'.isLive x = true ∧ r.Prototype made x

/-- The objects that have been made. -/
def newObjects (r made : Repository ts) : Finset ObjectId :=
  (Finset.Ico r.objects.size made.objects.size).image ObjectId.mk

theorem mem_newObjects {made : Repository ts} {x : ObjectId} :
    x ∈ newObjects r made ↔ r.objects.size ≤ x.index ∧ x.index < made.objects.size := by
  rw [newObjects, Finset.mem_image]
  constructor
  · rintro ⟨i, hi, rfl⟩
    exact Finset.mem_Ico.mp hi
  · intro h
    exact ⟨x.index, Finset.mem_Ico.mpr h, rfl⟩

theorem card_newObjects {made : Repository ts} :
    (newObjects r made).card = made.objects.size - r.objects.size := by
  rw [newObjects, Finset.card_image_of_injective, Nat.card_Ico]
  exact fun i j h => congrArg ObjectId.index h

/-- Of the objects that a registry lists, exactly the new ones go. -/
theorem registry_undone (hr : r.WellFormed) {made : Repository ts} (hmade : made.WellFormed)
    {gone : Finset ObjectId} (hnew : ∀ y ∈ gone, r.objects.size ≤ y.index)
    (hgone : ∀ {y m f}, r.objects.size ≤ y.index → made.object? y = some (.composite m f) →
      y ∈ gone) {m : ModelId} {d : Datatype κ} (hd : r.model? m = some (.datatype d))
    {more : List (ObjectId × String)} (hmore : ∀ e ∈ more, r.objects.size ≤ e.1.index)
    (hd' : made.model? m = some (.datatype
      { d with registry := d.registry.map fun g => ⟨g.entries ++ more⟩ })) :
    (d.registry.map fun g => Table.mk (g.entries ++ more)).map (·.without gone) = d.registry := by
  cases hg : d.registry with
  | none => rfl
  | some g =>
    have hold : ∀ e ∈ g.entries, e.1 ∉ gone := by
      intro e he hy
      obtain ⟨f, ho⟩ := (hr.registry_keys hd hg e.1).mp (List.mem_map.mpr ⟨e, he, rfl⟩)
      exact Nat.not_le_of_lt (Repository.index_lt_of_object? ho) (hnew _ hy)
    have hall : ∀ e ∈ more, e.1 ∈ gone := by
      intro e he
      have hkey : e.1 ∈ (Table.mk (g.entries ++ more)).keys :=
        List.mem_map.mpr ⟨e, List.mem_append_right _ he, rfl⟩
      obtain ⟨f, ho⟩ := (hmade.registry_keys hd' (by rw [hg]; rfl) e.1).mp hkey
      exact hgone (hmore e he) ho
    rw [Option.map_some, Option.map_some, Table.without_append hold hall]

/-- A datatype is what it was, once all composites that are new have gone. -/
theorem model?_undone (hr : r.WellFormed) {made : Repository ts} {x : ObjectId}
    {gone : Finset ObjectId} (hgrew : Grew r made) (h : Assembled nested r made (· = x))
    (hwithout : made.Without gone r') (hnew : ∀ y ∈ gone, r.objects.size ≤ y.index)
    (hgone : ∀ {y m f}, r.objects.size ≤ y.index → made.object? y = some (.composite m f) →
      y ∈ gone) {m : ModelId} (hm : m.index < r.models.size) : r'.model? m = r.model? m := by
  rw [hwithout.model m]
  obtain ⟨model, hmodel⟩ : ∃ model, r.model? m = some model := by simp [Repository.model?, hm]
  cases model with
  | shape s => rw [hmodel, hgrew.2.shape hmodel]; rfl
  | datatype d =>
    obtain ⟨more, hmore, hd⟩ := h.registry hmodel
    have hregistry := registry_undone hr hgrew.1 hnew hgone hmodel hmore hd
    rw [hmodel, hd, Option.map_some, Model.mapDatatype, hregistry]

/-- What is not left over is what it was: it is old, or has gone, or has never been made. -/
theorem object?_undone {made : Repository ts} {gone : Finset ObjectId} (hgrew : Grew r made)
    (hwithout : made.Without gone r') (hnew : ∀ y ∈ gone, r.objects.size ≤ y.index) {y : ObjectId}
    (hy : y ∉ newObjects r made \ gone) : r'.object? y = r.object? y := by
  rcases Nat.lt_or_ge y.index r.objects.size with hold | hge
  · have hkept : y ∉ gone := fun hy => Nat.not_le_of_lt hold (hnew y hy)
    rw [hwithout.kept y hkept, hgrew.2.object? hold]
  · rw [Repository.object?_eq_none_of_le hge]
    by_cases hy' : y ∈ gone
    · exact hwithout.dead y hy'
    · rw [hwithout.kept y hy']
      apply Repository.object?_eq_none_of_le
      by_contra hlt
      have hmem := mem_newObjects.mpr ⟨hge, Nat.lt_of_not_le hlt⟩
      exact hy (Finset.mem_sdiff.mpr ⟨hmem, hy'⟩)

/-- Without all that goes with the root, it is as if nothing had been made but for prototypes. -/
theorem undone_of_assembled (hr : r.WellFormed) {made : Repository ts} {x : ObjectId}
    {gone : Finset ObjectId} (hgrew : Grew r made) (h : Assembled nested r made (· = x))
    (hx : r.objects.size ≤ x.index) (hlive : made.isLive x = true)
    (hgone : ∀ y, y ∈ gone ↔ made.GoesWith x y) (hwithout : made.Without gone r') :
    ∃ left, made.objects.size = r.objects.size + gone.card + left.card ∧ Undone r made r' left ∧
      ∀ y ∈ left, nested := by
  have hnew : ∀ y ∈ gone, r.objects.size ≤ y.index := fun y hy =>
    ((hgone y).mp hy).new hgrew.2 hx
  have hsubset : gone ⊆ newObjects r made := by
    intro y hy
    obtain ⟨o, ho⟩ := Repository.isLive_iff.mp (((hgone y).mp hy).live hlive)
    exact mem_newObjects.mpr ⟨hnew y hy, Repository.index_lt_of_object? ho⟩
  -- What is new and does not go is a prototype, and so it is no composite.
  have hleft : ∀ {y}, r.objects.size ≤ y.index → y.index < made.objects.size → y ∉ gone →
      nested ∧ r.Prototype made y := by
    intro y hyold hylt hstays
    rcases h.reached hyold hylt with ⟨a, rfl, hay⟩ | hprototype
    · exact (hstays ((hgone y).mpr hay)).elim
    · exact hprototype
  have hcomposite : ∀ {y m f}, r.objects.size ≤ y.index →
      made.object? y = some (.composite m f) → y ∈ gone := by
    intro y m f hyold ho
    by_contra hstays
    obtain ⟨-, hcollection, -⟩ := hleft hyold (Repository.index_lt_of_object? ho) hstays
    obtain ⟨k, es, ho'⟩ := isCollection_iff.mp hcollection
    simp [ho] at ho'
  have hmem : ∀ {y}, y ∈ newObjects r made \ gone →
      r.objects.size ≤ y.index ∧ y.index < made.objects.size ∧ y ∉ gone := by
    intro y hy
    obtain ⟨hy, hstays⟩ := Finset.mem_sdiff.mp hy
    exact ⟨(mem_newObjects.mp hy).1, (mem_newObjects.mp hy).2, hstays⟩
  refine ⟨newObjects r made \ gone, ?_, ⟨?_, ?_, ?_⟩, ?_⟩
  · have hcard := Finset.card_sdiff_add_card_eq_card hsubset
    have hle := hgrew.2.objects_le
    rw [card_newObjects] at hcard
    omega
  · exact fun y hy => object?_undone hgrew hwithout hnew hy
  · exact fun m hm => model?_undone hr hgrew h hwithout hnew hcomposite hm
  · intro y hy
    obtain ⟨hyold, hylt, hstays⟩ := hmem hy
    obtain ⟨o, ho⟩ := Repository.isLive_iff.mp (hgrew.2.live_new hyold hylt)
    have hlive' : r'.isLive y = true :=
      Repository.isLive_iff.mpr ⟨o, by rw [hwithout.kept y hstays, ho]⟩
    exact ⟨hyold, hlive', (hleft hyold hylt hstays).2⟩
  · intro y hy
    obtain ⟨hyold, hylt, hstays⟩ := hmem hy
    exact (hleft hyold hylt hstays).1

/-- What is live and not the template of its own model is released. -/
theorem Releases.freed_of_live {id : ObjectId} {outcome : Outcome ts Nat}
    (h : Releases r id outcome) (hlive : r.isLive id = true)
    (hcanonical : ∀ m, r.modelOf? id = some m → r.template? m ≠ some id) :
    ∃ gone : Finset ObjectId, outcome.answer = .ok gone.card ∧
      (∀ x, x ∈ gone ↔ r.GoesWith id x) ∧ r.Without gone outcome.repo := by
  cases h with
  | unknown hnone =>
    obtain ⟨o, ho⟩ := Repository.isLive_iff.mp hlive
    simp [hnone] at ho
  | canonical hm htemplate => exact (hcanonical _ hm htemplate).elim
  | freed _ _ hgone _ hwithout _ => exact ⟨_, rfl, hgone, hwithout⟩

/-- Nothing that is made with an instance on its own is the template of its model. -/
theorem Made.not_canonical {made : Repository ts} (h : Made false r made) (hr : r.WellFormed)
    {x : ObjectId} (hx : r.objects.size ≤ x.index) {m : ModelId}
    (hm : made.modelOf? x = some m) : made.template? m ≠ some x := by
  intro htemplate
  obtain ⟨model, hmodel, hholder⟩ := Option.bind_eq_some_iff.mp htemplate
  cases model with
  | datatype d => exact h.grew.2.noTemplate hr hx m d hmodel (Option.some.inj hholder)
  | shape s =>
    obtain ⟨o, ho, rfl⟩ := Repository.modelOf?_eq_some_iff.mp hm
    cases o with
    | composite m f =>
      obtain ⟨d, hd⟩ := h.grew.1.composite ho
      simp [Object.model, hd] at hmodel
    | collection m es =>
      have hs : made.shape x = .ok s := Repository.shape_eq_ok_iff.mpr ⟨m, es, ho, hmodel⟩
      cases horigin : s.origin with
      | template => simpa using (h.origin hx hs).mp horigin
      | free => simp [Model.template?, horigin] at hholder
      | derived source =>
        -- What it was copied from is older.
        obtain rfl : source = x := by simpa [Model.template?, horigin] using hholder
        exact Nat.lt_irrefl _ (h.grew.1.source_lt hs horigin)

/-- An instance that has just been made is released with all that was made, but for prototypes. -/
theorem newInstance_undone {P : ObjectId → Prop} (hr : r.WellFormed) (hP : Shallow nested P r)
    {id x : ObjectId} (hid : P id) {under : String} {v : Value}
    (hv : ((newInstance id under false).run r).answer = .ok v) (hx : v.object? = some x) :
    let made := ((newInstance id under false).run r).repo
    let released := (releaseInstance x).run made
    ∃ gone left : Finset ObjectId, released.answer = .ok gone.card ∧
      (∀ y, y ∈ gone ↔ made.GoesWith x y) ∧
      made.objects.size = r.objects.size + gone.card + left.card ∧
      Undone r made released.repo left ∧ ∀ y ∈ left, nested := by
  intro made released
  obtain ⟨⟨hmade, hloose⟩, hassembled⟩ := Ensures.ok_of_answer (Ensures.and
    (newInstance_made hr id under false) (newInstance_assembled hr hP hid under)) hv
  obtain ⟨o, ho⟩ := hloose.denotes.object? hx
  have hlive : made.isLive x = true := Repository.isLive_iff.mpr ⟨o, ho⟩
  have hnew := hloose.new x hx
  obtain ⟨gone, hanswer, hgone, hwithout⟩ :=
    (releases_of_wellFormed hmade.grew.1 x).freed_of_live hlive fun m hm =>
      hmade.not_canonical hr hnew hm
  have hroot : Assembled nested r made (· = x) :=
    hassembled.mono fun a ha => Option.some.inj (ha.symm.trans hx)
  obtain ⟨left, hsize, hundone, hleft⟩ :=
    undone_of_assembled hr hmade.grew hroot hnew hlive hgone hwithout
  exact ⟨gone, left, hanswer, hgone, hsize, hundone, hleft⟩

end Step

namespace Idl

open Step Repository

variable {limits : Limits} {r r' : Repository (system limits)}

/-! ## Dimensions -/

/-- Instances of the template are collections nested in each other. -/
def MultiDimensional (r : Repository (system limits)) (id : ObjectId) : Prop :=
  ∃ element q, r.seed id = .ok (.nested element q) ∧ 1 < q.bounds.length

/-- No canonical template holds a template of which instances are nested collections. -/
def HoldsSingle (r : Repository (system limits)) : Prop :=
  ∀ m d f x, r.model? m = some (.datatype d) → r.object? d.template = some (.composite m f) →
    .composite x ∈ f.values → ¬ MultiDimensional r x

/-- An alias with dimensions is a template, and so it was there before. -/
theorem assertTemplateKind_of_grew (hr : r.WellFormed) (h : Grew r r') {id : ObjectId}
    {m : ModelId} (hid : r'.assertTemplateKind id = .ok id) (hm : r'.modelOf id = .ok m)
    (halias : r'.isAlias m = true) : r.assertTemplateKind id = .ok id := by
  obtain ⟨-, n, f, d, ho, hd, htemplate⟩ := assertTemplateKind_eq_ok_iff.mp hid
  obtain rfl := Except.ok.inj (hm.symm.trans (modelOf_of_object? ho))
  rw [isAlias_datatype hd] at halias
  rcases h.1.instance_kind ho hd with rfl | ⟨-, hplain, -⟩
  · obtain ⟨e, g, he, rfl⟩ := h.2.datatype_of hd
    obtain ⟨f', ho'⟩ := hr.template he
    exact assertTemplateKind_eq_ok_iff.mpr ⟨rfl, m, f', e, ho', he, htemplate⟩
  · simp [halias] at hplain

theorem aliasDefinition_of_grew (hr : r.WellFormed) (h : Grew r r') {m : ModelId}
    {d : Datatype Kind} (hd : r.model? m = some (.datatype d)) :
    r'.aliasDefinition m = r.aliasDefinition m := by
  obtain ⟨g, hd'⟩ := h.2.datatype hd
  unfold aliasDefinition
  rw [(upholds_of_grew h).isCollectionQualifier hr, entriesOf_datatype hd, entriesOf_datatype hd',
    nameOf, nameOf, hd, hd']
  rfl

/-- What comes to nested collections came to them before. -/
theorem seedWithin_of_grew (hr : r.WellFormed) (h : Grew r r') {depth : Nat} {id element : ObjectId}
    {q : Qualifier} (hid : r'.assertTemplateKind id = .ok id)
    (hseed : r'.seedWithin depth id = .ok (.nested element q)) :
    r.assertTemplateKind id = .ok id ∧ r.seedWithin depth id = .ok (.nested element q) := by
  have hupholds := upholds_of_grew h
  induction depth generalizing id with
  | zero =>
    obtain ⟨-, m, f, d, ho, -⟩ := assertTemplateKind_eq_ok_iff.mp hid
    rw [seedWithin_zero (modelOf_of_object? ho)] at hseed
    split at hseed <;> simp at hseed
  | succ depth ih =>
    obtain ⟨-, m, f, d, ho, -⟩ := assertTemplateKind_eq_ok_iff.mp hid
    have hm : r'.modelOf id = .ok m := modelOf_of_object? ho
    rw [seedWithin_succ hm] at hseed
    split at hseed
    · next halias =>
      have hid' := assertTemplateKind_of_grew hr h hid hm halias
      obtain ⟨-, n, f', e, ho', he, -⟩ := assertTemplateKind_eq_ok_iff.mp hid'
      have hn : r.modelOf id = .ok n := modelOf_of_object? ho'
      obtain rfl := Except.ok.inj (hm.symm.trans (hupholds.modelOf hn))
      refine ⟨hid', ?_⟩
      rw [seedWithin_succ hn, ← hupholds.isAlias he, if_pos halias]
      rw [aliasDefinition_of_grew hr h he] at hseed
      obtain ⟨⟨target, qs⟩, hdefinition, hseed⟩ := bind_eq_ok_iff.mp hseed
      refine bind_eq_ok_iff.mpr ⟨_, hdefinition, ?_⟩
      cases qs with
      | cons q' qs => exact hseed
      | nil =>
        obtain ⟨next, hnext, hrest⟩ := bind_eq_ok_iff.mp hseed
        obtain rfl := (assertTemplateKind_eq_ok_iff.mp hnext).1
        obtain ⟨hnext', hrest'⟩ := ih hnext hrest
        exact bind_eq_ok_iff.mpr ⟨_, hnext', hrest'⟩
    · simp at hseed

theorem seed_of_grew (hr : r.WellFormed) (h : Grew r r') {id element : ObjectId} {q : Qualifier}
    (hseed : r'.seed id = .ok (.nested element q)) : r.seed id = .ok (.nested element q) := by
  obtain ⟨x, hid, hwithin⟩ := bind_eq_ok_iff.mp hseed
  obtain rfl := (assertTemplateKind_eq_ok_iff.mp hid).1
  obtain ⟨hid', hwithin'⟩ := seedWithin_of_grew hr h hid hwithin
  exact bind_eq_ok_iff.mpr ⟨x, hid', hwithin'⟩

/-- Where no canonical template holds a template of nested collections, instances of the others
need no prototypes. -/
theorem shallow_of_holdsSingle (hr : r.WellFormed) (h : HoldsSingle r) :
    Shallow False (fun x => ¬ MultiDimensional r x) r where
  single {r' id element q} hgrew hid hseed := by
    refine Or.inr (Nat.le_of_not_lt fun hlt => hid ⟨element, q, ?_, hlt⟩)
    exact seed_of_grew hr hgrew hseed
  held {m d f x} hd hT hx := h m d f x hd hT hx

/-- What is no template is no alias. -/
theorem holdsSingle_of_tidy (hr : r.WellFormed) (h : r.Tidy) : HoldsSingle r := by
  rintro m d f x hd hT hx ⟨element, q, hseed, -⟩
  have hno := h.noTemplate hT (Object.mem_held_iff.mpr ⟨_, hx, rfl⟩)
  obtain ⟨y, hy, hwithin⟩ := bind_eq_ok_iff.mp hseed
  obtain ⟨rfl, n, g, e, ho, he, htemplate⟩ := assertTemplateKind_eq_ok_iff.mp hy
  rcases hr.instance_kind ho he with rfl | ⟨-, halias, -⟩
  · exact hno n e he rfl
  · have hplain : r.IsPlain y n := ⟨g, e, ho, he, htemplate, halias⟩
    simp [hplain.seed] at hseed

/-- In runs that keep to the rule, templates hold instances only. -/
theorem holdsSingle_of_reached
    (h : Reached Operation.perform Operation.KeepsInstances (initial limits) r) :
    HoldsSingle r :=
  holdsSingle_of_tidy (consistent_of_reached h).wellFormed (consistent_of_reached h).tidy

/-- Where instances are collections, only the outermost is released, of as many as there are
dimensions. -/
theorem card_of_nested (hr : r.WellFormed) {id element x : ObjectId} {q : Qualifier}
    {under : String} {v : Value} (hseed : r.seed id = .ok (.nested element q))
    (hv : ((newInstance id under false).run r).answer = .ok v) (hx : v.object? = some x)
    {gone : Finset ObjectId}
    (hgone : ∀ y, y ∈ gone ↔ ((newInstance id under false).run r).repo.GoesWith x y) :
    gone.card = 1 ∧ ((newInstance id under false).run r).repo.objects.size =
      r.objects.size + q.bounds.length := by
  obtain ⟨hgrew, hloose⟩ := Ensures.ok_of_answer (newInstance_makes hr id under false) hv
  obtain ⟨c, rfl, hc, hrepo⟩ := answer_of_nested hseed hv
  obtain rfl : c = x := by simpa [Value.object?] using hx
  have hnested := (newCollections_nested hr element q under).ok_of_answer hc
  rw [hrepo] at hnested
  refine ⟨?_, hnested.size⟩
  -- A new collection holds nothing, so that nothing else goes with it.
  obtain ⟨m, es, ho⟩ := hloose.denotes
  obtain rfl := hgrew.2.empty_new ho (hloose.new c rfl)
  have hroot : ∀ y, y ∈ gone ↔ y = c := by
    intro y
    rw [hgone y]
    constructor
    · intro hy
      induction hy with
      | root => rfl
      | held _ ha hheld _ _ ih =>
        subst ih
        obtain rfl := Option.some.inj (ha.symm.trans ho)
        simp [Object.held, Table.values, Table.empty] at hheld
    · rintro rfl
      exact .root
  rw [Finset.card_eq_one]
  exact ⟨c, Finset.ext fun y => by rw [hroot, Finset.mem_singleton]⟩

/-- In every state of every run: the release of an instance that has just been made takes back
whatever was made with it, but for collections that the elements of others are copied from. Of an
alias with dimensions, that is all but the outermost collection. There are none of them if instances
are no nested collections, and no canonical template holds a template of such. -/
theorem release_undoes_of_reached (limits : Limits) (operations : List Operation) :
    let r := Operation.run (initial limits) operations
    ∀ {id under v x}, ((newInstance id under false).run r).answer = .ok v → v.object? = some x →
      let made := ((newInstance id under false).run r).repo
      let released := (releaseInstance x).run made
      ∃ (count : Nat) (left : Finset ObjectId), released.answer = .ok count ∧
        made.objects.size = r.objects.size + count + left.card ∧
        Undone r made released.repo left ∧
        (∀ element q, r.seed id = .ok (.nested element q) →
          count = 1 ∧ left.card + 1 = q.bounds.length) ∧
        (HoldsSingle r → ¬ MultiDimensional r id → left = ∅) := by
  intro r id under v x hv hx made released
  have hr : r.WellFormed := Operation.wellFormed_run limits operations
  have hall : Shallow True (fun _ => True) r :=
    ⟨fun _ _ _ => Or.inl trivial, fun _ _ _ => trivial⟩
  obtain ⟨gone, left, hanswer, hgone, hsize, hundone, -⟩ :=
    newInstance_undone hr hall trivial hv hx
  refine ⟨gone.card, left, hanswer, hsize, hundone, fun element q hseed => ?_,
    fun hsingle hid => ?_⟩
  · obtain ⟨hcard, hcount⟩ := card_of_nested hr hseed hv hx hgone
    refine ⟨hcard, ?_⟩
    rw [hcount] at hsize
    omega
  · obtain ⟨gone', left', hanswer', -, hsize', -, hleft'⟩ :=
      newInstance_undone hr (shallow_of_holdsSingle hr hsingle) hid hv hx
    have hcount : gone.card = gone'.card := Except.ok.inj (hanswer.symm.trans hanswer')
    have hempty : left'.card = 0 := by
      rw [Finset.card_eq_zero]
      exact Finset.eq_empty_of_forall_notMem hleft'
    rw [← Finset.card_eq_zero]
    omega

/-- A line goes as a whole: the composite, the point in which it ends, and their collections. -/
theorem release_undoes_line :
    let r := Operation.run (initial ⟨4, 4⟩)
      [.newStruct "Point" [.member ⟨"at", Atom.long.template, [sequence (.size 2)], []⟩],
        .newStruct "Line" [.member ⟨"end", ⟨21⟩, [], []⟩,
          .member ⟨"via", ⟨21⟩, [sequence .unbounded], []⟩]]
    let made := (newInstance ⟨23⟩ "line" false).run r
    let released := (releaseInstance ⟨30⟩).run made.repo
    made.answer = .ok (.composite ⟨30⟩) ∧ released.answer = .ok 4 ∧
      ∀ x, released.repo.object? x = r.object? x := by
  intro r made released
  have hmade : made.answer = .ok (.composite ⟨30⟩) := by decide +kernel
  have hreleased : released.answer = .ok 4 := by decide +kernel
  have hreached : Reached Operation.perform Operation.KeepsInstances (initial ⟨4, 4⟩) r := by
    simp only [r, Operation.run, List.foldl_cons, List.foldl_nil]
    exact .next (.next .start trivial) trivial
  have hline : ¬ MultiDimensional r ⟨23⟩ := by
    rintro ⟨element, q, hseed, -⟩
    have hplain : r.seed ⟨23⟩ = .ok (.plain ⟨23⟩) := by decide +kernel
    simp [hplain] at hseed
  obtain ⟨count, left, -, -, hundone, -, hempty⟩ :=
    release_undoes_of_reached ⟨4, 4⟩ _ hmade rfl
  obtain rfl := hempty (holdsSingle_of_reached hreached) hline
  exact ⟨hmade, hreleased, fun x => hundone.object? x (Finset.notMem_empty x)⟩

/-- Of a grid of two rows only the outer collection is released, and the row stays that its elements
are copied from. -/
theorem release_leaves_row :
    let rename := Operation.newTypedef
    let r := Operation.run (initial ⟨4, 4⟩)
      [rename "Grid" Atom.long.template [array [.size 2, .size 3]]]
    let made := (newInstance ⟨21⟩ "g" false).run r
    let released := (releaseInstance ⟨23⟩).run made.repo
    made.answer = .ok (.collection ⟨23⟩) ∧ released.answer = .ok 1 ∧
      made.repo.objects.size = r.objects.size + 2 ∧ r.isLive ⟨22⟩ = false ∧
      released.repo.isLive ⟨22⟩ = true := by
  decide +kernel

end Idl

end Metamodel
